import Mathlib.Logic.Relation
import Mathlib.Data.Nat.Find
import CheckedLists.Proofs.Head

/-!
# Concatenating lists

A link is made exactly if the links are those of disjoint finite lists with it as well:
no node has two successors or two predecessors, and none leads back to itself. It puts
the one list behind the other. Whoever looks at the first list, from whichever of its
nodes, finds the values of the second one behind those that were there, and everything
else is as before.

Where several reasons speak against a link, the first one is answered with, in the order
in which the two nodes and the way between them are looked at.
-/

namespace CheckedLists

variable {α : Type}

/-- Links, each given by the node that it begins at and the one that it ends at, that make up
disjoint finite lists. -/
structure FormsLists (links : List (Handle × Handle)) : Prop where
  /-- No two links begin at one node. -/
  sources : (links.map Prod.fst).Nodup
  /-- No two links end at one node. -/
  targets : (links.map Prod.snd).Nodup
  /-- Links do not lead back to the node that they begin at. -/
  acyclic : ∀ p, ¬ Relation.TransGen (fun p q => (p, q) ∈ links) p p

namespace Store

variable {s t : Store α} {place : Option Handle} {a b h p q x y : Handle} {hs ks : List Handle}
  {i : Nat} {f : Fault}

/-- The links of a store, in the order of the slots of the nodes that they begin at. -/
def links (s : Store α) : List (Handle × Handle) :=
  s.handles.filterMap fun p => (s.next p).toOption.join.map fun q => (p, q)

/-- A store has a link for every node with a successor. -/
theorem Slotted.mem_links (hs : s.Slotted) : (p, q) ∈ s.links ↔ s.Leads p q := by
  have hnext (r : Handle) : (s.next r).toOption.join = some q ↔ s.Leads r q := by
    unfold Leads
    rcases s.next r with _ | _ | _ <;> simp [Except.toOption]
  simp only [links, List.mem_filterMap, hs.mem_handles, Option.map_eq_some_iff, Prod.mk.injEq]
  constructor
  · rintro ⟨r, _, _, hr, rfl, rfl⟩
    exact (hnext r).mp hr
  · intro hlead
    exact ⟨p, isLive_of_next hlead, q, (hnext p).mpr hlead, rfl, rfl⟩

/-- No link is met twice. -/
theorem Slotted.nodup_links (hs : s.Slotted) : s.links.Nodup := by
  refine hs.nodup_handles.filterMap ?_
  rintro p r _ hp hr
  obtain ⟨_, _, rfl⟩ := Option.map_eq_some_iff.mp hp
  obtain ⟨_, _, heq⟩ := Option.map_eq_some_iff.mp hr
  exact (Prod.mk.inj heq).1.symm

/-- The links of a coherent store make up lists. -/
theorem Coherent.formsLists (hs : s.Coherent) : FormsLists s.links where
  sources := by
    refine hs.slotted.nodup_links.map_on ?_
    rintro ⟨p, q⟩ hq ⟨_, r⟩ hr rfl
    rw [hs.slotted.mem_links] at hq hr
    cases hq.symm.trans hr
    rfl
  targets := by
    refine hs.slotted.nodup_links.map_on ?_
    rintro ⟨p, r⟩ hp ⟨q, _⟩ hq rfl
    rw [hs.slotted.mem_links] at hp hq
    rw [hs.linked.single hp hq]
  acyclic p := by
    simp only [hs.slotted.mem_links]
    exact hs.linked.not_transGen p

/-- Links lead from the first node of a chain to all of its nodes. -/
theorem Chain.reflTransGen (hc : s.Chain (some h) hs) (hp : p ∈ hs) :
    Relation.ReflTransGen s.Leads h p := by
  generalize hplace : some h = place at hc
  induction hc generalizing h with
  | nil => cases hp
  | @cons first behind ks hn hrest ih =>
    obtain rfl := Option.some.inj hplace
    rcases List.mem_cons.mp hp with rfl | hp
    · exact .refl
    · cases hrest with
      | nil => cases hp
      | cons hm hks => exact .head hn (ih hp rfl)

/-- A live node that leads nowhere has no successor. -/
theorem exists_last (hx : s.isLive x = true) (hlast : ∀ q, ¬ s.Leads x q) :
    ∃ n, s.lookup x = .ok n ∧ n.next = none := by
  obtain ⟨n, hn⟩ := isLive_iff.mp hx
  refine ⟨n, hn, ?_⟩
  cases hnext : n.next with
  | none => rfl
  | some q => exact absurd (next_eq_ok_iff.mpr ⟨n, hn, hnext⟩) (hlast q)

/-- The node `y` can be made the successor of `x`. -/
structure Linkable (s : Store α) (x y : Handle) : Prop where
  /-- The first node is live. -/
  first_live : s.isLive x = true
  /-- The second node is live. -/
  second_live : s.isLive y = true
  /-- The first node has no successor. -/
  last : ∀ q, ¬ s.Leads x q
  /-- The second node has no predecessor. -/
  head : ∀ p, ¬ s.Leads p y
  /-- The first node is not on the list from the second one on. -/
  off : ∀ ks, s.Chain (some y) ks → x ∉ ks

namespace Linkable

theorem next_eq (hl : s.Linkable x y) : s.next x = .ok none :=
  next_eq_ok_iff.mpr (exists_last hl.first_live hl.last)

theorem isHead (hl : s.Linkable x y) : s.IsHead y := ⟨hl.second_live, hl.head⟩

/-- The second node begins a list that the first one is not on. -/
theorem exists_chain (hs : s.Coherent) (hl : s.Linkable x y) :
    ∃ ks, s.Chain (some y) ks ∧ x ∉ ks ∧ x ≠ y := by
  obtain ⟨ks, hks⟩ := hs.linked.exists_chain hl.second_live
  have hoff := hl.off ks hks
  refine ⟨ks, hks, hoff, ?_⟩
  rintro rfl
  exact hoff hks.head_mem

end Linkable

/-- A node can be made the successor of another one exactly if with this link the links still make
up lists. -/
theorem Coherent.linkable_iff (hs : s.Coherent) : s.Linkable x y ↔
    s.isLive x = true ∧ s.isLive y = true ∧ FormsLists ((x, y) :: s.links) := by
  have hlists := hs.formsLists
  constructor
  · intro hl
    obtain ⟨ks, hks, hoff, hne⟩ := hl.exists_chain hs
    refine ⟨hl.first_live, hl.second_live, ?_, ?_, fun p => ?_⟩
    · rw [List.map_cons, List.nodup_cons, List.mem_map]
      refine ⟨?_, hlists.sources⟩
      rintro ⟨⟨_, q⟩, hq, rfl⟩
      exact hl.last q (hs.slotted.mem_links.mp hq)
    · rw [List.map_cons, List.nodup_cons, List.mem_map]
      refine ⟨?_, hlists.targets⟩
      rintro ⟨⟨p, _⟩, hp, rfl⟩
      exact hl.head p (hs.slotted.mem_links.mp hp)
    · -- These are the links behind the join.
      have hhead := hs.linked.not_owned_of_isHead hl.isHead
      have hjoined := (hs.linked.join hl.next_eq hks hhead hoff).not_transGen p
      simpa only [List.mem_cons, Prod.mk.injEq, hs.slotted.mem_links,
        ← leads_join hl.next_eq hne] using hjoined
  · rintro ⟨hx, hy, hsources, htargets, hacyclic⟩
    rw [List.map_cons, List.nodup_cons, List.mem_map] at hsources htargets
    refine ⟨hx, hy, fun q hq => ?_, fun p hp => ?_, fun ks hks hmem => ?_⟩
    · exact hsources.1 ⟨(x, q), hs.slotted.mem_links.mpr hq, rfl⟩
    · exact htargets.1 ⟨(p, y), hs.slotted.mem_links.mpr hp, rfl⟩
    · apply hacyclic x
      refine .head' List.mem_cons_self (.mono ?_ _ _ (hks.reflTransGen hmem))
      intro p q hlead
      exact List.mem_cons_of_mem _ (hs.slotted.mem_links.mpr hlead)

/-- A reason not to make `y` the successor of `x`, with the fault that tells of it and its place
among the reasons. -/
inductive Obstacle (s : Store α) (x y : Handle) : Nat → Fault → Prop where
  /-- The first node is not live. -/
  | firstMissing {f : Fault} (hf : s.lookup x = .error f) : Obstacle s x y 0 f
  /-- The first node has a successor. -/
  | linked {q : Handle} (hq : s.Leads x q) : Obstacle s x y 1 (.alreadyLinked x)
  /-- The second node is not live. -/
  | secondMissing {f : Fault} (hf : s.lookup y = .error f) : Obstacle s x y 2 f
  /-- The second node has a predecessor. -/
  | owned {p : Handle} (hp : s.Leads p y) : Obstacle s x y 3 (.notHead y)
  /-- The first node is on the list from the second one on. -/
  | closing {ks : List Handle} (hks : s.Chain (some y) ks) (hx : x ∈ ks) :
      Obstacle s x y 4 (.cycle y)

/-- Only the way back is answered with a fault that tells of it. -/
theorem Obstacle.of_cycle (ho : s.Obstacle x y i (.cycle y)) :
    i = 4 ∧ ∃ ks, s.Chain (some y) ks ∧ x ∈ ks := by
  have hlookup (p : Handle) : s.lookup p ≠ .error (.cycle y) := by
    intro hf
    obtain ⟨_, hf⟩ := lookup_eq_error_iff.mp hf
    split at hf <;> cases hf
  cases ho with
  | firstMissing hf => exact absurd hf (hlookup x)
  | secondMissing hf => exact absurd hf (hlookup y)
  | closing hks hx => exact ⟨rfl, _, hks, hx⟩

/-- A fault tells of the first one of the reasons not to make `y` the successor of `x`. -/
def FirstObstacle (s : Store α) (x y : Handle) (f : Fault) : Prop :=
  ∃ i, s.Obstacle x y i f ∧ ∀ j < i, ∀ g, ¬ s.Obstacle x y j g

/-- Where the first node can be given a successor, it is live and has none. -/
theorem exists_last_of_clear (hmissing : ∀ g, ¬ s.Obstacle x y 0 g)
    (hlinked : ∀ g, ¬ s.Obstacle x y 1 g) : ∃ n, s.lookup x = .ok n ∧ n.next = none := by
  cases hn : s.lookup x with
  | error f => exact absurd (.firstMissing hn) (hmissing f)
  | ok n =>
    rw [← hn]
    exact exists_last (isLive_iff.mpr ⟨n, hn⟩) fun q hq => hlinked _ (.linked hq)

/-- A link can be made, or there is a first reason not to make it. -/
theorem linkable_or_obstacle (s : Store α) (x y : Handle) :
    s.Linkable x y ∨ ∃ f, s.FirstObstacle x y f := by
  by_cases hsome : ∃ i f, s.Obstacle x y i f
  · right
    classical
    obtain ⟨f, hf⟩ := Nat.find_spec hsome
    exact ⟨f, Nat.find hsome, hf, fun j hj g hg => Nat.find_min hsome hj ⟨g, hg⟩⟩
  · left
    have hclear (i : Nat) (f : Fault) : ¬ s.Obstacle x y i f := fun hf => hsome ⟨i, f, hf⟩
    obtain ⟨n, hn, _⟩ := exists_last_of_clear (hclear 0) (hclear 1)
    refine ⟨isLive_iff.mpr ⟨n, hn⟩, ?_, fun q hq => hclear _ _ (.linked hq),
      fun p hp => hclear _ _ (.owned hp), fun ks hks hx => hclear _ _ (.closing hks hx)⟩
    cases hm : s.lookup y with
    | error f => exact absurd (.secondMissing hm) (hclear _ f)
    | ok m => exact isLive_iff.mpr ⟨m, hm⟩

/-- Joining two lists puts the values of the second one behind those of the first, and leaves the
values of other lists. -/
theorem Coherent.values_join (hs : s.Coherent) (ha : s.next a = .ok none)
    (hb : s.Chain (some b) ks) (hhead : ¬ s.Owned b) (hab : a ∉ ks) {ps : List Handle}
    (hc : s.Chain place ps) :
    (s.join a b).values place =
      .ok (if a ∈ ps then s.valuesOf ps ++ s.valuesOf ks else s.valuesOf ps) := by
  rw [(hs.join ha hb hhead hab).values_eq (hc.join ha hb hab),
    valuesOf_congr fun _ _ => get_join]
  by_cases hmem : a ∈ ps
  · rw [if_pos hmem, if_pos hmem, valuesOf_append]
  · rw [if_neg hmem, if_neg hmem]

/-- In `t` the list from `y` on comes behind the list in `s` that `x` is the end of, and nothing
else has changed. -/
structure Concatenates (s : Store α) (x y : Handle) (t : Store α) : Prop where
  /-- The one node has the other one as its successor, and the other links are as before. -/
  next_eq : ∀ p, t.next p = if p = x then .ok (some y) else s.next p
  /-- The other node is not a head any longer, and the other heads are as before. -/
  isHead_iff : ∀ p, t.IsHead p ↔ p ≠ y ∧ s.IsHead p
  /-- The same handles are live. -/
  isLive_eq : ∀ p, t.isLive p = s.isLive p
  /-- All nodes have the values that they had. -/
  get_eq : ∀ p, t.get p = s.get p
  /-- The number of live nodes is as before. -/
  live_eq : t.live = s.live
  /-- The bound is as before. -/
  limit_eq : t.limit = s.limit
  /-- The counts over the whole life are as before. -/
  stats_eq : t.stats = s.stats
  /-- The number of slots is as before. -/
  size_eq : t.slots.size = s.slots.size
  /-- From every node whose list ended in `x` the values of the list from `y` on come behind those
  that were there, and from the other nodes the values are as before. -/
  values_eq : ∀ h, s.isLive h = true → ∃ ks vs ws, s.Chain (some h) ks ∧
    s.values (some h) = .ok vs ∧ s.values (some y) = .ok ws ∧
    t.values (some h) = .ok (if ks.getLast? = some x then vs ++ ws else vs)

/-- A join concatenates two lists. -/
theorem Coherent.concatenates (hs : s.Coherent) (hl : s.Linkable x y) :
    s.Concatenates x y (s.join x y) := by
  obtain ⟨ks, hks, hoff, hne⟩ := hl.exists_chain hs
  have hhead := hs.linked.not_owned_of_isHead hl.isHead
  obtain ⟨hlive, hstats, hlimit, hsize⟩ := s.counters_join x y
  refine ⟨fun p => next_join hne hl.first_live, fun p => isHead_join hl.next_eq hne,
    fun p => isLive_join, fun p => get_join, hlive, hlimit, hstats, hsize, fun h hh => ?_⟩
  obtain ⟨ps, hps⟩ := hs.linked.exists_chain hh
  refine ⟨ps, _, _, hps, hs.values_eq hps, hs.values_eq hks, ?_⟩
  rw [hs.values_join hl.next_eq hks hhead hoff hps]
  simp only [hps.getLast?_eq_some_iff hl.next_eq]

end Store

namespace ArenaM

variable {a b : Arena α} {x y : Handle} {f : Fault} {e : Abort Fault} {i : Nat}

/-- A link that can be made is made. -/
theorem link_of_linkable (hs : a.store.Coherent) (hl : a.store.Linkable x y) :
    link x y a = .ok () (a.updated (a.store.join x y) [.linked x y]) := by
  obtain ⟨n, hn, hnext⟩ := Store.next_eq_ok_iff.mp hl.next_eq
  obtain ⟨m, hm, hhead⟩ := hs.linked.isHead_iff.mp hl.isHead
  obtain ⟨ks, hks, hoff, _⟩ := hl.exists_chain hs
  rw [link_of_head hs hn hnext hm hhead hks, if_neg hoff]

/-- A link is refused for the first reason not to make it. -/
theorem link_of_obstacle (hs : a.store.Coherent) (ho : a.store.Obstacle x y i f)
    (hfirst : ∀ j < i, ∀ g, ¬ a.store.Obstacle x y j g) :
    link x y a = .error (.error f) a := by
  have hlast (hi : 1 < i) := Store.exists_last_of_clear (hfirst 0 (by omega)) (hfirst 1 hi)
  cases ho with
  | firstMissing hf => exact link_of_error_left hf
  | linked hq =>
    obtain ⟨n, hn, hnext⟩ := Store.next_eq_ok_iff.mp hq
    exact link_of_linked hn (by simp [hnext])
  | secondMissing hf =>
    obtain ⟨n, hn, hnext⟩ := hlast (by decide)
    exact link_of_error_right hn hnext hf
  | owned hp =>
    obtain ⟨n, hn, hnext⟩ := hlast (by decide)
    obtain ⟨m, hm, howned⟩ := hs.linked.owned_of_leads hp
    exact link_of_owned hn hnext hm howned
  | closing hks hx =>
    obtain ⟨n, hn, hnext⟩ := hlast (by decide)
    obtain ⟨m, hm⟩ := Store.isLive_iff.mp (hks.isLive hks.head_mem)
    have hhead : m.owned = false := by
      rw [hs.linked.owned_eq_false_iff hm]
      intro p hp
      exact hfirst 3 (by decide) _ (.owned hp)
    rw [link_of_head hs hn hnext hm hhead hks, if_pos hx]

/-- Exactly the links that can be made are made. -/
theorem link_ok_iff (hs : a.store.Coherent) :
    (∃ b, link x y a = .ok () b) ↔ a.store.Linkable x y := by
  refine ⟨?_, fun hl => ⟨_, link_of_linkable hs hl⟩⟩
  rintro ⟨b, hok⟩
  rcases a.store.linkable_or_obstacle x y with hl | ⟨f, i, ho, hfirst⟩
  · exact hl
  · cases (link_of_obstacle hs ho hfirst).symm.trans hok

/-- All other links are refused for the first reason not to make them, and nothing is changed. -/
theorem link_error_iff (hs : a.store.Coherent) :
    link x y a = .error e b ↔ ∃ f, a.store.FirstObstacle x y f ∧ e = .error f ∧ b = a := by
  apply eq_error_iff
  · rcases a.store.linkable_or_obstacle x y with hl | hf
    · exact .inl ⟨_, _, link_of_linkable hs hl⟩
    · exact .inr hf
  · rintro f ⟨i, ho, hfirst⟩
    exact link_of_obstacle hs ho hfirst

/-- The way back is the reason not to make a link exactly if the one node is the last one of the
list that the other one is the head of. -/
theorem link_cycle_iff (hs : a.store.Coherent) :
    link x y a = .error (.error (.cycle y)) a ↔
      a.store.IsHead y ∧ ∃ ks, a.store.Chain (some y) ks ∧ ks.getLast? = some x := by
  rw [link_error_iff hs]
  constructor
  · rintro ⟨f, ⟨i, ho, hfirst⟩, hf, -⟩
    cases hf
    obtain ⟨rfl, ks, hks, hx⟩ := ho.of_cycle
    have hend := Store.exists_last_of_clear (hfirst 0 (by decide)) (hfirst 1 (by decide))
    have hnext : a.store.next x = .ok none := Store.next_eq_ok_iff.mpr hend
    refine ⟨⟨hks.isLive hks.head_mem, fun p hp => ?_⟩, ks, hks, ?_⟩
    · exact hfirst 3 (by decide) _ (.owned hp)
    · exact (hks.getLast?_eq_some_iff hnext).mpr hx
  · rintro ⟨⟨hlive, hhead⟩, ks, hks, hlast⟩
    have hx := List.mem_of_getLast? hlast
    have hnext := hks.next_of_getLast? hlast
    refine ⟨_, ⟨4, .closing hks hx, fun j hj g ho => ?_⟩, rfl, rfl⟩
    cases ho with
    | firstMissing hf =>
      have hdead := (Store.lookup_eq_error_iff.mp hf).1
      cases hdead.symm.trans (hks.isLive hx)
    | linked hq => cases hnext.symm.trans hq
    | secondMissing hf =>
      have hdead := (Store.lookup_eq_error_iff.mp hf).1
      cases hdead.symm.trans hlive
    | owned hp => exact hhead _ hp
    | closing => exact absurd hj (Nat.lt_irrefl 4)

end ArenaM

variable {a : Arena α}

/-- In a reachable arena a link is made exactly if both nodes are live, the first one has no
successor, the second one has no predecessor, and the first one is not on the list from the second
one on; this is so exactly if both are live and the links make up lists with this link as well. A
link that is made concatenates the two lists and does nothing else but put down its record. Any
other link is refused for the first reason against it, with nothing changed. It is refused as
closing a cycle exactly if the first node is the end of the list that the second one is the head
of. -/
theorem links_concatenate_lists_that_stay_apart (ha : a.Reachable) (x y : Handle) :
    ((∃ b, ArenaM.link x y a = .ok () b) ↔ a.store.Linkable x y) ∧
    (a.store.Linkable x y ↔ a.store.isLive x = true ∧ a.store.isLive y = true ∧
      FormsLists ((x, y) :: a.store.links)) ∧
    (∀ p q, (p, q) ∈ a.store.links ↔ a.store.Leads p q) ∧
    (∀ b, ArenaM.link x y a = .ok () b →
      a.store.Concatenates x y b.store ∧ b = a.updated b.store [.linked x y]) ∧
    (∀ e b, ArenaM.link x y a = .error e b ↔
      ∃ f, a.store.FirstObstacle x y f ∧ e = .error f ∧ b = a) ∧
    (ArenaM.link x y a = .error (.error (.cycle y)) a ↔
      a.store.IsHead y ∧ ∃ ks, a.store.Chain (some y) ks ∧ ks.getLast? = some x) := by
  have hs := ha.coherent
  refine ⟨ArenaM.link_ok_iff hs, hs.linkable_iff, fun p q => hs.slotted.mem_links, ?_,
    fun e b => ArenaM.link_error_iff hs, ArenaM.link_cycle_iff hs⟩
  intro b hok
  have hl := (ArenaM.link_ok_iff hs).mp ⟨b, hok⟩
  cases (ArenaM.link_of_linkable hs hl).symm.trans hok
  exact ⟨hs.concatenates hl, rfl⟩

/-- A link from the end of the one list of `twoLists` to the head of the other one makes one list of
them; a link from the end of a list to its own head is refused. -/
theorem twoLists_concatenated :
    twoLists.Reachable ∧
    (∃ b, ArenaM.link ⟨1, 0⟩ ⟨2, 0⟩ twoLists = .ok () b ∧
      b.store.values (some ⟨0, 0⟩) = .ok [10, 20, 30, 40] ∧
      b.store.values (some ⟨3, 0⟩) = .ok [40] ∧ ¬ b.store.IsHead ⟨2, 0⟩) ∧
    ArenaM.link ⟨1, 0⟩ ⟨0, 0⟩ twoLists = .error (.error (.cycle ⟨0, 0⟩)) twoLists := by
  have ha : twoLists.Reachable := ⟨.global, _, rfl⟩
  have hs := ha.coherent
  have hfirst : twoLists.store.Chain (some ⟨0, 0⟩) [⟨0, 0⟩, ⟨1, 0⟩] := .cons rfl (.cons rfl .nil)
  have hend : twoLists.store.Chain (some ⟨3, 0⟩) [⟨3, 0⟩] := .cons rfl .nil
  have hsecond : twoLists.store.Chain (some ⟨2, 0⟩) [⟨2, 0⟩, ⟨3, 0⟩] := .cons rfl hend
  refine ⟨ha, ?_, ?_⟩
  · obtain ⟨hok, _, _, hmade, _⟩ := links_concatenate_lists_that_stay_apart ha ⟨1, 0⟩ ⟨2, 0⟩
    have hhead : twoLists.store.IsHead ⟨2, 0⟩ := hs.linked.isHead_iff.mpr ⟨_, rfl, rfl⟩
    have hl : twoLists.store.Linkable ⟨1, 0⟩ ⟨2, 0⟩ := by
      refine ⟨rfl, rfl, fun q hq => ?_, hhead.2, fun ks hks => ?_⟩
      · cases hq
      · rw [hks.unique hsecond]
        decide
    obtain ⟨b, hb⟩ := hok.mpr hl
    obtain ⟨hjoined, _⟩ := hmade b hb
    refine ⟨b, hb, ?_, ?_, fun hstill => ((hjoined.isHead_iff _).mp hstill).1 rfl⟩
    · obtain ⟨ks, vs, ws, hks, hvs, hws, hvalues⟩ := hjoined.values_eq ⟨0, 0⟩ rfl
      cases hks.unique hfirst
      cases (hs.values_eq hfirst).symm.trans hvs
      cases (hs.values_eq hsecond).symm.trans hws
      exact hvalues
    · obtain ⟨ks, vs, ws, hks, hvs, hws, hvalues⟩ := hjoined.values_eq ⟨3, 0⟩ rfl
      cases hks.unique hend
      cases (hs.values_eq hend).symm.trans hvs
      exact hvalues
  · obtain ⟨_, _, _, _, _, hcycle⟩ := links_concatenate_lists_that_stay_apart ha ⟨1, 0⟩ ⟨0, 0⟩
    exact hcycle.mpr ⟨hs.linked.isHead_iff.mpr ⟨_, rfl, rfl⟩, _, hfirst, rfl⟩

end CheckedLists
