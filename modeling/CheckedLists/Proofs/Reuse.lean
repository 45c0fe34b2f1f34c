import CheckedLists.Proofs.Destruction
import CheckedLists.Proofs.Issue

/-!
# The order in which slots are taken

The free list is a stack. A destruction puts the slots of its nodes on it, so that the slot
of the last node is on top, and creations take slots from the top. Where no slot is free,
slots are made one behind the other. The handles of the nodes to come are therefore known
beforehand, whatever else happens, until a list is destroyed again.
-/

namespace CheckedLists

variable {α : Type}

/-- The handle of the next node in the slot of a node that is released. Generations start again
from 0 behind the last one. -/
def Handle.renewed (h : Handle) : Handle := ⟨h.index, h.generation + 1⟩

namespace Store

variable {s t : Store α} {h : Handle} {ks ps : List Handle} {is : List UInt32} {v : α}

/-- The handle of the next node in the vacant slot `i`. -/
def hole (s : Store α) (i : UInt32) : Handle := ⟨i, (s.stamp i.toNat).elim 0 Stamp.generation⟩

/-- The handles of the first nodes in the slots that can still be made, in the order of the
slots. -/
def unused (s : Store α) : List Handle :=
  (List.range' s.slots.size (maxNodes - s.slots.size)).map fun i => ⟨i.toUInt32, 0⟩

/-- These are the handles of the nodes that can be created while none is released, in the order
of the creations: those for the slots on the free list from its top on, then those for further
slots. -/
def Supplies (s : Store α) (ps : List Handle) : Prop :=
  ∃ is, s.FreeList s.free is ∧ ps = is.map s.hole ++ s.unused

theorem hole_of_slot {place : Option UInt32} {i : UInt32} {g : UInt32}
    (hi : s.slots[i.toNat]? = some (.vacant place g)) : s.hole i = ⟨i, g⟩ := by
  rw [hole, stamp, hi]
  rfl

theorem hole_congr {i : UInt32} (hi : t.stamp i.toNat = s.stamp i.toNat) :
    t.hole i = s.hole i := by
  rw [hole, hi, hole]

/-- The handle for a slot on the free list has the generation that stands in the slot. -/
theorem FreeList.slot_hole {place : Option UInt32} {i : UInt32} (hf : s.FreeList place is)
    (hi : i ∈ is) : ∃ q, s.slots[i.toNat]? = some (.vacant q (s.hole i).generation) := by
  obtain ⟨q, g, hslot⟩ := hf.vacant hi
  exact ⟨q, by rw [hslot, hole_of_slot hslot]⟩

/-- While a further slot can be numbered, the next one to be made comes first. -/
theorem unused_of_lt (hsize : s.slots.size < maxNodes) (ht : t.slots.size = s.slots.size + 1) :
    s.unused = ⟨s.slots.size.toUInt32, 0⟩ :: t.unused := by
  obtain ⟨n, hn⟩ := Nat.exists_eq_add_of_lt hsize
  rw [unused, unused, ht, show maxNodes - s.slots.size = n + 1 by omega,
    show maxNodes - (s.slots.size + 1) = n by omega, List.range'_succ, List.map_cons]

/-- Every sound store has a supply. -/
theorem Slotted.exists_supplies (hs : s.Slotted) : ∃ ps, s.Supplies ps := by
  obtain ⟨is, hf, _⟩ := hs.exists_freeList
  exact ⟨_, is, hf, rfl⟩

/-- Altering a node in its generation keeps the supply. -/
theorem Supplies.alter (hp : s.Supplies ps) {f : Node α → Node α}
    (hf : ∀ n, (f n).generation = n.generation) : (s.alter h f).Supplies ps := by
  obtain ⟨is, hfree, rfl⟩ := hp
  have htop : (s.alter h f).free = s.free := by
    unfold Store.alter
    cases s.lookup h <;> rfl
  refine ⟨is, htop ▸ hfree.alter h f, ?_⟩
  rw [unused, unused, (s.counters_alter h f).2.2.2]
  congr 1
  exact List.map_congr_left fun i _ => (hole_congr (stamp_alter hf)).symm

theorem Supplies.join (hp : s.Supplies ps) (a b : Handle) : (s.join a b).Supplies ps :=
  (hp.alter (by intro; rfl)).alter (by intro; rfl)

theorem Supplies.setLimit (hp : s.Supplies ps) (limit : Option Nat) :
    (s.setLimit limit).Supplies ps := by
  obtain ⟨is, hfree, rfl⟩ := hp
  exact ⟨is, hfree.congr fun _ _ => rfl, rfl⟩

/-- A creation takes the first handle of the supply. -/
theorem Created.supplies (hc : s.Created v h t) (hs : s.Slotted) (hp : s.Supplies ps) :
    ∃ qs, ps = h :: qs ∧ t.Supplies qs := by
  obtain ⟨is, hfree, rfl⟩ := hp
  have htail := hfree.created (hs.nodup_of_freeList hfree) hc
  have hholes : is.tail.map t.hole = is.tail.map s.hole := by
    refine List.map_congr_left fun j hj => hole_congr ?_
    rw [hc.stamp, if_neg ((hc.vacant_iff _).mp (htail.vacant hj)).1]
  refine ⟨_, ?_, is.tail, htail, rfl⟩
  rw [hholes]
  cases hc with
  | reuse htop hslot =>
    rw [htop] at hfree
    cases hfree
    rw [List.map_cons, hole_of_slot hslot, List.cons_append, List.tail_cons]
    simp only [unused, size_put]
  | grow hnone hsize =>
    rw [hnone] at hfree
    cases hfree
    exact unused_of_lt hsize (Array.size_push _)

/-- Releasing a list puts the handles for the slots of its nodes, those of the last node first,
before the supply. -/
theorem Supplies.vacateAll (hfree : s.FreeList s.free is) (hnodup : ks.Nodup)
    (hlive : ∀ k ∈ ks, s.isLive k = true) :
    (s.vacateAll ks).Supplies
      (ks.reverse.map Handle.renewed ++ is.map s.hole ++ s.unused) := by
  refine ⟨_, hfree.vacateAll hnodup hlive, ?_⟩
  rw [List.map_append, List.map_reverse, List.map_reverse, List.map_map, unused, unused,
    (s.counters_vacateAll ks).2.2.2]
  congr 2
  · refine congrArg List.reverse (List.map_congr_left fun k hk => ?_)
    obtain ⟨place, hslot⟩ := getElem?_vacateAll_of_mem hnodup hlive hk
    exact (hole_of_slot hslot).symm
  · refine List.map_congr_left fun i hi => (hole_congr ?_).symm
    rw [stamp, getElem?_vacateAll_of_ne, stamp]
    rintro k hk he
    obtain ⟨n, hn⟩ := isLive_iff.mp (hlive k hk)
    exact not_vacant hn (he ▸ hfree.vacant hi)

end Store

/-- An event issues a handle: it is an operation that does. -/
def Event.Issues (a : Arena α) : Event α → Handle → Prop
  | .call op, h => op.Issues a h
  | .supply _, _ => False

/-- An event is no destruction of a list with nodes that is carried out. -/
def Event.Spares (a : Arena α) : Event α → Prop
  | .call (.destroy (some h)) => ∀ n b, ArenaM.destroy (some h) a ≠ .ok n b
  | _ => True

/-- What an event makes of a supply, where `t` is the store behind it. -/
inductive Event.Consumes (a : Arena α) (e : Event α) (t : Store α) : List Handle → Prop where
  /-- It issues no handle, and the supply is as before. -/
  | nothing {ps : List Handle} (hnone : ∀ h, ¬ e.Issues a h) (hp : t.Supplies ps)
      (hcreated : t.stats.created = a.store.stats.created) : Consumes a e t ps
  /-- It issues the first handle and no other one, and the rest of the supply is left. -/
  | first {h : Handle} {ps : List Handle} (hi : ∀ k, e.Issues a k ↔ k = h) (hp : t.Supplies ps)
      (hcreated : t.stats.created = a.store.stats.created + 1) : Consumes a e t (h :: ps)

namespace Op

variable {a : Arena α} {op : Op (Option Handle) Handle α} {head : Option Handle} {h k : Handle}
  {ps : List Handle} {t : Store α} {v : α}

/-- Nothing is issued where the store stays. -/
theorem not_issues_of_store_eq (hs : a.store.Coherent)
    (hstore : (op.perform.after a).store = a.store) (h : Handle) : ¬ op.Issues a h := by
  intro hi
  obtain ⟨head, ht⟩ := hi.exists_target
  obtain ⟨rfl, hlive⟩ := (issues_iff hs ht).mp hi
  rw [hstore] at hlive
  exact hs.slotted.not_isLive_fresh hlive

/-- An operation other than a creation and an append issues nothing. -/
theorem not_issues_of_target (ht : op.target? = none) (h : Handle) : ¬ op.Issues a h := by
  intro hi
  obtain ⟨head, hsome⟩ := hi.exists_target
  cases ht.symm.trans hsome

/-- An operation that creates a node issues its handle, and no other one. -/
theorem issues_iff_of_created (hs : a.store.Coherent) (ht : op.target? = some head)
    (hc : a.store.Created v h t) (hlive : (op.perform.after a).store.isLive h = true)
    (k : Handle) : op.Issues a k ↔ k = h := by
  rw [issues_iff hs ht, hc.eq_fresh]
  constructor
  · exact And.left
  · rintro rfl
    exact ⟨rfl, hc.eq_fresh ▸ hlive⟩

/-- An operation that destroys no list issues the first handle of the supply, or none. -/
theorem consumes_perform (hs : a.store.Coherent) (hspare : (Event.call op).Spares a)
    (hp : a.store.Supplies ps) : (Event.call op).Consumes a (op.perform.after a).store ps := by
  have hmakes := op.makes_perform hs
  -- What is issued depends on the store behind, so each case keeps the equation for it.
  generalize hstore : (op.perform.after a).store = t at hmakes ⊢
  cases hmakes with
  | idle => exact .nothing (not_issues_of_store_eq hs hstore) hp rfl
  | write hc =>
    refine .nothing (fun h hi => ?_) (hp.alter (by intro; rfl)) ?_
    · obtain ⟨head, ht⟩ := hi.exists_target
      cases (cell?_of_target ht).symm.trans hc
    · exact congrArg Stats.created (Store.counters_alter _ _ _).2.1
  | bound limit => exact .nothing (not_issues_of_target rfl) (hp.setLimit limit) rfl
  | @create op _ v h t ht _ hc =>
    obtain ⟨qs, rfl, hq⟩ := hc.supplies hs.slotted hp
    have hlive : t.isLive h = true := hc.isLive_iff.mpr (.inl rfl)
    exact .first (issues_iff_of_created hs ht hc (hstore ▸ hlive)) hq
      (congrArg Stats.created hc.counters.2.1)
  | @append op _ v h last t ht _ hlast hc =>
    obtain ⟨qs, rfl, hq⟩ := hc.supplies hs.slotted hp
    have hlive : (t.join last h).isLive h = true :=
      Store.isLive_join.trans (hc.isLive_iff.mpr (.inl rfl))
    refine .first (issues_iff_of_created hs ht hc (hstore ▸ hlive)) (hq.join last h) ?_
    rw [(t.counters_join last h).2.1, hc.counters.2.1]
  | @link x y =>
    exact .nothing (not_issues_of_target rfl) (hp.join x y)
      (congrArg Stats.created (Store.counters_join _ _ _).2.1)
  | @destroy h ks hhead hc =>
    -- A head can be destroyed, so this is a destruction that is carried out.
    obtain ⟨n, hn⟩ := Store.isLive_iff.mp (hc.isLive hc.head_mem)
    have hhead' : n.owned = false := by
      rw [← Bool.not_eq_true]
      exact fun ho => hhead ⟨n, hn, ho⟩
    exact absurd (ArenaM.destroy_of_head hs hn hhead' hc) (hspare _ _)

end Op

namespace Arena

variable {a : Arena α} {events : List (Event α)} {ps hs : List Handle}

/-- No event of the run from `a` on is a destruction of a list with nodes that is carried out. -/
def Sparing : Arena α → List (Event α) → Prop
  | _, [] => True
  | a, e :: events => e.Spares a ∧ Sparing (a.step e) events

/-- The events of the run from `a` on issue these handles, one after the other. -/
inductive Issuing : Arena α → List (Event α) → List Handle → Prop where
  /-- Nothing happens. -/
  | nil (a : Arena α) : Issuing a [] []
  /-- The first event issues a handle. -/
  | issue {a : Arena α} {e : Event α} {events : List (Event α)} {h : Handle} {hs : List Handle}
      (hi : e.Issues a h) (hrest : Issuing (a.step e) events hs) :
      Issuing a (e :: events) (h :: hs)
  /-- The first event issues no handle. -/
  | pass {a : Arena α} {e : Event α} {events : List (Event α)} {hs : List Handle}
      (hnone : ∀ h, ¬ e.Issues a h) (hrest : Issuing (a.step e) events hs) :
      Issuing a (e :: events) hs

/-- An event that destroys no list issues the first handle of the supply, or none. -/
theorem consumes_step (hs : a.store.Coherent) {e : Event α} (hspare : e.Spares a)
    (hp : a.store.Supplies ps) : e.Consumes a (a.step e).store ps := by
  cases e with
  | supply allocator => exact .nothing (fun _ => id) hp rfl
  | call op => exact Op.consumes_perform hs hspare hp

/-- A run that destroys no list issues handles. -/
theorem exists_issuing (hs : a.store.Coherent) (hspare : a.Sparing events) :
    ∃ ps, a.Issuing events ps := by
  induction events generalizing a with
  | nil => exact ⟨[], .nil a⟩
  | cons e events ih =>
    obtain ⟨hfirst, hspare⟩ := hspare
    obtain ⟨ps, hrest⟩ := ih (coherent_step e hs) hspare
    obtain ⟨supply, hp⟩ := hs.slotted.exists_supplies
    cases consumes_step hs hfirst hp with
    | nothing hnone => exact ⟨ps, .pass hnone hrest⟩
    | first hi => exact ⟨_, .issue ((hi _).mpr rfl) hrest⟩

/-- A run that destroys no list issues the first handles of the supply, one for each node that it
creates. -/
theorem Issuing.isPrefix (hi : a.Issuing events hs) (hcoherent : a.store.Coherent)
    (hspare : a.Sparing events) (hp : a.store.Supplies ps) :
    (a.run events).store.stats.created = a.store.stats.created + hs.length ∧ hs <+: ps := by
  induction hi generalizing ps with
  | nil a => exact ⟨rfl, List.nil_prefix⟩
  | @issue a e events h hs hi _ ih =>
    obtain ⟨hfirst, hspare⟩ := hspare
    cases consumes_step hcoherent hfirst hp with
    | nothing hnone => exact absurd hi (hnone h)
    | first hk hq hcreated =>
      obtain rfl := (hk h).mp hi
      obtain ⟨hcount, hprefix⟩ := ih (coherent_step e hcoherent) hspare hq
      refine ⟨?_, List.cons_prefix_cons.mpr ⟨rfl, hprefix⟩⟩
      change ((a.step e).run events).store.stats.created = _
      rw [hcount, hcreated, List.length_cons]
      omega
  | @pass a e events hs hnone _ ih =>
    obtain ⟨hfirst, hspare⟩ := hspare
    cases consumes_step hcoherent hfirst hp with
    | nothing _ hq hcreated =>
      obtain ⟨hcount, hprefix⟩ := ih (coherent_step e hcoherent) hspare hq
      exact ⟨hcount.trans (congrArg (· + hs.length) hcreated), hprefix⟩
    | first hk => exact absurd ((hk _).mpr rfl) (hnone _)

end Arena

variable {a : Arena α} {h : Handle} {ks : List Handle} {is : List UInt32}

/-- In a reachable arena let `ks` be the list of a head and `is` the free list. From the head the
list is destroyed, and in every run from there on in which no list with nodes is destroyed, the
nodes that are created get their handles in a known order: first those for the slots of the list,
the last one first, each with the next generation; then those for the slots that were on the free
list before, from its top on, with the generations that stand in the slots; then those for further
slots, counted up from the number of slots. -/
theorem released_slots_are_taken_last_first (ha : a.Reachable) (hh : a.store.IsHead h)
    (hc : a.store.Chain (some h) ks) (hf : a.store.FreeList a.store.free is) :
    ∃ b, ArenaM.destroy (some h) a = .ok ks.length b ∧
      (∀ i ∈ is, ∃ place,
        a.store.slots[i.toNat]? = some (.vacant place (a.store.hole i).generation)) ∧
      ∀ events, b.Sparing events →
        (∃ ps, b.Issuing events ps) ∧
        ∀ ps, b.Issuing events ps →
          (b.run events).store.stats.created = b.store.stats.created + ps.length ∧
          ps <+: ks.reverse.map Handle.renewed ++ is.map a.store.hole ++ a.store.unused := by
  have hs := ha.coherent
  refine ⟨_, ArenaM.destroy_of_isHead hs hh hc, fun i => hf.slot_hole, fun events hspare => ?_⟩
  have hcoherent := hs.vacateAll (hs.linked.not_owned_of_isHead hh) hc
  have hsupply := Store.Supplies.vacateAll hf hc.nodup fun k => hc.isLive
  exact ⟨Arena.exists_issuing hcoherent hspare,
    fun ps hi => hi.isPrefix hcoherent hspare hsupply⟩

/-- Nodes are created on their own and behind others, and the rest is refused or does nothing. -/
def fillings : List (Event Nat) :=
  [.call (.create 60), .call (.append (some ⟨1, 2⟩) 70), .call (.destroy (some ⟨3, 1⟩)),
    .call (.destroy none), .call (.append none 80), .call (.append (some ⟨2, 0⟩) 85),
    .call (.create 90), .call (.link ⟨3, 1⟩ ⟨2, 1⟩), .call (.create 100)]

/-- The three slots of the list of `reusedSlot` are taken again from its last node on, then the one
that was vacant before, and then a new one. -/
theorem reusedSlot_refilled :
    reusedSlot.Reachable ∧ reusedSlot.store.IsHead ⟨2, 0⟩ ∧
    reusedSlot.store.Chain (some ⟨2, 0⟩) [⟨2, 0⟩, ⟨3, 0⟩, ⟨1, 1⟩] ∧
    reusedSlot.store.FreeList reusedSlot.store.free [0] ∧
    ∃ b, ArenaM.destroy (some ⟨2, 0⟩) reusedSlot = .ok 3 b ∧ b.Sparing fillings ∧
      b.Issuing fillings [⟨1, 2⟩, ⟨3, 1⟩, ⟨2, 1⟩, ⟨0, 1⟩, ⟨4, 0⟩] := by
  have ha : reusedSlot.Reachable := ⟨.global, _, rfl⟩
  have hh : reusedSlot.store.IsHead ⟨2, 0⟩ := ha.coherent.linked.isHead_iff.mpr ⟨_, rfl, rfl⟩
  have hc : reusedSlot.store.Chain (some ⟨2, 0⟩) [⟨2, 0⟩, ⟨3, 0⟩, ⟨1, 1⟩] :=
    .cons rfl (.cons rfl (.cons rfl .nil))
  have hf : reusedSlot.store.FreeList reusedSlot.store.free [0] := .cons 1 rfl .nil
  obtain ⟨b, hb, _, hrun⟩ := released_slots_are_taken_last_first ha hh hc hf
  obtain rfl : (ArenaM.destroy (some ⟨2, 0⟩)).after reusedSlot = b := by rw [ArenaM.after, hb]
  have hspare : ((ArenaM.destroy (some ⟨2, 0⟩)).after reusedSlot).Sparing fillings := by
    refine ⟨trivial, trivial, ?_, trivial, trivial, trivial, trivial, trivial, trivial, trivial⟩
    intro n b hok
    cases hok
  obtain ⟨⟨ps, hi⟩, hps⟩ := hrun fillings hspare
  obtain ⟨hcount, hprefix⟩ := hps ps hi
  have hlength : ps.length = 5 := Nat.add_left_cancel (n := 5) hcount.symm
  rw [List.prefix_iff_eq_take, hlength] at hprefix
  obtain rfl : ps = [⟨1, 2⟩, ⟨3, 1⟩, ⟨2, 1⟩, ⟨0, 1⟩, ⟨4, 0⟩] := hprefix
  exact ⟨ha, hh, hc, hf, _, hb, hspare, hi⟩

end CheckedLists
