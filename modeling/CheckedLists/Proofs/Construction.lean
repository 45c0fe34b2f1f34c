import CheckedLists.Proofs.Append
import CheckedLists.Proofs.Cell
import CheckedLists.Proofs.Destruction
import CheckedLists.Proofs.Traversal

/-!
# A list under construction

A list is built from new nodes in a store that holds others: the first node is created on
its own, and each further one behind the last one. Meanwhile the nodes of the list may be
written, and finally they may be released. All this leaves the nodes that were there
before: they are live, with their values, successors and predecessors.
-/

namespace CheckedLists.Store

variable {α : Type} {s t u : Store α} {a b last p : Handle} {ks new : List Handle}
  {vs : List α} {v : α} {created i released : Nat}

/-- The nodes that are live in `s` are so in `t`, with their values and successors, and they are
heads in `t` if they are heads in `s`, and not otherwise. -/
def Keeps (s t : Store α) : Prop :=
  ∀ p, s.isLive p = true →
    t.isLive p = true ∧ t.get p = s.get p ∧ t.next p = s.next p ∧ (t.IsHead p ↔ s.IsHead p)

/-- In `t` the nodes `new` are live beside those of `s`, which are as they were. So many nodes have
been created meanwhile, and so many released. -/
structure Extends (s : Store α) (new : List Handle) (created released : Nat) (t : Store α) :
    Prop where
  /-- The new nodes were not live before. -/
  fresh : ∀ p ∈ new, s.isLive p = false
  /-- The new nodes are live, and the others are if they were. -/
  isLive_iff : ∀ p, t.isLive p = true ↔ p ∈ new ∨ s.isLive p = true
  /-- The other nodes are as they were. -/
  lookup_eq : ∀ p, s.isLive p = true → t.lookup p = s.lookup p
  /-- The new nodes are counted as live. -/
  live_eq : t.live = s.live + new.length
  /-- Creations and releases are counted. -/
  stats_eq : t.stats = ⟨s.stats.created + created, s.stats.released + released⟩
  /-- The bound is as before. -/
  limit_eq : t.limit = s.limit

/-- In `t` the new nodes `ks` form a list with the values `vs`, and the nodes of `s` are as they
were. None has been released. -/
structure Builds (s : Store α) (ks : List Handle) (vs : List α) (t : Store α) : Prop
    extends s.Extends ks ks.length 0 t where
  /-- The store is coherent. -/
  coherent : t.Coherent
  /-- The new nodes are linked in this order. -/
  chain : t.Chain ks.head? ks
  /-- The first one of them is a head. -/
  isHead : ∀ h ∈ ks.head?, t.IsHead h
  /-- These are their values. -/
  values_eq : t.valuesOf ks = vs

namespace Extends

/-- At first there is no new node. -/
theorem refl (s : Store α) : s.Extends [] 0 0 s where
  fresh := nofun
  isLive_iff p := by simp
  lookup_eq _ _ := rfl
  live_eq := rfl
  stats_eq := rfl
  limit_eq := rfl

/-- A node that was there before is none of the new ones. -/
theorem notMem (he : s.Extends new created released t) (hp : s.isLive p = true) : p ∉ new := by
  intro hmem
  cases (he.fresh p hmem).symm.trans hp

/-- A creation adds a new node. -/
theorem create (he : s.Extends new created released t) (hc : t.Created v p u) :
    s.Extends (new ++ [p]) (created + 1) released u := by
  obtain ⟨hlive, hstats, hlimit⟩ := hc.counters
  have hfresh := hc.adds.fresh
  refine ⟨fun q hq => ?_, fun q => ?_, fun q hq => ?_, ?_, ?_, hlimit.trans he.limit_eq⟩
  · rcases List.mem_append.mp hq with hq | hq
    · exact he.fresh q hq
    · rw [List.mem_singleton.mp hq, ← Bool.not_eq_true]
      intro hlive
      cases hfresh.symm.trans ((he.isLive_iff p).mpr (.inr hlive))
  · rw [hc.isLive_iff, he.isLive_iff, List.mem_append, List.mem_singleton, or_assoc, or_left_comm]
  · rw [hc.lookup_of_isLive ((he.isLive_iff q).mpr (.inr hq)), he.lookup_eq q hq]
  · rw [hlive, he.live_eq, List.length_append, List.length_singleton, Nat.add_assoc]
  · rw [hstats, he.stats_eq]
    rfl

/-- A link between two new nodes leaves the others. -/
theorem join (he : s.Extends new created released t) (ha : a ∈ new) (hb : b ∈ new)
    (hne : a ≠ b) : s.Extends new created released (t.join a b) := by
  obtain ⟨hlive, hstats, hlimit, _⟩ := t.counters_join a b
  refine ⟨he.fresh, fun q => ?_, fun q hq => ?_, hlive.trans he.live_eq,
    hstats.trans he.stats_eq, hlimit.trans he.limit_eq⟩
  · rw [isLive_join]
    exact he.isLive_iff q
  · have hqa : q ≠ a := by
      rintro rfl
      exact he.notMem hq ha
    have hqb : q ≠ b := by
      rintro rfl
      exact he.notMem hq hb
    rw [lookup_join hne, if_neg hqb, if_neg hqa, he.lookup_eq q hq]

/-- A write into a new node leaves the others. -/
theorem revise (he : s.Extends new created released t) (hp : p ∈ new) (f : α → α) :
    s.Extends new created released (t.revise p f) := by
  obtain ⟨hlive, hstats, hlimit, _⟩ := t.counters_alter p fun n => { n with value := f n.value }
  refine ⟨he.fresh, fun q => ?_, fun q hq => ?_, hlive.trans he.live_eq,
    hstats.trans he.stats_eq, hlimit.trans he.limit_eq⟩
  · rw [isLive_revise]
    exact he.isLive_iff q
  · have hne : q ≠ p := by
      rintro rfl
      exact he.notMem hq hp
    rw [Store.revise, lookup_alter (by intro; rfl), if_neg hne, he.lookup_eq q hq]

/-- The release of all new nodes leaves the others. -/
theorem vacateAll (he : s.Extends new created released t) (hnodup : new.Nodup) :
    s.Extends [] created (released + new.length) (t.vacateAll new) := by
  have hlive : ∀ p ∈ new, t.isLive p = true := fun p hp => (he.isLive_iff p).mpr (.inl hp)
  obtain ⟨hcount, hstats, hlimit, _⟩ := t.counters_vacateAll new
  refine ⟨nofun, fun p => ?_, fun p hp => ?_, ?_, ?_, hlimit.trans he.limit_eq⟩
  · rw [isLive_vacateAll hnodup hlive, he.isLive_iff]
    constructor
    · rintro ⟨hoff, hp⟩
      exact .inr (hp.resolve_left hoff)
    · rintro (hp | hp)
      · cases hp
      · exact ⟨he.notMem hp, .inr hp⟩
  · have hp' : t.isLive p = true := (he.isLive_iff p).mpr (.inr hp)
    rw [lookup_vacateAll_of_notMem hnodup hlive (he.notMem hp) hp', he.lookup_eq p hp]
  · rw [hcount, he.live_eq, List.length_nil]
    omega
  · rw [hstats, he.stats_eq, Nat.add_assoc]

/-- The nodes that were there are kept. -/
theorem keeps (he : s.Extends new created released t) (hs : s.Coherent) (ht : t.Coherent) :
    s.Keeps t := by
  intro p hp
  have hlookup := he.lookup_eq p hp
  refine ⟨(he.isLive_iff p).mpr (.inr hp), get_eq_of_lookup_eq hlookup,
    next_eq_of_lookup_eq hlookup, ?_⟩
  rw [ht.linked.isHead_iff, hs.linked.isHead_iff, hlookup]

/-- Where no new node is left, no node counts as created since. -/
theorem liveSince_eq_zero (he : s.Extends [] created released t) (hs : s.Counted)
    (ht : t.Slotted) : t.liveSince s.stats.created = 0 := by
  rw [liveSince_eq, List.countP_eq_zero]
  -- A node that is live was so before, and its serial was given then.
  rintro ⟨p, k⟩ hmem hk
  obtain ⟨n, hn, rfl⟩ := ht.mem_census.mp hmem
  have hp : s.isLive p = true := by
    simpa using (he.isLive_iff p).mp (Store.isLive_iff.mpr ⟨n, hn⟩)
  have hold : s.lookup p = .ok n := (he.lookup_eq p hp).symm.trans hn
  have hlt := hs p n.serial ⟨n, hold, rfl⟩
  simp only [decide_eq_true_eq] at hk
  omega

end Extends

/-- At first the list is empty. -/
theorem Coherent.builds_nil (hs : s.Coherent) : s.Builds [] [] s where
  toExtends := .refl s
  coherent := hs
  chain := .nil
  isHead := nofun
  values_eq := rfl

/-- A creation begins a list. -/
theorem Coherent.builds_created (hs : s.Coherent) (hc : s.Created v p t) :
    s.Builds [p] [v] t := by
  have hst := hs.starts hc
  obtain ⟨n, hn, hv⟩ := get_eq_ok_iff.mp hst.get_new
  refine ⟨(Extends.refl s).create hc, hs.created hc, .cons hst.next_new .nil, ?_, ?_⟩
  · rintro q ⟨⟩
    exact (hst.isHead_iff p).mpr (.inl rfl)
  · rw [valuesOf_cons hn, hv]
    rfl

namespace Builds

/-- The values of the list are those with which it has been built. -/
theorem values_head (hb : s.Builds ks vs t) : t.values ks.head? = .ok vs := by
  rw [hb.coherent.values_eq hb.chain, hb.values_eq]

/-- Each node has its value. -/
theorem map_get (hb : s.Builds ks vs t) : ks.map t.get = vs.map .ok := by
  rw [hb.chain.map_get, hb.values_eq]

/-- The list has as many values as nodes. -/
theorem length_eq (hb : s.Builds ks vs t) : vs.length = ks.length := by
  rw [← hb.values_eq, hb.chain.length_valuesOf]

/-- A node that is created and joined to the end of the list is its last one, with its value. -/
theorem append (hb : s.Builds ks vs t) (hlast : ks.getLast? = some last)
    (hc : t.Created v p u) : s.Builds (ks ++ [p]) (vs ++ [v]) (u.join last p) := by
  have hst := hb.coherent.starts hc
  have hu := hb.coherent.created hc
  have hmem := List.mem_of_getLast? hlast
  have hend := hb.chain.next_of_getLast? hlast
  have hnew {q : Handle} (hq : t.isLive q = true) : q ≠ p := by
    rintro rfl
    cases hst.fresh.symm.trans hq
  have hne : last ≠ p := hnew (hb.chain.isLive hmem)
  have hend' : u.next last = .ok none := (hst.next_eq last (hb.chain.isLive hmem)).trans hend
  have hsingle : u.Chain (some p) [p] := .cons hst.next_new .nil
  have hoff : last ∉ [p] := by simpa using hne
  have hhead : (ks ++ [p]).head? = ks.head? := by
    cases ks with
    | nil => cases hmem
    | cons k ks => rfl
  have hextends := (hb.toExtends.create hc).join (List.mem_append_left [p] hmem)
    (List.mem_append_right ks (List.mem_singleton_self p)) hne
  refine ⟨by rwa [List.length_append], ?_, ?_, fun q hq => ?_, ?_⟩
  · exact hu.join hend' hsingle (hu.linked.not_owned_of_isHead ((hst.isHead_iff p).mpr (.inl rfl)))
      hoff
  · rw [hhead]
    have hjoined := (hst.chain hb.chain).join hend' hsingle hoff
    rwa [if_pos hmem] at hjoined
  · rw [hhead] at hq
    have hq' := hb.isHead q hq
    exact (isHead_join hend' hne).mpr ⟨hnew hq'.1, (hst.isHead_iff q).mpr (.inr hq')⟩
  · obtain ⟨n, hn, hv⟩ := get_eq_ok_iff.mp hst.get_new
    have hvalues : u.valuesOf ks = vs := by
      rw [valuesOf_congr fun q hq => hst.get_eq q (hb.chain.isLive hq), hb.values_eq]
    rw [valuesOf_congr fun q _ => get_join, valuesOf_append, hvalues, valuesOf_cons hn, hv]
    rfl

/-- A value that is written into a node of the list stands in its place. -/
theorem revise (hb : s.Builds ks vs t) (hi : ks[i]? = some p) (w : α) :
    s.Builds ks (vs.set i w) (t.revise p fun _ => w) := by
  have hmem := List.mem_of_getElem? hi
  obtain ⟨v, hv⟩ := isLive_iff_get.mp (hb.chain.isLive hmem)
  refine ⟨hb.toExtends.revise hmem _, hb.coherent.revise p _, hb.chain.revise,
    fun q hq => isHead_revise.mpr (hb.isHead q hq), ?_⟩
  rw [hb.chain.valuesOf_revise hi hv, hb.values_eq]

end Builds

end CheckedLists.Store
