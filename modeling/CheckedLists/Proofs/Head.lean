import CheckedLists.Proofs.Census
import CheckedLists.Proofs.Release
import Mathlib.Algebra.GroupWithZero.Nat

/-!
# Heads

A head is a live node that is no successor. Going back from a node to its
predecessors meets more and more nodes, of which there are only finitely many, and
so ends at a head: every live node is on the list of one head. Destroying this list
leaves the other heads and their lists. A store is therefore emptied by destroying
the lists of its heads, in whatever order.
-/

namespace CheckedLists

variable {α : Type}

namespace Store

variable {s : Store α} {place : Option Handle} {a b h p q : Handle} {hs ks : List Handle}
  {n : Node α}

/-- A live node that is no successor. -/
def IsHead (s : Store α) (h : Handle) : Prop := s.isLive h = true ∧ ∀ p, ¬ s.Leads p h

/-- The live nodes that are not owned, in the order of their slots. -/
def heads (s : Store α) : List Handle :=
  s.handles.filter fun h => (s.lookup h).toOption.any fun n => !n.owned

/-- These are all heads of a store, and each is given once. -/
def ListsHeads (s : Store α) (hs : List Handle) : Prop := hs.Nodup ∧ ∀ h, h ∈ hs ↔ s.IsHead h

/-- The heads may be given in any order. -/
theorem ListsHeads.perm (hlist : s.ListsHeads hs) (hp : ks.Perm hs) : s.ListsHeads ks :=
  ⟨hp.nodup_iff.mpr hlist.1, fun h => hp.mem_iff.trans (hlist.2 h)⟩

/-- The heads are the live nodes that are not owned. -/
theorem Linked.isHead_iff (hl : s.Linked none) :
    s.IsHead h ↔ ∃ n, s.lookup h = .ok n ∧ n.owned = false := by
  unfold IsHead
  constructor
  · rintro ⟨hlive, hnone⟩
    obtain ⟨n, hn⟩ := isLive_iff.mp hlive
    exact ⟨n, hn, (hl.owned_eq_false_iff hn).mpr hnone⟩
  · rintro ⟨n, hn, hhead⟩
    exact ⟨isLive_iff.mpr ⟨n, hn⟩, (hl.owned_eq_false_iff hn).mp hhead⟩

theorem Linked.not_owned_of_isHead (hl : s.Linked none) (hh : s.IsHead h) : ¬ s.Owned h := by
  obtain ⟨n, hn, hhead⟩ := hl.isHead_iff.mp hh
  exact not_owned hn hhead

/-- Joining two lists takes the head of the second one, and no other one. -/
theorem isHead_join (ha : s.next a = .ok none) (hne : a ≠ b) :
    (s.join a b).IsHead p ↔ p ≠ b ∧ s.IsHead p := by
  simp only [IsHead, isLive_join, leads_join ha hne]
  constructor
  · rintro ⟨hlive, hnone⟩
    refine ⟨?_, hlive, fun q hq => hnone q (.inr hq)⟩
    rintro rfl
    exact hnone a (.inl ⟨rfl, rfl⟩)
  · rintro ⟨hpb, hlive, hnone⟩
    refine ⟨hlive, fun q hq => ?_⟩
    rcases hq with ⟨_, hq⟩ | hq
    · exact hpb hq
    · exact hnone q hq

/-- The list of a head has no other head on it. -/
theorem IsHead.notMem_of_ne (hq : s.IsHead q) (hc : s.Chain (some h) ks) (hne : q ≠ h) :
    q ∉ ks := by
  intro hmem
  obtain rfl | ⟨p, _, hp⟩ := hc.exists_leads hmem
  · exact hne rfl
  · exact hq.2 p hp

/-- Releasing the list of a head leaves the other heads. -/
theorem Chain.isHead_vacateAll (hc : s.Chain (some h) ks) :
    (s.vacateAll ks).IsHead q ↔ q ≠ h ∧ s.IsHead q := by
  have hlive {p : Handle} := isLive_vacateAll (p := p) hc.nodup fun _ => hc.isLive
  have hleads {p q : Handle} : (s.vacateAll ks).Leads p q ↔ p ∉ ks ∧ s.Leads p q :=
    next_vacateAll_eq_ok_iff hc.nodup fun _ => hc.isLive
  unfold IsHead
  simp only [hlive, hleads]
  constructor
  · rintro ⟨⟨hoff, hq⟩, hnone⟩
    refine ⟨?_, hq, fun p hp => hnone p ⟨fun hmem => ?_, hp⟩⟩
    · rintro rfl
      exact hoff hc.head_mem
    · exact hoff (hc.mem_of_leads hmem hp)
  · rintro ⟨hne, hq⟩
    exact ⟨⟨IsHead.notMem_of_ne hq hc hne, hq.1⟩, fun p hp => hq.2 p hp.2⟩

/-- Releasing the list of the first head leaves the heads behind it. -/
theorem ListsHeads.behind (hlist : s.ListsHeads (h :: hs)) (hc : s.Chain (some h) ks) :
    (s.vacateAll ks).ListsHeads hs := by
  obtain ⟨hnodup, hmem⟩ := hlist
  obtain ⟨hoff, hnodup⟩ := List.nodup_cons.mp hnodup
  refine ⟨hnodup, fun q => ?_⟩
  rw [hc.isHead_vacateAll, ← hmem q, List.mem_cons]
  constructor
  · intro hq
    refine ⟨?_, .inr hq⟩
    rintro rfl
    exact hoff hq
  · rintro ⟨hne, hq⟩
    exact hq.resolve_left hne

namespace Coherent

/-- A node is on the list of a head. -/
theorem exists_head {p : Handle} {ks : List Handle} (hs : s.Coherent)
    (hc : s.Chain (some p) ks) : ∃ h hs, s.IsHead h ∧ s.Chain (some h) hs ∧ p ∈ hs := by
  by_cases hhead : ∀ q, ¬ s.Leads q p
  · exact ⟨p, ks, ⟨hc.isLive hc.head_mem, hhead⟩, hc, hc.head_mem⟩
  · obtain ⟨q, hq⟩ := not_forall_not.mp hhead
    -- The list of the predecessor is longer, and no list has more nodes than are live.
    have hlonger : s.Chain (some q) (q :: ks) := .cons hq hc
    have hbounded := hs.length_le_live hlonger
    obtain ⟨h, hs, hh, hc, hmem⟩ := exists_head hs hlonger
    exact ⟨h, hs, hh, hc, hc.mem_of_leads hmem hq⟩
termination_by s.live - ks.length
decreasing_by
  rw [List.length_cons] at hbounded ⊢
  omega

/-- A live node is on the list of one head. -/
theorem existsUnique_head (hs : s.Coherent) (hp : s.isLive p = true) :
    ∃! h, s.IsHead h ∧ ∃ ks, s.Chain (some h) ks ∧ p ∈ ks := by
  obtain ⟨ps, hps⟩ := hs.linked.exists_chain hp
  obtain ⟨h, ks, hh, hks, hmem⟩ := hs.exists_head hps
  refine ⟨h, ⟨hh, ks, hks, hmem⟩, ?_⟩
  rintro q ⟨hq, qs, hqs, hmem'⟩
  by_contra hne
  have hdisjoint := hs.linked.disjoint hne (hs.linked.not_owned_of_isHead hq)
    (hs.linked.not_owned_of_isHead hh) hqs hks
  exact hdisjoint p hmem' hmem

/-- The heads of a store can be listed. -/
theorem listsHeads_heads (hs : s.Coherent) : s.ListsHeads s.heads := by
  refine ⟨hs.slotted.nodup_handles.filter _, fun h => ?_⟩
  rw [heads, List.mem_filter, hs.slotted.mem_handles, hs.linked.isHead_iff, isLive_iff]
  cases hn : s.lookup h <;> simp [Except.toOption]

/-- Where there is no head, nothing is live. -/
theorem live_eq_zero (hs : s.Coherent) (hnone : s.ListsHeads []) : s.live = 0 := by
  rw [← hs.slotted.length_handles, List.length_eq_zero_iff, List.eq_nil_iff_forall_not_mem]
  intro p hp
  obtain ⟨h, ⟨hh, _⟩, _⟩ := hs.existsUnique_head (hs.slotted.mem_handles.mp hp)
  exact List.not_mem_nil ((hnone.2 h).mpr hh)

/-- Releasing the list of a head leaves the lengths of the lists of the other ones. -/
theorem length_vacateAll (hs : s.Coherent) (hh : s.IsHead h) (hc : s.Chain (some h) ks)
    (hq : s.IsHead q) (hne : q ≠ h) :
    (s.vacateAll ks).length (some q) = s.length (some q) := by
  obtain ⟨ps, hps⟩ := hs.linked.exists_chain hq.1
  have hhead := hs.linked.not_owned_of_isHead hh
  have hkept := hs.linked.chain_vacateAll hhead hc hps (hq.notMem_of_ne hc hne)
  rw [hs.length_eq hps, (hs.vacateAll hhead hc).length_eq hkept]

end Coherent

/-- Where no node is live, all slots are vacant. -/
theorem Slotted.vacant_iff (hs : s.Slotted) (hlive : s.live = 0) (i : Nat) :
    s.Vacant i ↔ i < s.slots.size := by
  rw [hs.live_eq, Array.countP_eq_zero] at hlive
  constructor
  · rintro ⟨place, g, hi⟩
    exact (Array.getElem?_eq_some_iff.mp hi).choose
  · intro hi
    have hslot := Array.getElem?_eq_getElem hi
    cases hcontent : s.slots[i] with
    | vacant place g => exact ⟨place, g, by rw [hslot, hcontent]⟩
    | occupied n =>
      rw [hcontent] at hslot
      exact absurd rfl (hlive _ (Array.mem_of_getElem? hslot))

end Store

/-- Destroying the lists of all heads is carried out to its end, and answers with the lengths that
these lists had at first. They add up to the number of live nodes, and nothing is live behind it. -/
theorem ArenaM.destroy_heads {a : Arena α} {heads : List Handle} (hs : a.store.Coherent)
    (hlist : a.store.ListsHeads heads) :
    ∃ lens b, heads.mapM (fun h => destroy (some h)) a = .ok lens b ∧
      (heads.map fun h => a.store.length (some h)) = lens.map Except.ok ∧
      lens.sum = a.store.live ∧ b.store.Coherent ∧ b.store.live = 0 ∧
      b.store.stats.created = a.store.stats.created ∧
      b.store.slots.size = a.store.slots.size := by
  induction heads generalizing a with
  | nil =>
    have hlive := hs.live_eq_zero hlist
    exact ⟨[], a, rfl, rfl, hlive.symm, hs, hlive, rfl, rfl⟩
  | cons h heads ih =>
    have hh : a.store.IsHead h := (hlist.2 h).mp List.mem_cons_self
    obtain ⟨n, hn, hhead⟩ := hs.linked.isHead_iff.mp hh
    obtain ⟨ks, _, hc, _⟩ := hs.exists_chain hn
    have hfirst := destroy_of_head hs hn hhead hc
    have hcoherent := hs.vacateAll (hs.linked.not_owned_of_isHead hh) hc
    obtain ⟨hlive, hstats, _, hsize⟩ := a.store.counters_vacateAll ks
    obtain ⟨lens, b, hrest, hlens, hsum, hb, hzero, hcreated, hslots⟩ := ih
      (a := a.updated (a.store.vacateAll ks) (ks.map .released ++ [.destroyed ks.length h]))
      hcoherent (hlist.behind hc)
    refine ⟨ks.length :: lens, b, ?_, ?_, ?_, hb, hzero, ?_, hslots.trans hsize⟩
    · rw [List.mapM_cons, bind_of_ok hfirst, bind_of_ok hrest]
      rfl
    · rw [List.map_cons, List.map_cons, hs.length_eq hc, ← hlens]
      congr 1
      refine List.map_congr_left fun q hq => ?_
      have hne : q ≠ h := by
        rintro rfl
        exact (List.nodup_cons.mp hlist.1).1 hq
      have hhead' : a.store.IsHead q := (hlist.2 q).mp (List.mem_cons_of_mem h hq)
      exact (hs.length_vacateAll hh hc hhead' hne).symm
    · have hle := hs.length_le_live hc
      rw [List.sum_cons, hsum, Arena.updated_store, hlive]
      omega
    · rw [hcreated, Arena.updated_store, hstats]

/-- In every arena that a run leads to, each live node is on the list of exactly one head, and the
lengths of the lists of all heads add up to the number of live nodes. Destroying the lists of the
heads, each once and in any order, is carried out to its end and answers with the lengths that they
had before the first destruction. Then nothing is live, every slot is vacant and on the free list,
and as many nodes have been released as were created. -/
theorem live_nodes_are_reclaimed_from_heads {a : Arena α} (ha : a.Reachable) :
    (∀ p, a.store.isLive p = true →
      ∃! h, a.store.IsHead h ∧ ∃ ks, a.store.Chain (some h) ks ∧ p ∈ ks) ∧
    a.store.ListsHeads a.store.heads ∧
    ∀ heads, a.store.ListsHeads heads →
      ∃ lens b, (heads.map fun h => a.store.length (some h)) = lens.map Except.ok ∧
        lens.sum = a.store.live ∧
        heads.mapM (fun h => ArenaM.destroy (some h)) a = .ok lens b ∧
        b.store.live = 0 ∧
        b.store.slots.size = a.store.slots.size ∧
        (∃ is, b.store.FreeList b.store.free is ∧ is.Nodup ∧
          ∀ i, i < b.store.slots.size → b.store.Vacant i ∧ ∃ j ∈ is, j.toNat = i) ∧
        b.store.stats.created = a.store.stats.created ∧
        b.store.stats.released = b.store.stats.created := by
  have hs := ha.coherent
  refine ⟨fun p hp => hs.existsUnique_head hp, hs.listsHeads_heads, fun heads hlist => ?_⟩
  obtain ⟨lens, b, hdestroy, hlens, hsum, hb, hzero, hcreated, hsize⟩ :=
    ArenaM.destroy_heads hs hlist
  have hcount := hb.slotted.created_eq
  obtain ⟨is, hfree, hnodup, hmem⟩ := hb.slotted.exists_freeList
  refine ⟨lens, b, hlens, hsum, hdestroy, hzero, hsize, ⟨is, hfree, hnodup, fun i hi => ?_⟩,
    hcreated, by omega⟩
  have hvacant : b.store.Vacant i := (hb.slotted.vacant_iff hzero i).mpr hi
  exact ⟨hvacant, (hmem i).mp hvacant⟩

/-- Two lists of two nodes each. -/
def twoLists : Arena Nat := (Arena.empty .global).run (slotReuse.take 5)

/-- The two lists are destroyed from their heads, here the second one first. -/
theorem twoLists_reclaimed :
    twoLists.Reachable ∧
    twoLists.store.ListsHeads [⟨2, 0⟩, ⟨0, 0⟩] ∧
    (∃! h, twoLists.store.IsHead h ∧ ∃ ks, twoLists.store.Chain (some h) ks ∧ ⟨3, 0⟩ ∈ ks) ∧
    ∃ b, ([⟨2, 0⟩, ⟨0, 0⟩] : List Handle).mapM (fun h => ArenaM.destroy (some h)) twoLists =
        .ok [2, 2] b ∧
      b.store.live = 0 ∧ b.store.stats.released = 4 := by
  have ha : twoLists.Reachable := ⟨.global, _, rfl⟩
  obtain ⟨hone, hheads, hreclaim⟩ := live_nodes_are_reclaimed_from_heads ha
  have hlist : twoLists.store.ListsHeads [⟨2, 0⟩, ⟨0, 0⟩] :=
    hheads.perm (List.Perm.swap (⟨0, 0⟩ : Handle) ⟨2, 0⟩ [])
  obtain ⟨lens, b, hlens, _, hdestroy, hzero, _, _, hcreated, hreleased⟩ := hreclaim _ hlist
  have hfirst : twoLists.store.length (some ⟨2, 0⟩) = .ok 2 :=
    ha.coherent.length_eq (.cons rfl (.cons rfl .nil))
  have hsecond : twoLists.store.length (some ⟨0, 0⟩) = .ok 2 :=
    ha.coherent.length_eq (.cons rfl (.cons rfl .nil))
  rw [List.map_cons, hfirst, List.map_cons, hsecond] at hlens
  obtain rfl : [2, 2] = lens := List.map_injective_iff.mpr (fun _ _ => Except.ok.inj) hlens
  exact ⟨ha, hlist, hone _ rfl, b, hdestroy, hzero, hreleased.trans hcreated⟩

end CheckedLists
