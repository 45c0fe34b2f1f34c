import CheckedLists.Proofs.Coherent

/-!
# Releasing lists

Live nodes that are told apart can be released one after the other. All other
nodes are left as they were, with their values and successors, and the counters
move by the number of the nodes that are released. If these nodes are the list of a
head, every other list is left whole: it has no node in common with them.
-/

namespace CheckedLists.Store

variable {α : Type} {s : Store α} {h p : Handle} {hs ks : List Handle} {m : Node α}

section VacateAll

variable (hnodup : ks.Nodup) (hlive : ∀ h ∈ ks, s.isLive h = true)

include hnodup hlive

/-- Releasing nodes takes them away, and no other ones. -/
theorem lookup_vacateAll_eq_ok_iff :
    (s.vacateAll ks).lookup p = .ok m ↔ p ∉ ks ∧ s.lookup p = .ok m := by
  induction ks generalizing s with
  | nil => simp [vacateAll]
  | cons h ks ih =>
    obtain ⟨n, hn, hks, hrest⟩ := live_behind hnodup hlive
    have hall : s.vacateAll (h :: ks) = (s.vacate h).vacateAll ks := rfl
    rw [hall, ih hks hrest, lookup_vacate_eq_ok_iff hn, List.mem_cons, not_or]
    exact and_left_comm.trans and_assoc.symm

/-- Releasing nodes leaves the other live nodes. -/
theorem lookup_vacateAll_of_notMem (hp : p ∉ ks) (hlivep : s.isLive p = true) :
    (s.vacateAll ks).lookup p = s.lookup p :=
  lookup_eq_of_isLive hlivep fun _ hm => (lookup_vacateAll_eq_ok_iff hnodup hlive).mpr ⟨hp, hm⟩

theorem isLive_vacateAll :
    (s.vacateAll ks).isLive p = true ↔ p ∉ ks ∧ s.isLive p = true := by
  simp only [isLive_iff, lookup_vacateAll_eq_ok_iff hnodup hlive, exists_and_left]

theorem next_vacateAll_eq_ok_iff {place : Option Handle} :
    (s.vacateAll ks).next p = .ok place ↔ p ∉ ks ∧ s.next p = .ok place := by
  simp only [next_eq_ok_iff, lookup_vacateAll_eq_ok_iff hnodup hlive, and_assoc,
    exists_and_left]

theorem get_vacateAll_eq_ok_iff {v : α} :
    (s.vacateAll ks).get p = .ok v ↔ p ∉ ks ∧ s.get p = .ok v := by
  simp only [get_eq_ok_iff, lookup_vacateAll_eq_ok_iff hnodup hlive, and_assoc,
    exists_and_left]

end VacateAll

/-- The slots of other nodes are left as they are. -/
theorem getElem?_vacateAll_of_ne {i : Nat} (hoff : ∀ k ∈ ks, k.slot ≠ i) :
    (s.vacateAll ks).slots[i]? = s.slots[i]? := by
  induction ks generalizing s with
  | nil => rfl
  | cons h ks ih =>
    obtain ⟨hne, hrest⟩ := List.forall_mem_cons.mp hoff
    have hput : (s.vacate h).slots[i]? = s.slots[i]? := by
      change (s.put h.slot _).slots[i]? = _
      rw [getElem?_put, if_neg hne]
    exact (ih hrest).trans hput

/-- The slot of each node that is released is vacated once: its next node will have the generation
behind that of the node. -/
theorem getElem?_vacateAll_of_mem (hnodup : ks.Nodup) (hlive : ∀ h ∈ ks, s.isLive h = true)
    (hp : p ∈ ks) :
    ∃ place, (s.vacateAll ks).slots[p.slot]? = some (.vacant place (p.generation + 1)) := by
  induction ks generalizing s with
  | nil => cases hp
  | cons h ks ih =>
    obtain ⟨n, hn, hks, hrest⟩ := live_behind hnodup hlive
    rcases List.mem_cons.mp hp with rfl | hp
    · -- The nodes behind are live in other slots.
      have hoff : ∀ k ∈ ks, k.slot ≠ p.slot := by
        intro k hk hslot
        obtain ⟨m, hm⟩ := isLive_iff.mp (hlive k (List.mem_cons_of_mem _ hk))
        obtain rfl := eq_of_slot_eq hm hn hslot
        exact (List.nodup_cons.mp hnodup).1 hk
      have hslot : (s.vacate p).slots[p.slot]? = _ := (getElem?_vacate hn p.slot).trans (if_pos rfl)
      exact ⟨s.free, (getElem?_vacateAll_of_ne hoff).trans hslot⟩
    · exact ih hks hrest hp

/-- The nodes that are released last come first on the free list. -/
theorem FreeList.vacateAll {is : List UInt32} (hnodup : ks.Nodup)
    (hlive : ∀ h ∈ ks, s.isLive h = true) (hfree : s.FreeList s.free is) :
    (s.vacateAll ks).FreeList (s.vacateAll ks).free ((ks.map Handle.index).reverse ++ is) := by
  induction ks generalizing s is with
  | nil => exact hfree
  | cons h ks ih =>
    obtain ⟨n, hn, hks, hrest⟩ := live_behind hnodup hlive
    have hall : s.vacateAll (h :: ks) = (s.vacate h).vacateAll ks := rfl
    have hbehind := ih hks hrest (hfree.vacate hn)
    simpa [hall] using hbehind

/-- The counters move by the number of the nodes that are released. -/
theorem counters_vacateAll (s : Store α) (ks : List Handle) :
    (s.vacateAll ks).live = s.live - ks.length ∧
      (s.vacateAll ks).stats = ⟨s.stats.created, s.stats.released + ks.length⟩ ∧
      (s.vacateAll ks).limit = s.limit ∧ (s.vacateAll ks).slots.size = s.slots.size := by
  induction ks generalizing s with
  | nil => exact ⟨rfl, rfl, rfl, rfl⟩
  | cons h ks ih =>
    obtain ⟨hlive, hstats, hlimit, hsize⟩ := ih (s.vacate h)
    have hall : s.vacateAll (h :: ks) = (s.vacate h).vacateAll ks := rfl
    rw [hall, hlive, hstats, hlimit, hsize, List.length_cons]
    refine ⟨?_, ?_, rfl, size_put s _ _⟩
    · change s.live - 1 - ks.length = _
      omega
    · change Stats.mk s.stats.created (s.stats.released + 1 + ks.length) = _
      congr 1
      omega

/-- Releasing the list of a head leaves the list of every node that is not on it. -/
theorem Linked.chain_vacateAll (hl : s.Linked none) (hhead : ¬ s.Owned h)
    (hc : s.Chain (some h) ks) (hp : s.Chain (some p) hs) (hoff : p ∉ ks) :
    (s.vacateAll ks).Chain (some p) hs := by
  have hdisjoint : ∀ q ∈ hs, q ∉ ks :=
    Chain.disjoint hl.single hp hc (fun r => hl.not_leads hhead) hoff
  refine hp.congr fun q hq => next_eq_of_lookup_eq ?_
  exact lookup_vacateAll_of_notMem hc.nodup (fun _ => hc.isLive) (hdisjoint q hq) (hp.isLive hq)

end CheckedLists.Store
