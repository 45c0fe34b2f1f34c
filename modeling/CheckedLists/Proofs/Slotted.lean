import CheckedLists.Proofs.Linked

/-!
# Sound slots

The free list is threaded through the vacant slots: it runs from the top of the
list over every vacant slot once and ends there. The counters of a store agree
with its slots. These facts need no link between nodes, except that a release
has to name a live node.
-/

namespace CheckedLists

variable {α : Type}

/-- Whether a slot holds a node. -/
def Slot.isOccupied : Slot α → Bool
  | .occupied _ => true
  | .vacant _ _ => false

namespace Store

variable {s t : Store α} {place : Option UInt32} {is : List UInt32} {a b h : Handle}
  {hs : List Handle} {n : Node α} {v : α}

/-- `is` are the slots met from a place of the free list on until the list ends. -/
inductive FreeList (s : Store α) : Option UInt32 → List UInt32 → Prop where
  | nil : FreeList s none []
  | cons {i : UInt32} {place : Option UInt32} {is : List UInt32} (g : UInt32) :
      s.slots[i.toNat]? = some (.vacant place g) → FreeList s place is →
      FreeList s (some i) (i :: is)

/-- The slot `i` is there and holds no node. -/
def Vacant (s : Store α) (i : Nat) : Prop := ∃ place g, s.slots[i]? = some (.vacant place g)

/-- The slots, the free list and the counters of a store agree. -/
structure Slotted (s : Store α) : Prop where
  /-- The free list ends and meets every vacant slot once, and no other slot. -/
  exists_freeList : ∃ is, s.FreeList s.free is ∧ is.Nodup ∧
    ∀ i, s.Vacant i ↔ ∃ j ∈ is, j.toNat = i
  /-- The live nodes are those in the slots. -/
  live_eq : s.live = s.slots.countP Slot.isOccupied
  /-- Every node that was created is live or was released. -/
  created_eq : s.stats.created = s.stats.released + s.live
  /-- The bound is at most the number of slots that handles can name. -/
  limit_le : s.limit ≤ maxNodes
  /-- All slots can be named by handles. -/
  size_le : s.slots.size ≤ maxNodes

/-- The free list is kept by a change that keeps its slots. -/
theorem FreeList.congr (hf : s.FreeList place is)
    (hag : ∀ i ∈ is, t.slots[i.toNat]? = s.slots[i.toNat]?) : t.FreeList place is := by
  induction hf with
  | nil => exact .nil
  | cons g hi _ ih =>
    refine .cons g ?_ (ih fun j hj => hag j (List.mem_cons_of_mem _ hj))
    rw [hag _ List.mem_cons_self, hi]

/-- The free list holds vacant slots only. -/
theorem FreeList.vacant {i : UInt32} (hf : s.FreeList place is) (hi : i ∈ is) :
    s.Vacant i.toNat := by
  induction hf with
  | nil => cases hi
  | cons g hslot _ ih =>
    rcases List.mem_cons.mp hi with rfl | hi
    · exact ⟨_, g, hslot⟩
    · exact ih hi

/-- The free list is determined by its top. -/
theorem FreeList.unique {js : List UInt32} (hf : s.FreeList place is) (hf' : s.FreeList place js) :
    is = js := by
  induction hf generalizing js with
  | nil =>
    cases hf'
    rfl
  | cons g hi _ ih =>
    cases hf' with
    | cons g' hi' hrest =>
      cases hi.symm.trans hi'
      rw [ih hrest]

/-- The number of occupied slots changes only by what is put in and what was there. -/
theorem countP_put {i : Nat} {old : Slot α} (hi : s.slots[i]? = some old) (new : Slot α) :
    (s.put i new).slots.countP Slot.isOccupied + old.isOccupied.toNat =
      s.slots.countP Slot.isOccupied + new.isOccupied.toNat := by
  obtain ⟨hlt, hold⟩ := Array.getElem?_eq_some_iff.mp hi
  have hle := Array.boole_getElem_le_countP (p := Slot.isOccupied) hlt
  have hset : (s.put i new).slots = s.slots.set i new hlt := by
    simp [put, Array.setIfInBounds, hlt]
  rw [hset, Array.countP_set hlt, hold]
  rw [hold] at hle
  cases hb : old.isOccupied <;> cases new.isOccupied <;>
    simp only [hb, Bool.toNat_true, Bool.toNat_false, if_true, Bool.false_eq_true, if_false]
      at hle ⊢ <;> omega

/-- The slot of a live node is not vacant. -/
theorem not_vacant (hn : s.lookup h = .ok n) : ¬ s.Vacant h.slot := by
  rintro ⟨place, g, hv⟩
  rw [(lookup_eq_ok_iff.mp hn).1] at hv
  cases hv

/-- Altering a node leaves the free list. -/
theorem FreeList.alter (hf : s.FreeList place is) (h : Handle) (f : Node α → Node α) :
    (s.alter h f).FreeList place is := by
  cases hl : s.lookup h with
  | error e => rwa [Store.alter, hl]
  | ok n =>
    rw [alter_of_lookup hl]
    refine hf.congr fun i hi => ?_
    rw [getElem?_put, if_neg]
    intro he
    exact not_vacant hl (he ▸ hf.vacant hi)

/-- A release makes one slot vacant. -/
theorem vacant_vacate (hn : s.lookup h = .ok n) (i : Nat) :
    (s.vacate h).Vacant i ↔ h.slot = i ∨ s.Vacant i := by
  unfold Vacant
  rw [getElem?_vacate hn]
  by_cases hi : h.slot = i
  · simp [hi]
  · simp [hi]

/-- After a release the free list begins with the slot of the node and goes on as before. -/
theorem FreeList.vacate (hf : s.FreeList s.free is) (hn : s.lookup h = .ok n) :
    (s.vacate h).FreeList (s.vacate h).free (h.index :: is) := by
  have htop : (s.vacate h).slots[h.index.toNat]? = some (.vacant s.free (h.generation + 1)) :=
    (getElem?_vacate hn h.slot).trans (if_pos rfl)
  refine .cons _ htop (hf.congr fun i hi => ?_)
  rw [getElem?_vacate hn, if_neg]
  intro he
  exact not_vacant hn (he ▸ hf.vacant hi)

/-- A creation takes one slot. -/
theorem Created.vacant_iff (hc : s.Created v h t) (i : Nat) :
    t.Vacant i ↔ i ≠ h.slot ∧ s.Vacant i := by
  unfold Vacant
  rw [hc.getElem?_slots]
  by_cases hi : i = h.slot
  · simp [hi]
  · simp [hi]

/-- A creation takes the first slot off the free list, if there is one. -/
theorem FreeList.created (hf : s.FreeList s.free is) (hnodup : is.Nodup)
    (hc : s.Created v h t) : t.FreeList t.free is.tail := by
  have hslots := hc.getElem?_slots
  cases hc with
  | @reuse i place g hi hslot =>
    rw [hi] at hf
    cases hf with
    | @cons _ _ is _ hslot' hrest =>
      cases hslot.symm.trans hslot'
      refine hrest.congr fun j hj => (hslots j.toNat).trans (if_neg ?_)
      intro he
      obtain rfl : j = i := UInt32.toNat_inj.mp he
      exact (List.nodup_cons.mp hnodup).1 hj
  | grow hnone hsize =>
    rw [hnone] at hf
    cases hf
    change FreeList _ s.free _
    rw [hnone]
    exact .nil

/-- A store without slots is sound. -/
theorem slotted_empty : (empty : Store α).Slotted where
  exists_freeList := ⟨[], .nil, List.nodup_nil, fun i => by simp [Vacant, empty]⟩
  live_eq := rfl
  created_eq := rfl
  limit_le := Nat.le_refl _
  size_le := Nat.zero_le _

namespace Slotted

/-- No slot is twice on the free list. -/
theorem nodup_of_freeList (hs : s.Slotted) (hf : s.FreeList s.free is) : is.Nodup := by
  obtain ⟨js, hjs, hnodup, _⟩ := hs.exists_freeList
  rwa [hf.unique hjs]

/-- Where a node is live, the number of live nodes is positive. -/
theorem live_pos (hs : s.Slotted) (hn : s.lookup h = .ok n) : 0 < s.live := by
  rw [hs.live_eq, Array.countP_pos_iff]
  exact ⟨_, Array.mem_of_getElem? (lookup_eq_ok_iff.mp hn).1, rfl⟩

/-- Altering a node keeps the slots sound. -/
theorem alter (hs : s.Slotted) (h : Handle) (f : Node α → Node α) : (s.alter h f).Slotted := by
  cases hl : s.lookup h with
  | error e => rwa [Store.alter, hl]
  | ok n =>
    rw [alter_of_lookup hl]
    have ho := (lookup_eq_ok_iff.mp hl).1
    obtain ⟨is, hfree, hnodup, hmem⟩ := hs.exists_freeList
    have hfree' := hfree.alter h f
    rw [alter_of_lookup hl] at hfree'
    refine ⟨⟨is, hfree', hnodup, fun i => ?_⟩, ?_, hs.created_eq, hs.limit_le, ?_⟩
    · rw [← hmem]
      unfold Vacant
      rw [getElem?_put, if_pos (slot_lt_of_lookup hl)]
      by_cases he : h.slot = i
      · rw [if_pos he, ← he, ho]
        simp
      · rw [if_neg he]
    · have hcount := countP_put ho (.occupied (f n))
      rw [← hs.live_eq] at hcount
      exact (Nat.add_right_cancel hcount).symm
    · rw [size_put]
      exact hs.size_le

/-- Joining two nodes keeps the slots sound. -/
theorem join (hs : s.Slotted) (a b : Handle) : (s.join a b).Slotted :=
  (hs.alter a _).alter b _

theorem setLimit (hs : s.Slotted) (limit : Option Nat) : (s.setLimit limit).Slotted where
  exists_freeList := by
    obtain ⟨is, hfree, hrest⟩ := hs.exists_freeList
    exact ⟨is, hfree.congr fun _ _ => rfl, hrest⟩
  live_eq := hs.live_eq
  created_eq := hs.created_eq
  limit_le := by
    cases limit with
    | none => exact Nat.le_refl _
    | some l => exact Nat.min_le_right _ _
  size_le := hs.size_le

theorem exists_freeList_vacate (hs : s.Slotted) (hn : s.lookup h = .ok n) :
    ∃ is, (s.vacate h).FreeList (s.vacate h).free is ∧ is.Nodup ∧
      ∀ i, (s.vacate h).Vacant i ↔ ∃ j ∈ is, j.toNat = i := by
  obtain ⟨is, hfree, hnodup, hmem⟩ := hs.exists_freeList
  refine ⟨h.index :: is, hfree.vacate hn, List.nodup_cons.mpr ⟨fun hi => ?_, hnodup⟩, fun i => ?_⟩
  · exact not_vacant hn (hfree.vacant hi)
  · rw [vacant_vacate hn, hmem]
    simp only [List.mem_cons, exists_eq_or_imp]
    rfl

/-- Releasing a live node keeps the slots sound: its slot becomes the top of the free list. -/
theorem vacate (hs : s.Slotted) (hn : s.lookup h = .ok n) : (s.vacate h).Slotted where
  exists_freeList := hs.exists_freeList_vacate hn
  live_eq := by
    have hcount := countP_put (lookup_eq_ok_iff.mp hn).1 (.vacant s.free (h.generation + 1))
    rw [← hs.live_eq] at hcount
    simp only [Slot.isOccupied, Bool.toNat_true, Bool.toNat_false] at hcount
    change s.live - 1 = (s.put h.slot _).slots.countP _
    omega
  created_eq := by
    have hlive := hs.live_pos hn
    have hcreated := hs.created_eq
    change s.stats.created = s.stats.released + 1 + (s.live - 1)
    omega
  limit_le := hs.limit_le
  size_le := by
    change (s.put h.slot _).slots.size ≤ maxNodes
    rw [size_put]
    exact hs.size_le

/-- After a creation the free list goes on behind the slot that was taken from it, or it is still
empty. -/
theorem exists_freeList_created (hs : s.Slotted) (hc : s.Created v h t) :
    ∃ is, t.FreeList t.free is ∧ is.Nodup ∧ ∀ i, t.Vacant i ↔ ∃ j ∈ is, j.toNat = i := by
  obtain ⟨is, hfree, hnodup, hmem⟩ := hs.exists_freeList
  refine ⟨is.tail, hfree.created hnodup hc, hnodup.tail, fun k => ?_⟩
  rw [hc.vacant_iff, hmem]
  cases hc with
  | @reuse i place g hi hslot =>
    rw [hi] at hfree
    cases hfree with
    | @cons _ _ is _ _ _ =>
      simp only [List.mem_cons, exists_eq_or_imp, List.tail_cons]
      constructor
      · rintro ⟨hk, hk' | hk'⟩
        · exact absurd hk'.symm hk
        · exact hk'
      · rintro ⟨j, hj, rfl⟩
        refine ⟨fun he => ?_, .inr ⟨j, hj, rfl⟩⟩
        obtain rfl : j = i := UInt32.toNat_inj.mp he
        exact (List.nodup_cons.mp hnodup).1 hj
  | grow hnone hsize =>
    rw [hnone] at hfree
    cases hfree
    simp

/-- A creation adds a node and, where no slot is free, a slot. -/
theorem counts_created (hs : s.Slotted) (hc : s.Created v h t) :
    t.slots.countP Slot.isOccupied = s.slots.countP Slot.isOccupied + 1 ∧
      t.slots.size ≤ maxNodes := by
  cases hc with
  | @reuse i place g hi hslot =>
    constructor
    · exact countP_put hslot (.occupied (ArenaM.freshNode v g s.stats.created))
    · change (s.put i.toNat _).slots.size ≤ maxNodes
      rw [size_put]
      exact hs.size_le
  | grow hnone hsize =>
    constructor
    · exact Array.countP_push_of_pos rfl
    · change (s.slots.push _).size ≤ maxNodes
      rw [Array.size_push]
      exact hsize

/-- A creation keeps the slots sound. -/
theorem created (hs : s.Slotted) (hc : s.Created v h t) : t.Slotted where
  exists_freeList := hs.exists_freeList_created hc
  live_eq := by rw [(hs.counts_created hc).1, ← hs.live_eq, hc.counters.1]
  created_eq := by
    obtain ⟨hlive, hstats, _⟩ := hc.counters
    have hcreated := hs.created_eq
    rw [hlive, hstats]
    simp only
    omega
  limit_le := by
    rw [hc.counters.2.2]
    exact hs.limit_le
  size_le := (hs.counts_created hc).2

/-- Every node in a slot is live under a handle. -/
theorem exists_lookup (hs : s.Slotted) {i : Nat} (hi : s.slots[i]? = some (.occupied n)) :
    ∃ p : Handle, p.slot = i ∧ s.lookup p = .ok n := by
  have hlt := (Array.getElem?_eq_some_iff.mp hi).choose
  have hslot : Handle.slot ⟨i.toUInt32, n.generation⟩ = i :=
    toNat_toUInt32_of_le (Nat.le_trans (Nat.le_of_lt hlt) hs.size_le)
  exact ⟨_, hslot, lookup_eq_ok_iff.mpr ⟨by rw [hslot, hi], rfl⟩⟩

/-- Live nodes that are told apart are not more than are counted as live. -/
theorem length_le_live (hs : s.Slotted) {ps : List Handle} (hnodup : ps.Nodup)
    (hlive : ∀ p ∈ ps, s.isLive p = true) : ps.length ≤ s.live := by
  -- Release them one by one.
  induction ps generalizing s with
  | nil => exact Nat.zero_le _
  | cons p ps ih =>
    obtain ⟨n, hn, hps, hrest⟩ := live_behind hnodup hlive
    have hle : ps.length ≤ s.live - 1 := ih (hs.vacate hn) hps hrest
    have hpos := hs.live_pos hn
    rw [List.length_cons]
    omega

end Slotted

end Store

end CheckedLists
