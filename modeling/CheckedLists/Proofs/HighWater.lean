import CheckedLists.Proofs.Capacity
import CheckedLists.Proofs.Generation
import Mathlib.Order.Bounds.Defs

/-!
# The high-water mark

A slot is made only where none is vacant, hence where all slots hold live nodes, and
no slot is given up. One step therefore raises the number of slots just as far as the
number of live nodes rises above it. Over a run the number of slots is the greatest
number of nodes that were live at one stage, however often creations are refused and
lists are destroyed on the way.
-/

namespace CheckedLists

variable {α : Type}

namespace Store

variable {s t : Store α} {records : List Record}

/-- An effect leaves the number of slots, or it creates a node in a new slot since none is free. -/
theorem Effect.size_cases (he : s.Effect t records) :
    t.slots.size = s.slots.size ∨
      s.free = none ∧ t.slots.size = s.slots.size + 1 ∧ t.live = s.live + 1 := by
  cases he with
  | idle => exact .inl rfl
  | write h g => exact .inl (counters_alter _ _ _).2.2.2
  | bound limit => exact .inl rfl
  | create hc =>
    refine hc.size_cases.imp_right ?_
    rintro ⟨hfree, hsize⟩
    exact ⟨hfree, hsize, hc.counters.1⟩
  | @append v h last u hlast hc =>
    obtain ⟨hlive, _, _, hsize⟩ := u.counters_join last h
    rw [hlive, hsize]
    refine hc.size_cases.imp_right ?_
    rintro ⟨hfree, hsize⟩
    exact ⟨hfree, hsize, hc.counters.1⟩
  | link => exact .inl (counters_join _ _ _).2.2.2
  | destroy => exact .inl (counters_vacateAll _ _).2.2.2

/-- An effect raises the number of slots as far as the number of live nodes rises above it. -/
theorem Effect.size_eq_max (hs : s.Coherent) (he : s.Effect t records) :
    t.slots.size = max s.slots.size t.live := by
  have hlive := (he.coherent hs).slotted.live_le_size
  rcases he.size_cases with hsize | ⟨hfree, hsize, hmore⟩
  · rw [hsize] at hlive ⊢
    exact (Nat.max_eq_left hlive).symm
  · have hfull : s.live = s.slots.size := hs.slotted.free_eq_none_iff.mp hfree
    omega

/-- Where no slot is on the free list, none is vacant. -/
theorem Slotted.not_vacant_of_free (hs : s.Slotted) (hfree : s.free = none) (i : Nat) :
    ¬ s.Vacant i := by
  obtain ⟨is, hlist, _, hmem⟩ := hs.exists_freeList
  rw [hfree] at hlist
  cases hlist
  rw [hmem]
  simp

end Store

namespace Arena

variable {allocator : Allocator} {events : List (Event α)} {n : Nat}

/-- From a stage to the next one the number of slots rises as far as the number of live nodes rises
above it. -/
theorem size_stage_succ (allocator : Allocator) (events : List (Event α)) (n : Nat) :
    (stage allocator events (n + 1)).store.slots.size =
      max (stage allocator events n).store.slots.size
        (stage allocator events (n + 1)).store.live := by
  obtain ⟨records, heffect⟩ := effect_stage allocator events n
  exact heffect.size_eq_max (coherent_stage allocator events n)

/-- No slot is given up. -/
theorem monotone_size (allocator : Allocator) (events : List (Event α)) :
    Monotone fun n => (stage allocator events n).store.slots.size := by
  refine monotone_nat_of_le_succ fun n => ?_
  rw [size_stage_succ]
  exact Nat.le_max_left _ _

/-- The number of slots is the greatest number of nodes that were live at one stage so far. -/
theorem isGreatest_size (allocator : Allocator) (events : List (Event α)) (n : Nat) :
    IsGreatest {l | ∃ k ≤ n, (stage allocator events k).store.live = l}
      (stage allocator events n).store.slots.size := by
  constructor
  · -- The mark was reached where the last slot was made, or at the beginning.
    induction n with
    | zero => exact ⟨0, Nat.le_refl 0, rfl⟩
    | succ n ih =>
      rw [size_stage_succ]
      obtain ⟨k, hk, hlive⟩ := ih
      rcases Nat.le_total (stage allocator events (n + 1)).store.live
        (stage allocator events n).store.slots.size with hle | hle
      · exact ⟨k, Nat.le_succ_of_le hk, hlive.trans (Nat.max_eq_left hle).symm⟩
      · exact ⟨n + 1, Nat.le_refl _, (Nat.max_eq_right hle).symm⟩
  · rintro _ ⟨k, hk, rfl⟩
    have hlive := (coherent_stage allocator events k).slotted.live_le_size
    exact hlive.trans (monotone_size allocator events hk)

/-- A slot is made only where none is vacant. -/
theorem not_vacant_of_grown
    (hgrown : (stage allocator events n).store.slots.size <
      (stage allocator events (n + 1)).store.slots.size) (i : Nat) :
    ¬ (stage allocator events n).store.Vacant i := by
  obtain ⟨records, heffect⟩ := effect_stage allocator events n
  rcases heffect.size_cases with hsize | ⟨hfree, _⟩
  · rw [hsize] at hgrown
    exact absurd hgrown (Nat.lt_irrefl _)
  · exact (coherent_stage allocator events n).slotted.not_vacant_of_free hfree i

/-- At every stage of a run the number of slots is the greatest number of nodes that were live at
this or an earlier stage, whatever was performed or refused in between and whatever the allocators
granted. A slot is made only where no slot is vacant, and no slot is given up. -/
theorem slots_are_the_high_water_mark (allocator : Allocator) (events : List (Event α)) :
    (∀ n, IsGreatest {l | ∃ k ≤ n, (stage allocator events k).store.live = l}
      (stage allocator events n).store.slots.size) ∧
    (∀ n, (stage allocator events n).store.slots.size <
        (stage allocator events (n + 1)).store.slots.size →
      ∀ i, ¬ (stage allocator events n).store.Vacant i) ∧
    ∀ m n, m ≤ n → (stage allocator events m).store.slots.size ≤
      (stage allocator events n).store.slots.size :=
  ⟨isGreatest_size allocator events, fun _ => not_vacant_of_grown,
    fun _ _ hmn => monotone_size allocator events hmn⟩

/-- In the run `slotReuse` four nodes are live at stage 5 and never more. The last of their slots
is made while none is vacant, and at the end, where three nodes are live, there are four slots
still. -/
theorem slotReuse_highWater :
    (stage .global slotReuse 4).store.slots.size < (stage .global slotReuse 5).store.slots.size ∧
    ¬ (stage .global slotReuse 4).store.Vacant 2 ∧
    IsGreatest {l | ∃ k ≤ 8, (stage .global slotReuse k).store.live = l} 4 ∧
    (stage .global slotReuse 8).store.live = 3 := by
  obtain ⟨hmark, hgrown, _⟩ := slots_are_the_high_water_mark .global slotReuse
  have hlast : (stage .global slotReuse 4).store.slots.size <
      (stage .global slotReuse 5).store.slots.size := by decide
  exact ⟨hlast, hgrown 4 hlast 2, hmark 8, rfl⟩

end Arena

end CheckedLists
