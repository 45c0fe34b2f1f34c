import CheckedLists.Proofs.Release
import CheckedLists.Proofs.Run
import Mathlib.Data.Nat.Count

/-!
# Generations count releases

A slot shows whether it holds a node and a generation: that of its node, or that
of the next node that it will hold. An event turns a slot in one of three ways or
not at all. Along a run the generation of a slot is therefore the number of its
releases so far, up to the width of a generation, and a slot that holds a node
was filled once more than it was cleared.
-/

namespace CheckedLists

variable {α : Type} {s t : Store α} {h : Handle} {n : Node α} {ks : List Handle} {i : Nat}
  {v : α}

/-- What a slot shows. -/
structure Stamp where
  /-- Whether the slot holds a node. -/
  taken : Bool
  /-- The generation of the node, or of the next one if there is none. -/
  generation : UInt32

/-- The stamp of a slot. -/
def Slot.stamp : Slot α → Stamp
  | .occupied n => ⟨true, n.generation⟩
  | .vacant _ g => ⟨false, g⟩

/-- How an event may change the stamp of a slot, where a slot that does not exist yet has none. -/
inductive Turn : Option Stamp → Option Stamp → Prop where
  /-- The stamp stays. -/
  | stay (x : Option Stamp) : Turn x x
  /-- The slot is new and holds a node of the first generation. -/
  | grow : Turn none (some ⟨true, 0⟩)
  /-- The slot is filled with a node of the generation that it shows. -/
  | fill (g : UInt32) : Turn (some ⟨false, g⟩) (some ⟨true, g⟩)
  /-- The node is released, and the slot shows the next generation. -/
  | clear (g : UInt32) : Turn (some ⟨true, g⟩) (some ⟨false, g + 1⟩)

namespace Store

/-- Whether a slot holds a node. -/
def holds (s : Store α) (i : Nat) : Bool := s.slots[i]?.any Slot.isOccupied

/-- The stamp of a slot, if the slot exists. -/
def stamp (s : Store α) (i : Nat) : Option Stamp := s.slots[i]?.map Slot.stamp

/-- A slot holds a node exactly if its stamp says so. -/
theorem holds_eq (s : Store α) (i : Nat) : s.holds i = (s.stamp i).any Stamp.taken := by
  unfold holds stamp
  cases s.slots[i]? with
  | none => rfl
  | some slot => cases slot <;> rfl

/-- The slot of a live handle shows its generation. -/
theorem stamp_of_lookup (hn : s.lookup h = .ok n) : s.stamp h.slot = some ⟨true, h.generation⟩ := by
  obtain ⟨ho, hg⟩ := lookup_eq_ok_iff.mp hn
  rw [stamp, ho, ← hg]
  rfl

/-- A handle whose generation its slot shows for a node is live. -/
theorem isLive_of_stamp (hs : s.stamp h.slot = some ⟨true, h.generation⟩) :
    s.isLive h = true := by
  unfold stamp at hs
  cases ho : s.slots[h.slot]? with
  | none =>
    rw [ho] at hs
    cases hs
  | some slot =>
    rw [ho] at hs
    cases slot with
    | vacant => cases hs
    | occupied n =>
      refine isLive_iff.mpr ⟨n, lookup_eq_ok_iff.mpr ⟨ho, ?_⟩⟩
      exact congrArg Stamp.generation (Option.some.inj hs)

/-- A handle whose generation its slot does not show for a node dangles. -/
theorem lookup_of_stamp {b : Bool} {g : UInt32} (hs : s.stamp h.slot = some ⟨b, g⟩)
    (hne : g ≠ h.generation) : s.lookup h = .error (.useAfterRelease h) := by
  unfold stamp at hs
  cases ho : s.slots[h.slot]? with
  | none =>
    rw [ho] at hs
    cases hs
  | some slot =>
    rw [ho] at hs
    cases slot with
    | occupied n =>
      cases hs
      rw [lookup_of_occupied ho, if_neg hne]
    | vacant place g => exact lookup_of_vacant ho

/-- Putting content into a slot that exists sets its stamp. -/
theorem stamp_put {j : Nat} {slot : Slot α} (hj : j < s.slots.size) :
    (s.put j slot).stamp i = if j = i then some slot.stamp else s.stamp i := by
  unfold stamp
  rw [getElem?_put, if_pos hj]
  split <;> rfl

/-- Altering a node in its generation leaves all stamps. -/
theorem stamp_alter {f : Node α → Node α} (hf : ∀ n, (f n).generation = n.generation) :
    (s.alter h f).stamp i = s.stamp i := by
  cases hn : s.lookup h with
  | error e => rw [alter, hn]
  | ok n =>
    rw [alter_of_lookup hn, stamp_put (slot_lt_of_lookup hn)]
    by_cases hi : h.slot = i
    · rw [if_pos hi, ← hi, stamp_of_lookup hn, ← (lookup_eq_ok_iff.mp hn).2, ← hf n]
      rfl
    · rw [if_neg hi]

theorem stamp_join (a b : Handle) : (s.join a b).stamp i = s.stamp i := by
  rw [join, stamp_alter (by intro; rfl), stamp_alter (by intro; rfl)]

/-- Releasing live nodes that are told apart turns the slot of each of them and no other slot. -/
theorem stamp_vacateAll (hnodup : ks.Nodup) (hlive : ∀ h ∈ ks, s.isLive h = true) (i : Nat) :
    (s.vacateAll ks).stamp i = s.stamp i ∨ ∃ g, s.stamp i = some ⟨true, g⟩ ∧
      (s.vacateAll ks).stamp i = some ⟨false, g + 1⟩ := by
  by_cases hi : ∃ k ∈ ks, k.slot = i
  · obtain ⟨k, hk, rfl⟩ := hi
    obtain ⟨n, hn⟩ := isLive_iff.mp (hlive k hk)
    obtain ⟨place, hslot⟩ := getElem?_vacateAll_of_mem hnodup hlive hk
    refine .inr ⟨k.generation, stamp_of_lookup hn, ?_⟩
    rw [stamp, hslot]
    rfl
  · left
    rw [stamp, getElem?_vacateAll_of_ne fun k hk hslot => hi ⟨k, hk, hslot⟩, stamp]

/-- After a creation the slot of the new handle shows its generation for a node. -/
theorem Created.stamp (hc : s.Created v h t) :
    t.stamp i = if i = h.slot then some ⟨true, h.generation⟩ else s.stamp i := by
  unfold Store.stamp
  rw [hc.getElem?_slots]
  split <;> rfl

/-- Before a creation the slot of the new handle is missing and the generation is the first one, or
it is vacant and shows the generation. -/
theorem Created.stamp_before (hc : s.Created v h t) :
    s.stamp h.slot = none ∧ h.generation = 0 ∨ s.stamp h.slot = some ⟨false, h.generation⟩ := by
  cases hc with
  | @reuse i place g _ hslot =>
    right
    change s.slots[i.toNat]?.map Slot.stamp = _
    rw [hslot]
    rfl
  | grow _ hsize =>
    left
    refine ⟨?_, rfl⟩
    change s.slots[s.slots.size.toUInt32.toNat]?.map Slot.stamp = _
    rw [toNat_toUInt32_of_le (Nat.le_of_lt hsize), Array.getElem?_size]
    rfl

/-- A creation turns one slot. -/
theorem Created.turn (hc : s.Created v h t) (i : Nat) : Turn (s.stamp i) (t.stamp i) := by
  rw [hc.stamp]
  by_cases hi : i = h.slot
  · rw [if_pos hi, hi]
    obtain ⟨hnone, hg⟩ | hvacant := hc.stamp_before
    · rw [hnone, hg]
      exact .grow
    · rw [hvacant]
      exact .fill h.generation
  · rw [if_neg hi]
    exact .stay _

/-- Every effect turns the slots, each in one way at most. -/
theorem Effect.turn {records : List Record} (he : s.Effect t records) (i : Nat) :
    Turn (s.stamp i) (t.stamp i) := by
  cases he with
  | idle => exact .stay _
  | write h g =>
    rw [stamp_alter (by intro; rfl)]
    exact .stay _
  | bound limit => exact .stay _
  | create hc => exact hc.turn i
  | append hlast hc =>
    rw [stamp_join]
    exact hc.turn i
  | link hx hc hhead hoff =>
    rw [stamp_join]
    exact .stay _
  | destroy hhead hc =>
    obtain hstay | ⟨g, hg, hclear⟩ := stamp_vacateAll hc.nodup (fun _ => hc.isLive) i
    · rw [hstay]
      exact .stay _
    · rw [hg, hclear]
      exact .clear g

end Store

/-- The stamp of a slot that was filled `c` times and cleared `r` times. -/
inductive Aged : Option Stamp → Nat → Nat → Prop where
  /-- The slot does not exist yet. -/
  | unused : Aged none 0 0
  /-- The slot holds a node. -/
  | taken {g : UInt32} {r : Nat} (hg : g.toNat = r % 2 ^ 32) : Aged (some ⟨true, g⟩) (r + 1) r
  /-- The slot is vacant. -/
  | vacant {g : UInt32} {r : Nat} (hg : g.toNat = r % 2 ^ 32) : Aged (some ⟨false, g⟩) r r

/-- A slot that holds a node was filled once more than it was cleared. -/
theorem Aged.of_taken {g : UInt32} {c r : Nat} (ha : Aged (some ⟨true, g⟩) c r) :
    c = r + 1 ∧ g.toNat = r % 2 ^ 32 := by
  cases ha with
  | taken hg => exact ⟨rfl, hg⟩

/-- A slot that was filled once more than it was cleared holds a node. -/
theorem Aged.holds {x : Option Stamp} {r : Nat} (ha : Aged x (r + 1) r) :
    ∃ g, x = some ⟨true, g⟩ ∧ g.toNat = r % 2 ^ 32 := by
  cases ha with
  | taken hg => exact ⟨_, rfl, hg⟩

/-- A slot that was cleared exists and shows how often. -/
theorem Aged.exists_stamp {x : Option Stamp} {c r : Nat} (ha : Aged x c r) (hr : 0 < r) :
    ∃ b g, x = some ⟨b, g⟩ ∧ g.toNat = r % 2 ^ 32 := by
  cases ha with
  | unused => exact absurd hr (Nat.lt_irrefl 0)
  | taken hg => exact ⟨true, _, rfl, hg⟩
  | vacant hg => exact ⟨false, _, rfl, hg⟩

namespace Arena

variable {a b : Arena α} {allocator : Allocator} {events : List (Event α)} {e : Event α}
  {n : Nat}

/-- The arena after the first `n` events of a run. -/
def stage (allocator : Allocator) (events : List (Event α)) (n : Nat) : Arena α :=
  (empty allocator).run (events.take n)

/-- Every stage of a run is coherent. -/
theorem coherent_stage (allocator : Allocator) (events : List (Event α)) (n : Nat) :
    (stage allocator events n).store.Coherent :=
  Reachable.coherent ⟨allocator, events.take n, rfl⟩

/-- A stage is what an event makes of the stage before. -/
theorem stage_succ (he : events[n]? = some e) :
    stage allocator events (n + 1) = (stage allocator events n).step e := by
  unfold stage
  rw [List.take_add_one, he, run_append]
  rfl

/-- Behind the last event nothing happens. -/
theorem stage_succ_of_none (he : events[n]? = none) :
    stage allocator events (n + 1) = stage allocator events n := by
  unfold stage
  rw [List.take_add_one, he]
  simp

/-- From a stage to the next one there is one effect. -/
theorem effect_stage (allocator : Allocator) (events : List (Event α)) (n : Nat) :
    ∃ records, (stage allocator events n).store.Effect (stage allocator events (n + 1)).store
      records := by
  cases he : events[n]? with
  | none =>
    rw [stage_succ_of_none he]
    exact ⟨_, .idle⟩
  | some e =>
    obtain ⟨t, records, heffect, ht, _⟩ := leaves_step (coherent_stage allocator events n) e
    rw [stage_succ he, ht]
    exact ⟨_, heffect⟩

/-- From a stage to the next one every slot turns in one way at most. -/
theorem turn_stage (allocator : Allocator) (events : List (Event α)) (i n : Nat) :
    Turn ((stage allocator events n).store.stamp i)
      ((stage allocator events (n + 1)).store.stamp i) := by
  obtain ⟨_, heffect⟩ := effect_stage allocator events n
  exact heffect.turn i

/-- Slot `i` holds no node in `a` and holds one in `b`. -/
def Fills (a b : Arena α) (i : Nat) : Prop := a.store.holds i = false ∧ b.store.holds i = true

/-- Slot `i` holds a node in `a` and holds none in `b`. -/
def Clears (a b : Arena α) (i : Nat) : Prop := a.store.holds i = true ∧ b.store.holds i = false

instance : Decidable (a.Fills b i) := inferInstanceAs (Decidable (_ ∧ _))

instance : Decidable (a.Clears b i) := inferInstanceAs (Decidable (_ ∧ _))

/-- A turn counts as what the slot shows before and after it. -/
theorem aged_of_turn {c r : Nat} (ha : Aged (a.store.stamp i) c r)
    (ht : Turn (a.store.stamp i) (b.store.stamp i)) :
    Aged (b.store.stamp i) (c + if a.Fills b i then 1 else 0)
      (r + if a.Clears b i then 1 else 0) := by
  simp only [Fills, Clears, Store.holds_eq]
  generalize a.store.stamp i = x at ha ht ⊢
  generalize b.store.stamp i = y at ht ⊢
  cases ht with
  | stay =>
    have hstay (b : Bool) : ¬ (b = false ∧ b = true) ∧ ¬ (b = true ∧ b = false) := by
      cases b <;> simp
    rw [if_neg (hstay _).1, if_neg (hstay _).2]
    exact ha
  | grow =>
    cases ha
    exact .taken rfl
  | fill g =>
    cases ha with
    | vacant hg => exact .taken hg
  | clear g =>
    cases ha with
    | @taken _ r hg =>
      have hnext : (g + 1).toNat = (r + 1) % 2 ^ 32 := by
        rw [UInt32.toNat_add, hg]
        exact Nat.mod_add_mod r (2 ^ 32) 1
      exact .vacant hnext

/-- Event `n` of a run creates a node in slot `i`. -/
def FilledAt (allocator : Allocator) (events : List (Event α)) (i n : Nat) : Prop :=
  (stage allocator events n).Fills (stage allocator events (n + 1)) i

/-- Event `n` of a run releases the node in slot `i`. -/
def ClearedAt (allocator : Allocator) (events : List (Event α)) (i n : Nat) : Prop :=
  (stage allocator events n).Clears (stage allocator events (n + 1)) i

instance (i : Nat) : DecidablePred (FilledAt allocator events i) :=
  fun _ => inferInstanceAs (Decidable (Fills _ _ i))

instance (i : Nat) : DecidablePred (ClearedAt allocator events i) :=
  fun _ => inferInstanceAs (Decidable (Clears _ _ i))

/-- How many nodes the first `n` events of a run create in slot `i`. -/
def creations (allocator : Allocator) (events : List (Event α)) (i n : Nat) : Nat :=
  Nat.count (FilledAt allocator events i) n

/-- How many nodes the first `n` events of a run release in slot `i`. -/
def releases (allocator : Allocator) (events : List (Event α)) (i n : Nat) : Nat :=
  Nat.count (ClearedAt allocator events i) n

theorem creations_succ (allocator : Allocator) (events : List (Event α)) (i n : Nat) :
    creations allocator events i (n + 1) = creations allocator events i n +
      if FilledAt allocator events i n then 1 else 0 :=
  Nat.count_succ _ n

theorem releases_succ (allocator : Allocator) (events : List (Event α)) (i n : Nat) :
    releases allocator events i (n + 1) = releases allocator events i n +
      if ClearedAt allocator events i n then 1 else 0 :=
  Nat.count_succ _ n

theorem creations_mono (allocator : Allocator) (events : List (Event α)) (i : Nat) :
    Monotone (creations allocator events i) :=
  Nat.count_monotone _

theorem releases_mono (allocator : Allocator) (events : List (Event α)) (i : Nat) :
    Monotone (releases allocator events i) :=
  Nat.count_monotone _

/-- A slot is not released more often than events happen. -/
theorem releases_le (allocator : Allocator) (events : List (Event α)) (i n : Nat) :
    releases allocator events i n ≤ n :=
  Nat.count_le _

/-- A run with fewer events than a generation can count does not release a slot more often. -/
theorem releases_lt (hlength : events.length < 2 ^ 32) (i : Nat) :
    releases allocator events i events.length < 2 ^ 32 :=
  Nat.lt_of_le_of_lt (releases_le allocator events i _) hlength

/-- At every stage of a run a slot shows how often it was filled and cleared. -/
theorem aged_stage (allocator : Allocator) (events : List (Event α)) (i n : Nat) :
    Aged ((stage allocator events n).store.stamp i) (creations allocator events i n)
      (releases allocator events i n) := by
  induction n with
  | zero => exact .unused
  | succ n ih =>
    rw [creations_succ, releases_succ]
    exact aged_of_turn ih (turn_stage allocator events i n)

/-- Where a node is live, its slot was filled once more than it was cleared, and was cleared as
often as its generation says. -/
theorem counts_of_isLive (hlive : (stage allocator events n).store.isLive h = true) :
    creations allocator events h.slot n = releases allocator events h.slot n + 1 ∧
      h.generation.toNat = releases allocator events h.slot n % 2 ^ 32 := by
  obtain ⟨m, hm⟩ := Store.isLive_iff.mp hlive
  have haged := aged_stage allocator events h.slot n
  rw [Store.stamp_of_lookup hm] at haged
  exact haged.of_taken

/-- A node that is live at two stages of a run is live in between. -/
theorem isLive_of_between {m k : Nat}
    (hbound : releases allocator events h.slot events.length < 2 ^ 32)
    (hm : (stage allocator events m).store.isLive h = true)
    (hn : (stage allocator events n).store.isLive h = true)
    (hmk : m ≤ k) (hkn : k ≤ n) (hlast : n ≤ events.length) :
    (stage allocator events k).store.isLive h = true := by
  obtain ⟨hmc, hmr⟩ := counts_of_isLive hm
  obtain ⟨hnc, hnr⟩ := counts_of_isLive hn
  have hc : creations allocator events h.slot k ≤ creations allocator events h.slot n :=
    creations_mono allocator events h.slot hkn
  have hmonoc : creations allocator events h.slot m ≤ creations allocator events h.slot k :=
    creations_mono allocator events h.slot hmk
  have hr : releases allocator events h.slot m ≤ releases allocator events h.slot k :=
    releases_mono allocator events h.slot hmk
  have hmonor : releases allocator events h.slot k ≤ releases allocator events h.slot n :=
    releases_mono allocator events h.slot hkn
  have hend : releases allocator events h.slot n ≤ releases allocator events h.slot events.length :=
    releases_mono allocator events h.slot hlast
  -- The generation pins the releases down, and these the creations.
  have haged := aged_stage allocator events h.slot k
  rw [show creations allocator events h.slot k = releases allocator events h.slot k + 1 by omega]
    at haged
  obtain ⟨g, hstamp, hg⟩ := haged.holds
  have hself : g = h.generation := by
    rw [← UInt32.toNat_inj]
    omega
  exact Store.isLive_of_stamp (hself ▸ hstamp)

end Arena

end CheckedLists
