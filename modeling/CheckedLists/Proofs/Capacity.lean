import CheckedLists.Proofs.Bound
import CheckedLists.Proofs.Release

/-!
# Capacity as a bound

An arena is cramped by a capacity if its allocator grants that many slots and
refuses all others. Its mirror has the same nodes in the same slots, a global
allocator, and the capacity as a further bound on live nodes. Each operation on a
cramped arena is matched by the same operation on the mirror, where a new bound
is cut to the capacity, and leaves an arena with the matching mirror. Whole runs
on the two therefore give the same answers, except where they tell the bound.
-/

namespace CheckedLists

variable {α β : Type}

namespace Store

variable {s t : Store α} {h : Handle} {v : α}

/-- A creation makes a slot only where none is free. -/
theorem Created.size_cases (hc : s.Created v h t) :
    t.slots.size = s.slots.size ∨ s.free = none ∧ t.slots.size = s.slots.size + 1 := by
  cases hc with
  | reuse hfree hslot => exact .inl (size_put s _ _)
  | grow hfree hsize => exact .inr ⟨hfree, Array.size_push _⟩

end Store

/-- What a computation on an arena answers, whatever arena it leaves. -/
def ArenaM.answer (c : ArenaM α β) (a : Arena α) : Except (Abort Fault) β :=
  match c a with
  | .ok b _ => .ok b
  | .error e _ => .error e

namespace ArenaM

variable {a : Arena α} {l : Nat} {g : Allocator} {c : ArenaM α β}

theorem BlindAt.answer_eq (hc : c.BlindAt l g a) : c.answer (a.rebound l g) = c.answer a := by
  unfold BlindAt at hc
  unfold answer
  rw [hc]
  cases c a <;> rfl

theorem BlindAt.after_eq (hc : c.BlindAt l g a) :
    c.after (a.rebound l g) = (c.after a).rebound l g := by
  unfold BlindAt at hc
  unfold after
  rw [hc]
  cases c a <;> rfl

end ArenaM

/-- Operations that create no node make no slot. -/
theorem Op.size_le {a : Arena α} {op : Op (Option Handle) Handle α} (hs : a.store.Coherent)
    (ht : op.target? = none) :
    (op.perform.after a).store.slots.size ≤ a.store.slots.size := by
  have hmakes := op.makes_perform hs
  generalize (op.perform.after a).store = t at hmakes
  cases hmakes with
  | idle => exact Nat.le_refl _
  | write hc => exact (Store.counters_alter _ _ _).2.2.2.le
  | bound limit => exact Nat.le_refl _
  | create ht' => cases ht.symm.trans ht'
  | append ht' => cases ht.symm.trans ht'
  | link => exact (Store.counters_join _ _ _).2.2.2.le
  | destroy => exact (Store.counters_vacateAll _ _).2.2.2.le

namespace Arena

variable {a : Arena α} {c : Nat} {op : Op (Option Handle) Handle α} {head : Option Handle}

/-- The allocator of an arena has granted no slot beyond `c` and will not. -/
structure Cramped (c : Nat) (a : Arena α) : Prop where
  /-- The store is coherent. -/
  coherent : a.store.Coherent
  /-- At most `c` slots were granted. -/
  size_le : a.store.slots.size ≤ c
  /-- No slot beyond them is granted. -/
  closed : ∃ refused, a.allocator = .fixed c false refused

/-- The same nodes in the same slots, with `c` as a further bound on live nodes and an allocator
that grants every slot. -/
def mirror (c : Nat) (a : Arena α) : Arena α := a.rebound (min a.store.limit c) .global

/-- The bounds of the two say the same about further nodes: all granted slots are in use exactly if
`c` nodes are live. -/
theorem Cramped.exhausted_mirror (ha : a.Cramped c) : (a.mirror c).Exhausted ↔ a.Exhausted := by
  obtain ⟨refused, hclosed⟩ := ha.closed
  have hfree := ha.coherent.slotted.free_eq_none_iff
  have hlive := ha.coherent.slotted.live_le_size
  have hsize := ha.size_le
  change min a.store.limit c ≤ a.store.live ∨
    a.store.free = none ∧ (maxNodes ≤ a.store.slots.size ∨ true = false) ↔ _
  unfold Exhausted
  rw [hfree, hclosed]
  simp only [Allocator.grants, Bool.false_or, decide_eq_false_iff_not, Bool.true_eq_false, or_false]
  omega

/-- A slot that is made was granted. -/
theorem Cramped.size_created (ha : a.Cramped c) (hx : ¬ a.Exhausted) {v : α} {h : Handle}
    {t : Store α} (hc : a.store.Created v h t) : t.slots.size ≤ c := by
  obtain ⟨refused, hclosed⟩ := ha.closed
  obtain hsame | ⟨hfree, hmore⟩ := hc.size_cases
  · exact hsame ▸ ha.size_le
  · have hgrants : a.store.slots.size < c := by
      by_contra hfull
      refine hx (.inr ⟨hfree, .inr ?_⟩)
      rw [hclosed]
      simpa [Allocator.grants] using Nat.le_of_not_lt hfull
    omega

/-- `b` keeps to the granted slots of `a`, to its allocator and to its bound. -/
structure Within (c : Nat) (a b : Arena α) : Prop where
  /-- At most `c` slots were granted. -/
  size_le : b.store.slots.size ≤ c
  /-- No slot beyond them is granted. -/
  closed : ∃ refused, b.allocator = .fixed c false refused
  /-- The bound is the same. -/
  limit_eq : b.store.limit = a.store.limit

theorem Cramped.within_append (ha : a.Cramped c) (head : Option Handle) (v : α) :
    a.Within c ((ArenaM.append head v).after a) := by
  obtain ⟨refused, hclosed⟩ := ha.closed
  unfold ArenaM.after
  obtain ⟨f, allocator, hallocator, hrefused⟩ | ⟨hx, h, t, u, r, records, hc, hu, hok⟩ :=
    ArenaM.append_refused_or_grown ha.coherent head v
  · rw [hrefused]
    refine ⟨ha.size_le, ?_, rfl⟩
    obtain rfl | rfl := hallocator
    · exact ⟨refused, hclosed⟩
    · exact ⟨refused + 1, by rw [hclosed]; rfl⟩
  · rw [hok]
    have hkeeps : u.slots.size = t.slots.size ∧ u.limit = t.limit := by
      obtain rfl | ⟨last, _, rfl⟩ := hu
      · exact ⟨rfl, rfl⟩
      · obtain ⟨_, _, hlimit, hsize⟩ := t.counters_join last h
        exact ⟨hsize, hlimit⟩
    exact ⟨hkeeps.1.trans_le (ha.size_created hx hc), ⟨refused, hclosed⟩,
      hkeeps.2.trans hc.counters.2.2⟩

/-- Unless it sets the bound, an operation keeps to the granted slots and to the bound. -/
theorem Cramped.within_perform (ha : a.Cramped c) (hop : op.tellsBound = false) :
    a.Within c (op.perform.after a) := by
  cases ht : op.target? with
  | some head =>
    obtain ⟨v, _, hafter, _⟩ := Op.perform_of_target ht a
    rw [hafter]
    exact ha.within_append head v
  | none =>
    obtain ⟨hlimit, hallocator⟩ := (Op.blind_perform ht hop).keeps a
    obtain ⟨refused, hclosed⟩ := ha.closed
    have hsize := (Op.size_le ha.coherent ht).trans ha.size_le
    exact ⟨hsize, ⟨refused, hallocator.trans hclosed⟩, hlimit⟩

/-- Operations lead from cramped arenas to cramped ones. -/
theorem Cramped.step (ha : a.Cramped c) (op : Op (Option Handle) Handle α) :
    (a.step (.call op)).Cramped c := by
  have hcoherent := coherent_step (.call op) ha.coherent
  cases hop : op.tellsBound with
  | false =>
    have hwithin := ha.within_perform hop
    exact ⟨hcoherent, hwithin.size_le, hwithin.closed⟩
  | true => cases op <;> cases hop <;> exact ⟨hcoherent, ha.size_le, ha.closed⟩

end Arena

/-- The operation with a bound that is cut to `c`, if it sets one. -/
def Op.cut (c : Nat) : Op (Option Handle) Handle α → Op (Option Handle) Handle α
  | .setLimit none => .setLimit (some c)
  | .setLimit (some n) => .setLimit (some (min n c))
  | op => op

theorem Op.cut_of_not_tells {op : Op (Option Handle) Handle α} {c : Nat}
    (hop : op.tellsBound = false) : op.cut c = op := by
  cases op with
  | setLimit n => cases hop
  | _ => rfl

/-- A bound that is cut to the capacity is the bound of the mirror. -/
theorem Store.boundedBy_cut (c : Nat) (n : Option Nat) :
    boundedBy (some (n.elim c fun n => min n c)) = min (boundedBy n) c := by
  cases n <;> simp only [boundedBy, Option.elim] <;> omega

namespace Arena

variable {a : Arena α} {c : Nat} {op : Op (Option Handle) Handle α}

/-- An operation that does not tell the bound answers the same on the mirror, and leaves the mirror
of what it leaves. -/
theorem Cramped.blindAt_mirror (ha : a.Cramped c) (hop : op.tellsBound = false) :
    op.perform.BlindAt (min a.store.limit c) .global a := by
  cases ht : op.target? with
  | none => exact Op.blind_perform ht hop _ _ a
  | some head =>
    have hlimit : min a.store.limit c ≤ maxNodes :=
      (Nat.min_le_left _ _).trans ha.coherent.slotted.limit_le
    exact Op.perform_blindAt ha.coherent hlimit rfl ha.exhausted_mirror ht

/-- An operation on the mirror leaves the mirror of what it leaves. -/
theorem Cramped.step_mirror (ha : a.Cramped c) (op : Op (Option Handle) Handle α) :
    (a.mirror c).step (.call (op.cut c)) = (a.step (.call op)).mirror c := by
  cases hop : op.tellsBound with
  | false =>
    have hlimit : (a.step (.call op)).store.limit = a.store.limit :=
      (ha.within_perform hop).limit_eq
    rw [Op.cut_of_not_tells hop, mirror, mirror, hlimit]
    exact (ha.blindAt_mirror hop).after_eq
  | true =>
    cases op with
    | limit => rfl
    | setLimit n =>
      have hlimit := Store.boundedBy_cut c n
      cases n <;> exact congrArg (a.rebound · .global) hlimit
    | _ => cases hop

/-- Whole runs on the mirror leave the mirror of what they leave. -/
theorem Cramped.run_mirror (ha : a.Cramped c) (ops : List (Op (Option Handle) Handle α)) :
    (a.run (ops.map .call)).Cramped c ∧
      (a.mirror c).run (ops.map fun op => .call (op.cut c)) = (a.run (ops.map .call)).mirror c := by
  induction ops generalizing a with
  | nil => exact ⟨ha, rfl⟩
  | cons op ops ih =>
    obtain ⟨hcramped, hmirror⟩ := ih (ha.step op)
    refine ⟨hcramped, ?_⟩
    rw [← ha.step_mirror op] at hmirror
    exact hmirror

/-- An operation that tells the bound tells the bound of the mirror as it is cut to the capacity. -/
theorem answer_mirror (hop : op.tellsBound = true) :
    ∃ l, op.perform.answer a = .ok (.count l) ∧
      (op.cut c).perform.answer (a.mirror c) = .ok (.count (min l c)) := by
  cases op with
  | limit => exact ⟨_, rfl, rfl⟩
  | setLimit n =>
    have hlimit := Store.boundedBy_cut c n
    refine ⟨_, rfl, ?_⟩
    cases n <;> exact congrArg (Except.ok <| Reply.count ·) hlimit
  | _ => cases hop

/-- The arena behind some operations, where the allocator grants `c` slots and refuses all
others. -/
def ofCapacity (c refused : Nat) (ops : List (Op (Option Handle) Handle α)) : Arena α :=
  (empty (.fixed c false refused)).run (ops.map .call)

/-- The arena behind the same operations with bounds that are cut to `c`, where the allocator grants
every slot and the initial bound is cut to `c` as well. -/
def ofLimit (c : Nat) (ops : List (Op (Option Handle) Handle α)) : Arena α :=
  Arena.run ((empty .global).rebound (min (Store.empty : Store α).limit c) .global)
    (ops.map fun op => .call (op.cut c))

/-- A capacity of `c` slots and a bound of `c` live nodes cannot be told apart. After the same
operations both arenas answer each operation alike, where only those that tell the bound tell
another one, and they have the same counters, the same number of slots and the same journal. -/
theorem capacity_acts_as_limit (c refused : Nat) (ops : List (Op (Option Handle) Handle α)) :
    (∀ op : Op (Option Handle) Handle α,
      (op.tellsBound = false →
        (op.cut c).perform.answer (ofLimit c ops) =
          op.perform.answer (ofCapacity c refused ops)) ∧
      (op.tellsBound = true →
        ∃ l, op.perform.answer (ofCapacity c refused ops) = .ok (.count l) ∧
          (op.cut c).perform.answer (ofLimit c ops) = .ok (.count (min l c)))) ∧
    (ofLimit c ops).store.live = (ofCapacity c refused ops).store.live ∧
    (ofLimit c ops).store.stats = (ofCapacity c refused ops).store.stats ∧
    (∀ mark, (ofLimit c ops).store.liveSince mark =
      (ofCapacity c refused ops).store.liveSince mark) ∧
    (ofLimit c ops).store.slots.size = (ofCapacity c refused ops).store.slots.size ∧
    (ofLimit c ops).journal = (ofCapacity c refused ops).journal := by
  have hempty : (empty (.fixed c false refused) : Arena α).Cramped c :=
    ⟨.empty, Nat.zero_le c, refused, rfl⟩
  obtain ⟨hcramped, hmirror⟩ := hempty.run_mirror ops
  have hlimit : ofLimit c ops = (ofCapacity c refused ops).mirror c := hmirror
  rw [hlimit]
  refine ⟨fun op => ⟨fun hop => ?_, answer_mirror⟩, rfl, rfl, fun _ => rfl, rfl, rfl⟩
  rw [Op.cut_of_not_tells hop]
  exact (hcramped.blindAt_mirror hop).answer_eq

end Arena

end CheckedLists
