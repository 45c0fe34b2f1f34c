import CheckedLists.Proofs.Correspondence

/-!
# Histories do not show

Two arenas over the global allocator that hold the same lists under a renaming of
their handles cannot be told apart by operations on live nodes: each operation,
issued to both with corresponding arguments, is answered alike or refused alike, and
leaves arenas that again hold the same lists. How the nodes came to their slots, in
which order slots are used again and how often they were used before has no part in
it. Only the counts over the whole life of a store tell its history.
-/

namespace CheckedLists

variable {α : Type}

/-- Operations leave the global allocator. -/
theorem Op.allocator_perform {a : Arena α} (hs : a.store.Coherent) (hg : a.allocator = .global)
    (op : Op (Option Handle) Handle α) : (op.perform.after a).allocator = .global := by
  cases ht : op.target? with
  | some head =>
    obtain ⟨v, _, hafter, _⟩ := perform_of_target ht a
    rw [hafter, ArenaM.after]
    obtain ⟨f, allocator, hallocator, hrefused⟩ | ⟨_, _, _, _, _, _, _, _, hok⟩ :=
      ArenaM.append_refused_or_grown hs head v
    · rw [hrefused]
      obtain rfl | rfl := hallocator
      · exact hg
      · simp only [hg, Allocator.refuse]
    · rw [hok]
      exact hg
  | none =>
    cases hop : op.tellsBound with
    | false => exact ((blind_perform ht hop).keeps a).2.trans hg
    | true => cases op <;> cases hop <;> exact hg

/-- Two arenas with a renaming of the handles of the first one to handles of the second one. -/
structure Twin (α : Type) where
  /-- The arena that operations are issued to as they are. -/
  left : Arena α
  /-- The arena that operations are issued to under the renaming. -/
  right : Arena α
  /-- The handle in the second arena for each live handle in the first one. -/
  rename : Handle → Handle

namespace Twin

variable {w : Twin α} {op : Op (Option Handle) Handle α} {ops : List (Op (Option Handle) Handle α)}

/-- Issue an operation to both arenas; if it adds a node, the pair of the new handles is added to
the renaming. -/
def step (w : Twin α) (op : Op (Option Handle) Handle α) : Twin α where
  left := op.perform.after w.left
  right := (op.rename w.rename).perform.after w.right
  rename := op.extend w.left.store w.rename w.right.store

/-- Issue some operations to both arenas, one after the other. -/
def run (w : Twin α) (ops : List (Op (Option Handle) Handle α)) : Twin α := ops.foldl step w

/-- Runs lead to both arenas, which are over the global allocator and hold the same lists under the
renaming. -/
structure Alike (w : Twin α) : Prop where
  /-- A run leads to the first arena. -/
  left_reachable : w.left.Reachable
  /-- A run leads to the second arena. -/
  right_reachable : w.right.Reachable
  /-- The first arena is over the global allocator. -/
  left_global : w.left.allocator = .global
  /-- The second arena is over the global allocator. -/
  right_global : w.right.allocator = .global
  /-- The arenas hold the same lists. -/
  renamed : w.left.store.Renamed w.rename w.right.store

/-- An operation that does not tell the history and is given live handles of the first arena. -/
structure Fits (w : Twin α) (op : Op (Option Handle) Handle α) : Prop where
  /-- The operation does not tell the history. -/
  tells_eq : op.tellsHistory = false
  /-- The operation is given live handles. -/
  isLive : ∀ h ∈ op.handles, w.left.store.isLive h = true

/-- An operation is answered alike, and the handles that it issues are paired. -/
structure AnswersAlike (w : Twin α) (op : Op (Option Handle) Handle α) : Prop where
  /-- Both replies or both aborts correspond under the renaming behind the operation. -/
  answer_eq : (op.rename w.rename).perform.answer w.right =
    ((op.perform.answer w.left).map (Reply.rename (w.step op).rename)).mapError
      (Abort.rename (w.step op).rename)
  /-- Live handles keep their names. -/
  rename_eq : ∀ h, w.left.store.isLive h = true → (w.step op).rename h = w.rename h
  /-- A handle that is issued for the first arena has the name of the one for the second arena. -/
  issues : ∀ h, op.Issues w.left h →
    (op.rename w.rename).Issues w.right ((w.step op).rename h)

/-- Both arenas are exhausted at once. -/
theorem Alike.exhausted_iff (hw : w.Alike) : w.right.Exhausted ↔ w.left.Exhausted := by
  have hleft := hw.left_reachable.coherent.slotted
  have hright := hw.right_reachable.coherent.slotted
  rw [Arena.exhausted_iff hleft hw.left_global, Arena.exhausted_iff hright hw.right_global,
    hw.renamed.limit_eq, hw.renamed.live_eq hleft hright]

theorem Alike.corresponds (hw : w.Alike) (hf : w.Fits op) :
    Corresponds (w.step op).rename (Reply.rename (w.step op).rename) (op.perform w.left)
      ((op.rename w.rename).perform w.right) :=
  Op.corresponds_perform hw.left_reachable.coherent hw.right_reachable.coherent hw.renamed
    hw.exhausted_iff hf.tells_eq hf.isLive

/-- An operation leaves the arenas alike. -/
theorem Alike.step (hw : w.Alike) (hf : w.Fits op) : (w.step op).Alike where
  left_reachable := hw.left_reachable.step (.call op)
  right_reachable := hw.right_reachable.step (.call (op.rename w.rename))
  left_global := Op.allocator_perform hw.left_reachable.coherent hw.left_global op
  right_global := Op.allocator_perform hw.right_reachable.coherent hw.right_global _
  renamed := (hw.corresponds hf).renamed

/-- An operation is answered alike by both arenas. -/
theorem Alike.answersAlike (hw : w.Alike) (hf : w.Fits op) : w.AnswersAlike op where
  answer_eq := (hw.corresponds hf).answer_eq
  rename_eq _ hh := Op.extend_of_isLive hw.left_reachable.coherent.slotted hh
  issues h hi := by
    cases ht : op.target? with
    | none =>
      cases hi with
      | alone ht' => cases ht.symm.trans ht'
      | behind ht' => cases ht.symm.trans ht'
    | some head =>
      obtain ⟨hfresh, hlive⟩ := (Op.issues_iff hw.left_reachable.coherent ht).mp hi
      have hname : (w.step op).rename h = w.right.store.fresh := by
        simp only [Twin.step, Op.extend, ht, Store.extend, hfresh, Function.update_self]
      have htarget : (op.rename w.rename).target? = some (head.map w.rename) := by
        rw [Op.target?_rename, ht]
        rfl
      exact (Op.issues_iff hw.right_reachable.coherent htarget).mpr
        ⟨hname, (hw.step hf).renamed.isLive hlive⟩

/-- Operations leave the arenas alike, one after the other. -/
theorem Alike.run (hw : w.Alike)
    (hfit : ∀ k op, ops[k]? = some op → (w.run (ops.take k)).Fits op) (k : Nat) :
    (w.run (ops.take k)).Alike := by
  induction k with
  | zero => exact hw
  | succ k ih =>
    cases hop : ops[k]? with
    | none =>
      rw [List.take_add_one, hop, Option.toList_none, List.append_nil]
      exact ih
    | some op =>
      rw [List.take_add_one, hop, Twin.run, List.foldl_append]
      exact ih.step (hfit k op hop)

/-- Two arenas to which runs lead, over the global allocator, with equal bounds and with the same
lists under a renaming of their live handles, cannot be told apart by operations that do not ask
for counts over the whole life of a store. Whatever operations are issued to both, one after the
other and with live handles that correspond: each of them is answered alike, with equal values,
counts and truth values and with corresponding handles, or is refused alike for corresponding
nodes; and the renaming, with the pairs of new handles added and as far as handles are live still,
again maps the lists of the first arena to those of the second one. -/
theorem histories_do_not_show (w : Twin α) (hw : w.Alike)
    (ops : List (Op (Option Handle) Handle α))
    (hfit : ∀ k op, ops[k]? = some op → (w.run (ops.take k)).Fits op) :
    (∀ k, (w.run (ops.take k)).Alike) ∧
    ∀ k op, ops[k]? = some op → (w.run (ops.take k)).AnswersAlike op := by
  refine ⟨fun k => hw.run hfit k, fun k op hop => ?_⟩
  exact (hw.run hfit k).answersAlike (hfit k op hop)

/-- The arena `reusedSlot`, and one whose only list was created in the order of its nodes. -/
def sameLists : Twin Nat where
  left := reusedSlot
  right := (Arena.empty .global).run
    [.call (.create 30), .call (.append (some ⟨0, 0⟩) 40), .call (.append (some ⟨0, 0⟩) 50)]
  rename h := if h = ⟨2, 0⟩ then ⟨0, 0⟩ else if h = ⟨3, 0⟩ then ⟨1, 0⟩ else ⟨2, 0⟩

/-- Append a node, ask for the successor of the node that was the last one, and try to destroy the
list from its middle. -/
def probes : List (Op (Option Handle) Handle Nat) :=
  [.append (some ⟨2, 0⟩) 60, .next ⟨1, 1⟩, .destroy (some ⟨3, 0⟩)]

/-- The first arena takes the released slot for the new node and the second one a new slot, and the
list can be destroyed from its middle in neither. -/
theorem sameLists_answers :
    sameLists.Alike ∧
    (∀ k op, probes[k]? = some op → (sameLists.run (probes.take k)).Fits op) ∧
    (Op.next ⟨1, 1⟩).perform.answer (sameLists.run (probes.take 1)).left =
      .ok (.list (some ⟨0, 1⟩)) ∧
    (Op.next ⟨2, 0⟩).perform.answer (sameLists.run (probes.take 1)).right =
      .ok (.list (some ⟨3, 0⟩)) ∧
    (Op.destroy (some ⟨1, 0⟩)).perform.answer (sameLists.run (probes.take 2)).right =
      .error (.error (.notHead ⟨1, 0⟩)) := by
  have hleft : sameLists.left.Reachable := ⟨.global, _, rfl⟩
  have hright : sameLists.right.Reachable := ⟨.global, _, rfl⟩
  have hrenamed : sameLists.left.store.Renamed sameLists.rename sameLists.right.store :=
    hleft.coherent.slotted.renamed_of_perm hright.coherent.slotted (by decide) (by decide)
      (by decide) rfl
  have halike : sameLists.Alike := ⟨hleft, hright, rfl, rfl, hrenamed⟩
  have hfit : ∀ k op, probes[k]? = some op → (sameLists.run (probes.take k)).Fits op := by
    rintro (_ | _ | _ | k) op hop <;> cases hop <;> exact ⟨rfl, by decide⟩
  obtain ⟨_, hanswers⟩ := histories_do_not_show sameLists halike probes hfit
  exact ⟨halike, hfit, rfl, (hanswers 1 _ rfl).answer_eq, (hanswers 2 _ rfl).answer_eq⟩

end Twin

end CheckedLists
