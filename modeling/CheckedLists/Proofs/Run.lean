import CheckedLists.Proofs.Effect

/-!
# Runs

A run starts from an arena without nodes. Operations are performed one after the
other with whatever arguments, those with handles of no node among them, and
each may be carried out, refused or end in a panic. Between two of them the
allocator may become another one, which stands for all that an allocator does on
its own: it may grant a slot now and refuse the next one.

Every arena that a run leads to is coherent. The main statements spell out what
this says about the links and about the slots.
-/

namespace CheckedLists

variable {α β γ : Type} {a : Arena α}

/-- The arena that a computation leaves, whether or not it ends early. -/
def ArenaM.after (c : ArenaM α β) (a : Arena α) : Arena α :=
  match c a with
  | .ok _ a | .error _ a => a

/-- A change of the result does not matter. -/
theorem ArenaM.after_map (g : β → γ) (c : ArenaM α β) (a : Arena α) :
    (g <$> c).after a = c.after a := by
  unfold after
  rw [map_apply]
  cases c a <;> rfl

/-- It does not matter whether a refusal is a panic. -/
theorem ArenaM.after_orPanic (c : ArenaM α β) (a : Arena α) : c.orPanic.after a = c.after a := by
  unfold after orPanic
  cases c a with
  | ok => rfl
  | error e => cases e <;> rfl

theorem ArenaM.after_read (g : Store α → Except Fault β) (a : Arena α) :
    (read g).after a = a := by
  rw [after, read_apply]
  cases g a.store <;> rfl

theorem ArenaM.after_walk (g : Store α → Except (Abort Fault) β) (a : Arena α) :
    (walk g).after a = a := by
  rw [after, walk_apply]
  cases g a.store <;> rfl

/-- Something that happens to an arena. -/
inductive Event (α : Type) where
  /-- An operation is performed. -/
  | call (op : Op (Option Handle) Handle α)
  /-- The allocator becomes another one. -/
  | supply (allocator : Allocator)

namespace Arena

/-- The arena behind an event. -/
def step (a : Arena α) : Event α → Arena α
  | .call op => ArenaM.after op.perform a
  | .supply allocator => { a with allocator := allocator }

/-- The arena behind some events, one after the other. -/
def run (a : Arena α) (events : List (Event α)) : Arena α := events.foldl step a

/-- The arenas to which runs lead. -/
def Reachable (a : Arena α) : Prop := ∃ allocator events, a = (empty allocator).run events

theorem run_append (a : Arena α) (events more : List (Event α)) :
    a.run (events ++ more) = (a.run events).run more :=
  List.foldl_append

/-- What every event keeps is kept by runs. -/
theorem run_induction {P : Arena α → Prop} (hstep : ∀ {a} e, P a → P (a.step e)) (ha : P a)
    (events : List (Event α)) : P (a.run events) := by
  induction events generalizing a with
  | nil => exact ha
  | cons e events ih => exact ih (hstep e ha)

/-- An event has an effect on the store. -/
theorem leaves_step (hs : a.store.Coherent) (e : Event α) :
    ∃ t records, a.store.Effect t records ∧ (a.step e).store = t ∧
      (a.step e).journal = a.journal ++ records.toArray := by
  cases e with
  | supply allocator => exact ⟨_, [], .idle, rfl, by simp [step]⟩
  | call op =>
    obtain ⟨r, a', hok, t, records, he, rfl⟩ | ⟨e, allocator, herror, _⟩ := op.settles_perform hs
    · refine ⟨t, records, he, ?_, ?_⟩ <;> rw [step, ArenaM.after, hok] <;> rfl
    · refine ⟨_, [], .idle, ?_, ?_⟩ <;> rw [step, ArenaM.after, herror]
      simp

/-- An event keeps the store coherent. -/
theorem coherent_step (e : Event α) (hs : a.store.Coherent) : (a.step e).store.Coherent := by
  obtain ⟨t, records, he, ht, _⟩ := leaves_step hs e
  rw [ht]
  exact he.coherent hs

/-- Runs lead to coherent stores only. -/
theorem Reachable.coherent (ha : a.Reachable) : a.store.Coherent := by
  obtain ⟨allocator, events, rfl⟩ := ha
  exact run_induction (P := fun a => a.store.Coherent) coherent_step .empty events

/-- What an event leaves of an arena that a run leads to, a run leads to as well. -/
theorem Reachable.step (ha : a.Reachable) (e : Event α) : (a.step e).Reachable := by
  obtain ⟨allocator, events, rfl⟩ := ha
  exact ⟨allocator, events ++ [e], by rw [run_append]; rfl⟩

end Arena

/-- In every arena that a run leads to, the live nodes form disjoint finite chains. Each node in a
slot is live under a handle; each successor is live; a node is owned exactly if one node has it as
successor, and not owned exactly if none has; no node leads back to itself; and the chains of
different heads have no node in common. -/
theorem live_nodes_form_disjoint_chains (ha : a.Reachable) :
    (∀ i n, a.store.slots[i]? = some (.occupied n) →
      ∃ p : Handle, p.slot = i ∧ a.store.lookup p = .ok n) ∧
    (∀ p n, a.store.lookup p = .ok n →
      n.next = none ∨ ∃ q, n.next = some q ∧ a.store.isLive q = true) ∧
    (∀ q m, a.store.lookup q = .ok m →
      (m.owned = true ↔ ∃! p, a.store.Leads p q) ∧
      (m.owned = false ↔ ∀ p, ¬ a.store.Leads p q)) ∧
    (∀ p q r, a.store.Leads p r → a.store.Leads q r → p = q) ∧
    (∀ p, ¬ Relation.TransGen a.store.Leads p p) ∧
    (∀ p, a.store.isLive p = true → ∃ hs, a.store.Chain (some p) hs ∧ hs.Nodup) ∧
    ∀ p q hs ks, ¬ a.store.Owned p → ¬ a.store.Owned q → p ≠ q →
      a.store.Chain (some p) hs → a.store.Chain (some q) ks → ∀ h ∈ hs, h ∉ ks := by
  have hs := ha.coherent
  have hl := hs.linked
  refine ⟨fun i n hi => hs.slotted.exists_lookup hi, fun p n hn => hl.next_live hn,
    fun q m hm => ⟨hl.owned_eq_true_iff hm, hl.owned_eq_false_iff hm⟩, fun p q r => hl.single,
    hl.not_transGen, fun p hp => ?_, fun p q hs ks hp hq hne hhs hks => ?_⟩
  · obtain ⟨hs, hc⟩ := hl.exists_chain hp
    exact ⟨hs, hc, hc.nodup⟩
  · exact hl.disjoint hne hp hq hhs hks

/-- A few operations: a list of two nodes is destroyed, the slot of its second node is used again
for the end of another list, and a link from a released node is refused. -/
def slotReuse : List (Event Nat) :=
  [.call (.create 10), .call (.create 20), .call (.link ⟨0, 0⟩ ⟨1, 0⟩), .call (.create 30),
    .call (.append (some ⟨2, 0⟩) 40), .call (.destroy (some ⟨0, 0⟩)),
    .call (.append (some ⟨2, 0⟩) 50), .call (.link ⟨0, 0⟩ ⟨2, 0⟩)]

/-- The arena behind these operations. -/
def reusedSlot : Arena Nat := (Arena.empty .global).run slotReuse

/-- The node in the slot that was used again has one predecessor, the head of its list has none,
and the links close no cycle. -/
theorem reusedSlot_links :
    reusedSlot.Reachable ∧
    reusedSlot.store.lookup ⟨1, 1⟩ = .ok ⟨50, none, true, 1, 4⟩ ∧
    (∃! p, reusedSlot.store.Leads p ⟨1, 1⟩) ∧
    (∀ p, ¬ reusedSlot.store.Leads p ⟨2, 0⟩) ∧
    (∀ p, ¬ Relation.TransGen reusedSlot.store.Leads p p) ∧
    ∃ hs, reusedSlot.store.Chain (some ⟨2, 0⟩) hs ∧ hs.Nodup := by
  have ha : reusedSlot.Reachable := ⟨.global, _, rfl⟩
  obtain ⟨_, _, howned, _, hacyclic, hchain, _⟩ := live_nodes_form_disjoint_chains ha
  have hend : reusedSlot.store.lookup ⟨1, 1⟩ = .ok ⟨50, none, true, 1, 4⟩ := rfl
  have hhead : reusedSlot.store.lookup ⟨2, 0⟩ = .ok ⟨30, some ⟨3, 0⟩, false, 0, 2⟩ := rfl
  exact ⟨ha, hend, (howned _ _ hend).1.mp rfl, (howned _ _ hhead).2.mp rfl, hacyclic,
    hchain _ rfl⟩

/-- In every arena that a run leads to, the free list runs over every vacant slot once and over no
other slot, the counters agree with the slots, and all slots can be named by handles. -/
theorem free_list_and_counters_agree_with_slots (ha : a.Reachable) :
    (∃ is, a.store.FreeList a.store.free is ∧ is.Nodup ∧
      ∀ i, a.store.Vacant i ↔ ∃ j ∈ is, j.toNat = i) ∧
    a.store.live = a.store.slots.countP Slot.isOccupied ∧
    a.store.stats.created = a.store.stats.released + a.store.live ∧
    a.store.limit ≤ UInt32.size - 1 ∧ a.store.slots.size ≤ UInt32.size - 1 := by
  have hs := ha.coherent.slotted
  exact ⟨hs.exists_freeList, hs.live_eq, hs.created_eq, hs.limit_le, hs.size_le⟩

/-- One slot is vacant and on the free list, and three nodes of five are left. -/
theorem reusedSlot_slots :
    reusedSlot.Reachable ∧ reusedSlot.store.Vacant 0 ∧
    (∃ is, reusedSlot.store.FreeList reusedSlot.store.free is ∧ is.Nodup ∧
      ∃ j ∈ is, j.toNat = 0) ∧
    reusedSlot.store.slots.countP Slot.isOccupied = 3 ∧ reusedSlot.store.stats = ⟨5, 2⟩ := by
  have ha : reusedSlot.Reachable := ⟨.global, _, rfl⟩
  have hvacant : reusedSlot.store.Vacant 0 := ⟨_, _, rfl⟩
  obtain ⟨⟨is, hfree, hnodup, hmem⟩, hlive, _⟩ := free_list_and_counters_agree_with_slots ha
  exact ⟨ha, hvacant, ⟨is, hfree, hnodup, (hmem 0).mp hvacant⟩, hlive.symm, rfl⟩

end CheckedLists
