import CheckedLists.Proofs.Slotted
import CheckedLists.Proofs.Walk

/-!
# Coherent stores

A store is coherent if its links and its slots are sound. Every change that an
operation makes between its beginning and its end leads from a coherent store to
a coherent one. In a coherent store every list is finite and has at most as many
nodes as are live, so that every walk along it comes to its end.
-/

namespace CheckedLists.Store

variable {α : Type} {s t : Store α} {place : Option Handle} {a b h : Handle}
  {hs ks : List Handle} {n : Node α} {v : α}

/-- The links and the slots of a store are sound, and no list is being destroyed. -/
structure Coherent (s : Store α) : Prop where
  /-- The links are sound. -/
  linked : s.Linked none
  /-- The slots are sound. -/
  slotted : s.Slotted

/-- Release some nodes one after the other. -/
def vacateAll (s : Store α) (hs : List Handle) : Store α := hs.foldl vacate s

/-- Releasing the list at the entry leaves no entry. -/
theorem coherent_vacateAll (hl : s.Linked place) (hs : s.Slotted) (hc : s.Chain place ks) :
    (s.vacateAll ks).Coherent := by
  induction ks generalizing s place with
  | nil =>
    cases hc
    exact ⟨hl, hs⟩
  | cons h ks ih =>
    cases hc with
    | cons hn hrest =>
      obtain ⟨n, hlookup, rfl⟩ := next_eq_ok_iff.mp hn
      have hbehind := hl.chain_vacate hlookup hrest (hl.next_ne hlookup)
      exact ih (hl.vacate hlookup) (hs.vacate hlookup) hbehind

namespace Coherent

/-- A store without slots is coherent. -/
theorem empty : (Store.empty : Store α).Coherent := ⟨linked_empty, slotted_empty⟩

theorem created (hs : s.Coherent) (hc : s.Created v h t) : t.Coherent :=
  ⟨hs.linked.created hc, hs.slotted.created hc⟩

/-- A link from the end of one list to the head of another one keeps a store coherent. -/
theorem join (hs : s.Coherent) (ha : s.next a = .ok none) (hb : s.Chain (some b) ks)
    (hhead : ¬ s.Owned b) (hab : a ∉ ks) : (s.join a b).Coherent :=
  ⟨hs.linked.join ha hb hhead hab, hs.slotted.join a b⟩

/-- Releasing a whole list keeps a store coherent. -/
theorem vacateAll (hs : s.Coherent) (hhead : ¬ s.Owned h) (hc : s.Chain (some h) ks) :
    (s.vacateAll ks).Coherent := by
  have hlive : s.isLive h = true := hc.isLive hc.head_mem
  exact coherent_vacateAll (hs.linked.enter hlive hhead) hs.slotted hc

/-- Changing the value of a node keeps a store coherent. -/
theorem alter_value (hs : s.Coherent) (h : Handle) (f : Node α → α) :
    (s.alter h fun n => { n with value := f n }).Coherent := by
  refine ⟨hs.linked.congr (fun p => ?_) fun p => ?_, hs.slotted.alter h _⟩
  · exact next_alter (by intro; rfl) (by intro; rfl)
  · exact owned_alter (by intro; rfl) (by intro; rfl)

theorem setLimit (hs : s.Coherent) (limit : Option Nat) : (s.setLimit limit).Coherent :=
  ⟨hs.linked.congr (fun _ => rfl) fun _ => Iff.rfl, hs.slotted.setLimit limit⟩

/-- The chain of a place has at most as many nodes as are live. -/
theorem length_le_live (hs : s.Coherent) (hc : s.Chain place ks) : ks.length ≤ s.live :=
  hs.slotted.length_le_live hc.nodup fun _ => hc.isLive

/-- Every live node has a chain that ends in some node. -/
theorem exists_chain (hs : s.Coherent) (hn : s.lookup h = .ok n) :
    ∃ ks last, s.Chain (some h) ks ∧ ks.getLast? = some last := by
  obtain ⟨ks, hc⟩ := hs.linked.exists_chain (isLive_iff.mpr ⟨n, hn⟩)
  obtain ⟨_, ps, rfl, _, _⟩ := hc.eq_cons
  exact ⟨_, _, hc, List.getLast?_eq_some_getLast (List.cons_ne_nil _ _)⟩

/-- A list whose head is live, or that is empty, can be walked along. -/
theorem exists_chain_of_live (hs : s.Coherent) (hplace : ∀ h ∈ place, s.isLive h = true) :
    ∃ ks, s.Chain place ks := by
  cases place with
  | none => exact ⟨[], .nil⟩
  | some h => exact hs.linked.exists_chain (hplace h rfl)

/-- A list can be walked along, or it is given by a handle that is not live. -/
theorem chain_or_error (hs : s.Coherent) (place : Option Handle) :
    (∃ ks, s.Chain place ks) ∨ ∃ h f, place = some h ∧ s.lookup h = .error f := by
  cases place with
  | none => exact .inl ⟨[], .nil⟩
  | some h =>
    cases hl : s.lookup h with
    | error f => exact .inr ⟨h, f, rfl, hl⟩
    | ok n =>
      obtain ⟨ks, _, hc, _⟩ := hs.exists_chain hl
      exact .inl ⟨ks, hc⟩

/-- The last node of a list is the last one of its chain. -/
theorem last_eq (hs : s.Coherent) (hc : s.Chain (some h) ks) (hlast : ks.getLast? = some a) :
    s.last h = .ok a :=
  lastFrom_of_chain hc hlast (Nat.le_succ_of_le (hs.length_le_live hc))

theorem reaches_eq (hs : s.Coherent) (hc : s.Chain (some b) ks) (a : Handle) :
    s.reaches b a = .ok (decide (a ∈ ks)) :=
  reachesFrom_of_chain a hc (hs.length_le_live hc)

theorem length_eq (hs : s.Coherent) (hc : s.Chain place ks) :
    s.length place = .ok ks.length := by
  rw [length, cursor_of_chain hc]
  exact countFrom_of_chain hc (hs.length_le_live hc)

theorem values_eq (hs : s.Coherent) (hc : s.Chain place ks) :
    s.values place = .ok (s.valuesOf ks) := by
  rw [values, cursor_of_chain hc]
  exact collectFrom_of_chain hc (hs.length_le_live hc)

/-- A question about all values of a list is asked about the values of its chain. -/
theorem all_eq {σ : Type} (hs : s.Coherent) (hc : s.Chain place ks) (p : α → StateM σ Bool)
    (asked : σ) :
    s.all place p asked =
      .ok (askEach p (s.valuesOf ks) asked).1 (askEach p (s.valuesOf ks) asked).2 := by
  rw [all, cursor_of_chain hc]
  exact allFrom_of_chain p hc (hs.length_le_live hc) asked

end Coherent

end CheckedLists.Store
