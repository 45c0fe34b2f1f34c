import CheckedLists.Proofs.Chain
import Mathlib.Data.List.Basic

/-!
# Walks follow chains

A walk from a place with a chain reads off the chain: its last node, whether a
node is on it, its length, its values. As many steps suffice as the chain has
nodes, and more of them change nothing. A walk from a handle that is not live
ends with the fault of its lookup.
-/

namespace CheckedLists.Store

variable {α σ : Type} {s : Store α} {place : Option Handle} {h last : Handle}
  {hs : List Handle} {n : Node α} {f : Fault}

/-- The values of the live nodes among some handles, in their order. -/
def valuesOf (s : Store α) (hs : List Handle) : List α :=
  hs.filterMap fun h => (s.get h).toOption

/-- Ask `p` about one value after the other, up to the first one that it denies. -/
def askEach (p : α → StateM σ Bool) : List α → σ → Bool × σ
  | [], asked => (true, asked)
  | v :: vs, asked =>
    match p v asked with
    | (true, asked) => askEach p vs asked
    | (false, asked) => (false, asked)

/-- The value of a live node comes first among those from it on. -/
theorem valuesOf_cons (hn : s.lookup h = .ok n) (hs : List Handle) :
    s.valuesOf (h :: hs) = n.value :: s.valuesOf hs := by
  simp [valuesOf, get, hn, Except.map, Except.toOption]

/-- The values of live nodes, place by place. -/
theorem getElem?_valuesOf (hlive : ∀ h ∈ hs, s.isLive h = true) (i : Nat) :
    (s.valuesOf hs)[i]? = hs[i]?.bind fun h => (s.get h).toOption := by
  induction hs generalizing i with
  | nil => rfl
  | cons h hs ih =>
    obtain ⟨n, hn⟩ := isLive_iff.mp (hlive h List.mem_cons_self)
    rw [valuesOf_cons hn]
    cases i with
    | zero => simp [get, hn, Except.map, Except.toOption]
    | succ i => exact ih (fun p hp => hlive p (List.mem_cons_of_mem h hp)) i

theorem valuesOf_append (s : Store α) (hs ks : List Handle) :
    s.valuesOf (hs ++ ks) = s.valuesOf hs ++ s.valuesOf ks :=
  List.filterMap_append

theorem valuesOf_congr {t : Store α} (hget : ∀ p ∈ hs, t.get p = s.get p) :
    t.valuesOf hs = s.valuesOf hs := by
  apply List.filterMap_congr
  intro p hp
  rw [hget p hp]

/-- A chain has as many values as nodes. -/
theorem Chain.length_valuesOf (hc : s.Chain place hs) : (s.valuesOf hs).length = hs.length := by
  induction hc with
  | nil => rfl
  | cons hn _ ih =>
    obtain ⟨n, hl, _⟩ := next_eq_ok_iff.mp hn
    rw [valuesOf_cons hl, List.length_cons, List.length_cons, ih]

theorem advance_of_lookup (hn : s.lookup h = .ok n) :
    s.advance ⟨some h⟩ = .ok (some n.value, ⟨n.next⟩) := by
  simp [advance, hn]

/-- The walk to the last node of a list finds the last node of its chain. -/
theorem lastFrom_of_chain (hc : s.Chain (some h) hs) (hlast : hs.getLast? = some last)
    {fuel : Nat} (hf : hs.length ≤ fuel + 1) : s.lastFrom fuel h = .ok last := by
  induction hs generalizing h fuel with
  | nil => cases hlast
  | cons p hs ih =>
    cases hc with
    | cons hn hrest =>
      obtain ⟨n, hl, rfl⟩ := next_eq_ok_iff.mp hn
      cases hnext : n.next with
      | none =>
        rw [hnext] at hrest
        cases hrest
        obtain rfl : p = last := by simpa using hlast
        unfold lastFrom
        simp [hl, hnext]
      | some q =>
        rw [hnext] at hrest
        obtain ⟨_, ks, rfl, _, _⟩ := hrest.eq_cons
        cases fuel with
        | zero => simp at hf
        | succ fuel =>
          unfold lastFrom
          simp only [hl, hnext]
          exact ih hrest (by simpa using hlast) (by simpa using hf)

theorem lastFrom_of_error (hf : s.lookup h = .error f) (fuel : Nat) :
    s.lastFrom fuel h = .error (.error f) := by
  unfold lastFrom
  rw [hf]

/-- The search for a node finds it exactly if it is on the chain. -/
theorem reachesFrom_of_chain (target : Handle) (hc : s.Chain place hs) {fuel : Nat}
    (hf : hs.length ≤ fuel) : s.reachesFrom target fuel place = .ok (decide (target ∈ hs)) := by
  induction hc generalizing fuel with
  | nil => unfold reachesFrom; simp
  | @cons h place hs hn _ ih =>
    obtain ⟨n, hl, rfl⟩ := next_eq_ok_iff.mp hn
    cases fuel with
    | zero => simp at hf
    | succ fuel =>
      unfold reachesFrom
      by_cases he : h = target
      · simp [he]
      · simp only [if_neg he, hl]
        rw [ih (by simpa using hf)]
        simp [Ne.symm he]

/-- Counting the values from a cursor on counts the nodes of the chain. -/
theorem countFrom_of_chain (hc : s.Chain place hs) {fuel : Nat} (hf : hs.length ≤ fuel) :
    s.countFrom fuel ⟨place⟩ = .ok hs.length := by
  induction hc generalizing fuel with
  | nil => unfold countFrom; rfl
  | cons hn _ ih =>
    obtain ⟨n, hl, rfl⟩ := next_eq_ok_iff.mp hn
    cases fuel with
    | zero => simp at hf
    | succ fuel =>
      unfold countFrom
      rw [advance_of_lookup hl]
      change (s.countFrom fuel ⟨n.next⟩ >>= fun k => pure (k + 1)) = _
      rw [ih (by simpa using hf)]
      rfl

/-- Collecting the values from a cursor on gives the values of the chain. -/
theorem collectFrom_of_chain (hc : s.Chain place hs) {fuel : Nat} (hf : hs.length ≤ fuel) :
    s.collectFrom fuel ⟨place⟩ = .ok (s.valuesOf hs) := by
  induction hc generalizing fuel with
  | nil => unfold collectFrom; rfl
  | cons hn _ ih =>
    obtain ⟨n, hl, rfl⟩ := next_eq_ok_iff.mp hn
    cases fuel with
    | zero => simp at hf
    | succ fuel =>
      unfold collectFrom
      rw [advance_of_lookup hl, valuesOf_cons hl]
      change (s.collectFrom fuel ⟨n.next⟩ >>= fun vs => pure (n.value :: vs)) = _
      rw [ih (by simpa using hf)]
      rfl

/-- Asking about the values from a cursor on asks about the values of the chain. -/
theorem allFrom_of_chain (p : α → StateM σ Bool) (hc : s.Chain place hs) {fuel : Nat}
    (hf : hs.length ≤ fuel) (asked : σ) :
    s.allFrom p fuel ⟨place⟩ asked =
      .ok (askEach p (s.valuesOf hs) asked).1 (askEach p (s.valuesOf hs) asked).2 := by
  induction hc generalizing fuel asked with
  | nil => unfold allFrom; rfl
  | cons hn _ ih =>
    obtain ⟨n, hl, rfl⟩ := next_eq_ok_iff.mp hn
    cases fuel with
    | zero => simp at hf
    | succ fuel =>
      unfold allFrom
      rw [advance_of_lookup hl, valuesOf_cons hl, askEach]
      have hask : (modifyGet (p n.value) : EStateM (Abort Fault) σ Bool) asked =
          .ok (p n.value asked).1 (p n.value asked).2 := rfl
      simp only [bind, EStateM.bind, hask]
      cases hp : p n.value asked with
      | mk holds asked' =>
        cases holds with
        | true => exact ih (by simpa using hf) asked'
        | false => rfl

/-- A cursor that has come to the end of its list stays there. -/
theorem advances_none (s : Store α) (steps : Nat) :
    s.advances (steps + 1) ⟨none⟩ =
      (s.advances steps ⟨none⟩).map fun rest => (none, ⟨none⟩) :: rest := by
  rw [advances]
  change (s.advances steps ⟨none⟩ >>= _) = _
  cases s.advances steps ⟨none⟩ <;> rfl

/-- A cursor on a live node answers its value and goes on to its successor. -/
theorem advances_of_lookup (hn : s.lookup h = .ok n) (steps : Nat) :
    s.advances (steps + 1) ⟨some h⟩ =
      (s.advances steps ⟨n.next⟩).map fun rest => (some n.value, ⟨n.next⟩) :: rest := by
  rw [advances, advance_of_lookup hn]
  change (s.advances steps ⟨n.next⟩ >>= _) = _
  cases s.advances steps ⟨n.next⟩ <;> rfl

/-- A cursor gives the values of the chain one by one, and none from its end on. -/
theorem advances_of_chain (hc : s.Chain place hs) (steps : Nat) :
    ∃ answers, s.advances steps ⟨place⟩ = .ok answers ∧
      answers.map Prod.fst = (List.range steps).map fun i => (s.valuesOf hs)[i]? := by
  induction steps generalizing place hs with
  | zero => exact ⟨[], rfl, rfl⟩
  | succ steps ih =>
    cases hc with
    | nil =>
      obtain ⟨answers, ha, hm⟩ := ih .nil
      refine ⟨(none, ⟨none⟩) :: answers, ?_, ?_⟩
      · rw [advances_none, ha]
        rfl
      · rw [List.range_succ_eq_map, List.map_cons, List.map_cons, hm]
        simp [valuesOf, Function.comp_def]
    | cons hn hrest =>
      obtain ⟨n, hl, rfl⟩ := next_eq_ok_iff.mp hn
      obtain ⟨answers, ha, hm⟩ := ih hrest
      refine ⟨(some n.value, ⟨n.next⟩) :: answers, ?_, ?_⟩
      · rw [advances_of_lookup hl, ha]
        rfl
      · rw [List.range_succ_eq_map, List.map_cons, List.map_cons, hm, valuesOf_cons hl]
        simp [Function.comp_def]

/-- A cursor can be put on the head of a chain. -/
theorem cursor_of_chain (hc : s.Chain place hs) : s.cursor place = .ok ⟨place⟩ := by
  cases hc with
  | nil => rfl
  | cons hn _ =>
    obtain ⟨n, hl, _⟩ := next_eq_ok_iff.mp hn
    simp [cursor, hl, Except.map]

theorem cursor_of_error (hf : s.lookup h = .error f) : s.cursor (some h) = .error f := by
  simp [cursor, hf, Except.map]

/-- A cursor put on the head of a chain gives its values one by one, and none from its end on. -/
theorem iterate_of_chain (hc : s.Chain place hs) (steps : Nat) :
    ∃ answers, s.iterate place steps = .ok (⟨place⟩, answers) ∧
      answers.map Prod.fst = (List.range steps).map fun i => (s.valuesOf hs)[i]? := by
  obtain ⟨answers, ha, hm⟩ := advances_of_chain hc steps
  refine ⟨answers, ?_, hm⟩
  rw [iterate, cursor_of_chain hc]
  change (s.advances steps ⟨place⟩ >>= _) = _
  rw [ha]
  rfl

theorem length_of_error (hf : s.lookup h = .error f) : s.length (some h) = .error (.error f) := by
  rw [length, cursor_of_error hf]
  rfl

theorem values_of_error (hf : s.lookup h = .error f) : s.values (some h) = .error (.error f) := by
  rw [values, cursor_of_error hf]
  rfl

theorem iterate_of_error (hf : s.lookup h = .error f) (steps : Nat) :
    s.iterate (some h) steps = .error (.error f) := by
  rw [iterate, cursor_of_error hf]
  rfl

theorem all_of_error (hf : s.lookup h = .error f) (p : α → StateM σ Bool) (asked : σ) :
    s.all (some h) p asked = .error (.error f) asked := by
  rw [all, cursor_of_error hf]
  rfl

/-! Walks read a store by its lookups, and as many steps suffice as nodes are live. -/

section Congr

variable {t : Store α} (hl : ∀ p, t.lookup p = s.lookup p)

include hl

theorem lastFrom_congr (fuel : Nat) (h : Handle) : t.lastFrom fuel h = s.lastFrom fuel h := by
  induction fuel generalizing h with
  | zero =>
    unfold lastFrom
    rw [hl]
    cases s.lookup h with
    | error f => rfl
    | ok n => cases hn : n.next <;> simp only [hn]
  | succ fuel ih =>
    unfold lastFrom
    rw [hl]
    cases s.lookup h with
    | error f => rfl
    | ok n => cases hn : n.next <;> simp only [hn, ih]

theorem reachesFrom_congr (target : Handle) (fuel : Nat) (place : Option Handle) :
    t.reachesFrom target fuel place = s.reachesFrom target fuel place := by
  induction fuel generalizing place with
  | zero => cases place <;> rfl
  | succ fuel ih =>
    cases place with
    | none => rfl
    | some q => simp only [reachesFrom, hl, ih]

theorem advance_congr (c : Cursor) : t.advance c = s.advance c := by
  simp only [advance, hl]

theorem advances_congr (steps : Nat) (c : Cursor) : t.advances steps c = s.advances steps c := by
  induction steps generalizing c with
  | zero => rfl
  | succ steps ih => simp only [advances, advance_congr hl, ih]

theorem countFrom_congr (fuel : Nat) (c : Cursor) : t.countFrom fuel c = s.countFrom fuel c := by
  induction fuel generalizing c with
  | zero =>
    unfold countFrom
    simp only [advance_congr hl]
  | succ fuel ih =>
    unfold countFrom
    simp only [advance_congr hl, ih]

theorem collectFrom_congr (fuel : Nat) (c : Cursor) :
    t.collectFrom fuel c = s.collectFrom fuel c := by
  induction fuel generalizing c with
  | zero =>
    unfold collectFrom
    simp only [advance_congr hl]
  | succ fuel ih =>
    unfold collectFrom
    simp only [advance_congr hl, ih]

theorem allFrom_congr (p : α → StateM σ Bool) (fuel : Nat) (c : Cursor) :
    t.allFrom p fuel c = s.allFrom p fuel c := by
  induction fuel generalizing c with
  | zero =>
    unfold allFrom
    simp only [advance_congr hl]
  | succ fuel ih =>
    unfold allFrom
    simp only [advance_congr hl, ih]

theorem cursor_congr (place : Option Handle) : t.cursor place = s.cursor place := by
  cases place with
  | none => rfl
  | some h => simp only [cursor, hl]

end Congr

end CheckedLists.Store
