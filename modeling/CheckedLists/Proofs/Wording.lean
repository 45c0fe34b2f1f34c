import CheckedLists.Outcome
import Mathlib.Data.List.Nodup

/-!
# Wordings that can be read in one way only

A decimal ends where its digits end, so the text of a handle can be told from whatever
follows it, and shows one index and one generation. The wording of a fault begins with a
letter that belongs to its cause, with a handle, or with a number; the three causes whose
wordings begin with the handle differ right behind it. The wordings of outcomes differ in
their first letters, and what stands behind the fixed part is a label or the wording of a
fault. Hence an outcome is known from its wording, whatever the label, the handle or the
number in it.
-/

namespace CheckedLists

/-! ## Decimals -/

section Decimals

variable {m n : Nat} {c d : Char} {s t : List Char}

/-- A number is known from its digits. -/
theorem toDigits_inj : Nat.toDigits 10 m = Nat.toDigits 10 n ↔ m = n := by
  constructor
  · intro h
    calc
      m = Nat.ofDigitChars 10 (Nat.toDigits 10 m) 0 := Nat.ofDigitChars_ten_toDigits.symm
      _ = Nat.ofDigitChars 10 (Nat.toDigits 10 n) 0 := by rw [h]
      _ = n := Nat.ofDigitChars_ten_toDigits
  · rintro rfl
    rfl

/-- The digits that a text begins with are those of a decimal if no further digit follows it. -/
theorem takeWhile_isDigit_toDigits (hc : c.isDigit = false) :
    (Nat.toDigits 10 n ++ c :: s).takeWhile Char.isDigit = Nat.toDigits 10 n := by
  rw [List.takeWhile_append_of_pos fun _ he =>
    Nat.isDigit_of_mem_toDigits (by decide) (by decide) he]
  simp [hc]

/-- A decimal that no further digit follows can be told from what follows it. -/
theorem toDigits_append_cons_inj (hc : c.isDigit = false) (hd : d.isDigit = false) :
    Nat.toDigits 10 m ++ c :: s = Nat.toDigits 10 n ++ d :: t ↔ m = n ∧ c = d ∧ s = t := by
  constructor
  · intro h
    have hdigits : Nat.toDigits 10 m = Nat.toDigits 10 n := by
      rw [← takeWhile_isDigit_toDigits hc, h, takeWhile_isDigit_toDigits hd]
    rw [hdigits, List.append_cancel_left_eq] at h
    exact ⟨toDigits_inj.mp hdigits, List.cons.inj h⟩
  · rintro ⟨rfl, rfl, rfl⟩
    rfl

/-- A text that begins with a decimal begins with no other character than a digit. -/
theorem filter_head?_toDigits_append (n : Nat) (s : List Char) :
    ((Nat.toDigits 10 n ++ s).head?.filter fun c => !c.isDigit) = none := by
  obtain ⟨c, cs, hdigits⟩ :=
    List.exists_cons_of_ne_nil (Nat.toDigits_ne_nil (n := n) (b := 10))
  have hc : c ∈ Nat.toDigits 10 n := by
    rw [hdigits]
    exact List.mem_cons_self
  rw [hdigits, List.cons_append, List.head?_cons]
  simp [Option.filter, Nat.isDigit_of_mem_toDigits (by decide) (by decide) hc]

end Decimals

/-! ## Handles -/

namespace Handle

variable {h k : Handle} {s t : String}

/-- The text of a handle can be told from what follows it. -/
theorem text_append_inj : h.text ++ s = k.text ++ t ↔ h = k ∧ s = t := by
  cases h
  cases k
  rw [← String.toList_inj]
  simp [text_eq, toDigits_append_cons_inj, UInt32.toNat_inj, and_assoc, String.toList_inj]

/-- A handle is known from its text. -/
theorem text_inj : h.text = k.text ↔ h = k := by
  simpa using text_append_inj (h := h) (k := k) (s := "") (t := "")

end Handle

/-! ## Faults -/

namespace Fault

/-- The letter that the wording of a fault begins with, unless it begins with a number. -/
def initial? : Fault → Option Char
  | outOfMemory => some 'o'
  | invalidHandle _ | alreadyLinked _ | notHead _ => some 'P'
  | useAfterRelease _ => some 'u'
  | doubleRelease _ => some 'r'
  | cycle _ => some 'l'
  | leak _ => none

theorem initial?_eq (f : Fault) :
    f.initial? = f.message.toList.head?.filter fun c => !c.isDigit := by
  unfold message
  cases f with
  | leak n =>
    simp only [initial?, Nat.toString_eq_repr, String.toList_append, Nat.toList_repr,
      filter_head?_toDigits_append]
  | _ => simp [initial?, Handle.text_eq, Option.filter]

/-- A fault is known from its wording. -/
theorem message_injective : Function.Injective message := by
  intro f g h
  have hinitial : f.initial? = g.initial? := by rw [initial?_eq, initial?_eq, h]
  -- The texts are to stay as they are, and deriving the equations of `message` evaluates them.
  unfold message at h
  cases f with
  | outOfMemory => cases g <;> simp [initial?] at hinitial ⊢
  | useAfterRelease p | doubleRelease p | cycle p =>
    cases g <;> simp [initial?] at hinitial
    simpa [Handle.text_inj] using h
  | invalidHandle p | alreadyLinked p | notHead p =>
    -- The first letter is that of the handle, so the three are told apart by what follows it.
    cases g <;> simp [initial?] at hinitial
    all_goals
      obtain ⟨rfl, hclosing⟩ := Handle.text_append_inj.mp h
      simp at hclosing ⊢
  | leak n =>
    cases g <;> simp [initial?] at hinitial
    simpa [← String.toList_inj, toDigits_inj] using h

end Fault

/-! ## Outcomes -/

/-- A violation is known from its wording. -/
theorem Violation.message_injective : Function.Injective Violation.message := by
  intro v w h
  have hlabel : v.label = w.label := (String.append_right_inj _).mp h
  cases v
  cases w
  exact congrArg Violation.mk hlabel

namespace Outcome

/-- The letter that the wording of an outcome begins with. -/
def initial : Outcome → Char
  | completed => 'c'
  | pruned => 'p'
  | violated _ => 'i'
  | fault _ => 'f'

theorem head?_message (o : Outcome) : o.message.toList.head? = some o.initial := by
  unfold message Violation.message
  cases o <;> simp [initial]

/-- An outcome is known from its wording. -/
theorem message_injective : Function.Injective message := by
  intro o o' h
  have hinitial : o.initial = o'.initial := by
    rw [← Option.some_inj, ← head?_message, ← head?_message, h]
  cases o with
  | completed | pruned => cases o' <;> simp [initial] at hinitial ⊢
  | violated v =>
    cases o' <;> simp [initial] at hinitial
    rw [Violation.message_injective h]
  | fault f =>
    cases o' <;> simp [initial] at hinitial
    have hfault := (String.append_right_inj _).mp h
    rw [Fault.message_injective hfault]

end Outcome

/-- An outcome is known from its wording, and so is a fault. In particular neither a completed nor a
pruned run, no violation, whatever its label, and no fault shares its wording with an outcome of
another of these kinds, and the report of leaked nodes shares its own with no other fault. -/
theorem wordings_tell_outcomes_apart :
    Function.Injective Outcome.message ∧ Function.Injective Fault.message ∧
    (∀ (v : Violation) (f : Fault),
      ([.completed, .pruned, .violated v, .fault f].map Outcome.message).Nodup) ∧
    ∀ (f : Fault) (n : Nat),
      (Outcome.fault f).message = (Outcome.fault (.leak n)).message ↔ f = .leak n := by
  refine ⟨Outcome.message_injective, Fault.message_injective, fun v f => ?_, fun f n => ?_⟩
  · exact List.Nodup.map Outcome.message_injective (by simp)
  · rw [Outcome.message_injective.eq_iff, Outcome.fault.injEq]

end CheckedLists
