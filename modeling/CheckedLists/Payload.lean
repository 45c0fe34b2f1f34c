/-!
# Payloads

Two kinds of payload are carried by nodes: 32 bit integers, and values that are
either a 64 bit integer or a text. Every integer is below every text, and texts
are ordered by code point. Integer arithmetic wraps around.
-/

namespace CheckedLists

/-- A change of a payload in place: a number for integers, a text for texts. -/
structure Edit where
  /-- What is added to an integer. -/
  add : Option Int
  /-- What is put behind a text. -/
  push : Option String

/-- A kind of payload that has integers among its values and can be changed in place. -/
class Payload (α : Type) where
  /-- The integer `n`, wrapped around to the width of the payload. -/
  ofInt (n : Int) : α
  /-- Change a payload in place; a part of the edit that does not fit it is ignored. -/
  edit (e : Edit) (v : α) : α

instance : Payload Int32 where
  ofInt := Int32.ofInt
  edit e v := v + Int32.ofInt (e.add.getD 0)

/-- An integer or a text. -/
inductive Value where
  /-- An integer. -/
  | int (n : Int64)
  /-- A text. -/
  | text (s : String)
  deriving DecidableEq, Repr

namespace Value

/-- Whether one value is below another one. -/
def isBelow : Value → Value → Bool
  | int m, int n => m < n
  | int _, text _ => true
  | text _, int _ => false
  | text s, text t => s < t

instance : LT Value := ⟨fun a b => a.isBelow b⟩

instance : DecidableLT Value := fun a b => inferInstanceAs (Decidable (a.isBelow b = true))

instance : Payload Value where
  ofInt n := .int (Int64.ofInt n)
  edit e
    | int n => .int (n + Int64.ofInt (e.add.getD 0))
    | text s => .text (s ++ e.push.getD "")

end Value

/-- A question about the values of a list. -/
inductive Test (α : Type) where
  /-- The same answer for every value. -/
  | always (b : Bool)
  /-- Whether the value is this one. -/
  | equal (v : α)
  /-- Whether the value is another one. -/
  | unequal (v : α)
  /-- Whether the value is below this one. -/
  | below (v : α)
  /-- Whether the value is above this one. -/
  | above (v : α)
  /-- Yes to the first `k` questions, whatever the values. -/
  | first (k : Nat)
  deriving DecidableEq, Repr

/-- The answer to the question number `n`, counted from zero. -/
def Test.holds {α : Type} [DecidableEq α] [LT α] [DecidableLT α] :
    Test α → (n : Nat) → α → Bool
  | always b, _, _ => b
  | equal v, _, w => w = v
  | unequal v, _, w => w ≠ v
  | below v, _, w => w < v
  | above v, _, w => v < w
  | first k, n, _ => n < k

end CheckedLists
