import CheckedLists.Text.Form

/-!
# Handles

A handle names a node of a store: the index of a slot together with the
generation that the slot had when the node was made. Releasing a node raises the
generation of its slot, so a handle that outlives its node matches no later one.
-/

namespace CheckedLists

/-- A slot index with the generation of the node that it names. -/
structure Handle where
  /-- Position of the slot. -/
  index : UInt32
  /-- Generation of the slot at the creation of the node. -/
  generation : UInt32
  deriving DecidableEq, Repr

namespace Handle

/-- The position of the slot as an index into the slots. -/
def slot (h : Handle) : Nat := h.index.toNat

/-- The printed form `Ptr(index, generation)`. -/
def form (h : Handle) : Form :=
  .tuple "Ptr" [.nat h.index.toNat, .nat h.generation.toNat]

/-- The printed form on one line. -/
def text (h : Handle) : String := h.form.flat

/-- The text of a handle shows its index and its generation in decimal. -/
theorem text_eq (h : Handle) :
    h.text = "Ptr(" ++ toString h.index.toNat ++ ", " ++ toString h.generation.toNat ++ ")" := by
  simp [text, form, Form.tuple, Form.nat, Form.flat, Form.flatMembers, String.append_assoc]

end Handle

end CheckedLists
