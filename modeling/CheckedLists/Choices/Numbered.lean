import CheckedLists.Choices

/-!
# Numbered sources of choices

Several sources are kept under numbers, drawn from, copied, compared and
printed. A draw that names a number out of use has no answer.
-/

namespace CheckedLists

/-- What can be done with numbered sources. -/
inductive Draw where
  /-- Ask a source a number of times. -/
  | pick (source times : Nat)
  /-- Copy a source and number the copy behind the others. -/
  | copy (source : Nat)
  /-- Whether two sources are the same. -/
  | same (a b : Nat)
  /-- Print a source. -/
  | describe (source : Nat) (tall : Bool)

/-- What a draw answers. -/
inductive Drawn where
  /-- The answers of a source and the source as it is then. -/
  | picked (answers : List Bool) (behind : Choices)
  /-- The number of a source. -/
  | number (n : Nat)
  /-- A truth value. -/
  | flag (b : Bool)
  /-- A text. -/
  | text (t : String)

/-- Carry a draw out on numbered sources, if all the numbers are in use. -/
def Draw.perform (sources : Array Choices) : Draw → Option (Drawn × Array Choices)
  | pick source times => do
    let (answers, behind) := (← sources[source]?).picks times
    return (.picked answers behind, sources.setIfInBounds source behind)
  | copy source => return (.number sources.size, sources.push (← sources[source]?))
  | same a b => return (.flag ((← sources[a]?) = (← sources[b]?)), sources)
  | describe source tall => return (.text ((← sources[source]?).form.layout tall), sources)

/-- Carry draws out one after the other. -/
def Draw.performAll : List Draw → Array Choices → Option (List Drawn)
  | [], _ => some []
  | d :: ds, sources => do
    let (answer, sources) ← d.perform sources
    return answer :: (← performAll ds sources)

end CheckedLists
