/-!
# Layouts of printed values

A printed value is a tree of atoms, labelled fields and bracketed groups. The
flat layout keeps the tree on one line; the tall layout gives each member of a
group a line of its own, four columns deeper than the group, and ends it with a
comma. An empty group is its two brackets in both layouts.
-/

namespace CheckedLists

/-- The tree that a printed value is laid out from. -/
inductive Form where
  /-- A text that is never broken. -/
  | atom (text : String)
  /-- A named member of a group. -/
  | labelled (label : String) (value : Form)
  /-- Members between brackets; the flat layout puts `gap` inside each bracket. -/
  | group (opening gap closing : String) (members : List Form)

namespace Form

/-- A constructor with unnamed arguments, `Name(x, y)`. -/
def tuple (name : String) (fields : List Form) : Form :=
  .group (name ++ "(") "" ")" fields

/-- A constructor with named fields, each given by `labelled`. -/
def record (name : String) (fields : List Form) : Form :=
  .group (name ++ " \x7b") " " "\x7d" fields

/-- A sequence, `[x, y]`. -/
def sequence (elements : List Form) : Form :=
  .group "[" "" "]" elements

/-- A value that may be missing. -/
def optional : Option Form → Form
  | none => .atom "None"
  | some f => tuple "Some" [f]

/-- A natural number in decimal. -/
def nat (n : Nat) : Form := .atom (toString n)

/-- A truth value. -/
def bool (b : Bool) : Form := .atom (if b then "true" else "false")

mutual
/-- The layout on one line. -/
def flat : Form → String
  | .atom t => t
  | .labelled l f => l ++ ": " ++ f.flat
  | .group o g c fs => if fs.isEmpty then o ++ c else o ++ g ++ flatMembers fs ++ g ++ c

/-- Members of a group on one line, separated by commas. -/
def flatMembers : List Form → String
  | [] => ""
  | f :: fs => if fs.isEmpty then f.flat else f.flat ++ ", " ++ flatMembers fs
end

/-- The white space that opens a line `depth` levels deep. -/
def indent : Nat → String
  | 0 => ""
  | depth + 1 => "    " ++ indent depth

mutual
/-- The layout with one member a line, for a value that stands `depth` levels deep. -/
def tallAt (depth : Nat) : Form → String
  | .atom t => t
  | .labelled l f => l ++ ": " ++ f.tallAt depth
  | .group o _ c fs =>
    if fs.isEmpty then o ++ c
    else o ++ "\n" ++ tallMembers (depth + 1) fs ++ indent depth ++ c

/-- The lines of the members of a group. -/
def tallMembers (depth : Nat) : List Form → String
  | [] => ""
  | f :: fs => indent depth ++ f.tallAt depth ++ ",\n" ++ tallMembers depth fs
end

/-- The layout with one member a line. -/
def tall (f : Form) : String := f.tallAt 0

/-- The tall layout if it is asked for, and the flat one otherwise. -/
def layout (tall? : Bool) (f : Form) : String := if tall? then f.tall else f.flat

end Form

end CheckedLists
