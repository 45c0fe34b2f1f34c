import CheckedLists.Text.Form
import CheckedLists.Text.Invisible
import CheckedLists.Text.Combining
import CheckedLists.Text.Unassigned

/-!
# Quoted text

Quoting puts a text between double quotes so that every character of it can be
seen: the quote, the backslash and four controls have a short escape, any other
character without a shape of its own is written as its code point, and the rest
stand for themselves.
-/

namespace CheckedLists.Quoted

/-- Whether a character cannot be told by its shape: it shows nothing, it is drawn on
the character before it, or there is no character at its code point. -/
def isShapeless (c : Char) : Bool :=
  CodePoints.invisible.contains c || CodePoints.combining.contains c ||
    CodePoints.unassigned.contains c

/-- A code point in lower-case hexadecimal without leading zeros, `\u{1b}`. -/
def codePoint (c : Char) : String :=
  "\\u\x7b" ++ String.ofList (Nat.toDigits 16 c.toNat) ++ "\x7d"

/-- The written form of one character: a short escape if there is one, its code point if
it is shapeless, and otherwise itself. -/
def escape (c : Char) : String :=
  if c = '"' then "\\\""
  else if c = '\\' then "\\\\"
  else if c = '\t' then "\\t"
  else if c = '\r' then "\\r"
  else if c = '\n' then "\\n"
  else if c = '\x00' then "\\0"
  else if isShapeless c then codePoint c
  else c.toString

/-- The text between double quotes, each character in its written form. -/
def quote (s : String) : String :=
  "\"" ++ String.join (s.toList.map escape) ++ "\""

/-- A quoted text as a printed value. -/
def form (s : String) : Form := .atom (quote s)

end CheckedLists.Quoted
