import CheckedLists.Text.CodePoints

/-!
# Characters that show nothing

Controls, format characters, private use, the separators of lines and
paragraphs, every space but the common one, and the fillers: four letters that
hold the place of another letter and are drawn as nothing.
-/

namespace CheckedLists

/-- The characters that show nothing, or nothing that writers have agreed on. -/
def CodePoints.invisible : CodePoints where
  runs :=
    [(0x0, 0x1f), (0x7f, 0xa0), (0xad, 0xad), (0x600, 0x605), (0x61c, 0x61c), (0x6dd, 0x6dd),
     (0x70f, 0x70f), (0x890, 0x891), (0x8e2, 0x8e2), (0x115f, 0x1160), (0x1680, 0x1680),
     (0x180e, 0x180e), (0x2000, 0x200f), (0x2028, 0x202f), (0x205f, 0x2064), (0x2066, 0x206f),
     (0x3000, 0x3000), (0x3164, 0x3164), (0xe000, 0xf8ff), (0xfeff, 0xfeff), (0xffa0, 0xffa0),
     (0xfff9, 0xfffb), (0x110bd, 0x110bd), (0x110cd, 0x110cd), (0x13430, 0x1343f),
     (0x1bca0, 0x1bca3), (0x1d173, 0x1d17a), (0xe0001, 0xe0001), (0xe0020, 0xe007f),
     (0xf0000, 0xffffd), (0x100000, 0x10fffd)]

/-- The number of runs and of characters. -/
example : CodePoints.invisible.runs.length = 31 ∧ CodePoints.invisible.size = 137725 := by
  decide +kernel

end CheckedLists
