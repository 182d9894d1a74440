import WarmCache.Text.CharRange

/-!
# Blank characters

The characters of the Unicode property White_Space, and the trimming of them from both ends of
a text.
-/

namespace WarmCache

/-- The ranges of code points that have the property White_Space. -/
def blankRanges : List CharRange :=
  [(0x0009, 0x000D), (0x0020, 0x0020), (0x0085, 0x0085), (0x00A0, 0x00A0), (0x1680, 0x1680),
    (0x2000, 0x200A), (0x2028, 0x2029), (0x202F, 0x202F), (0x205F, 0x205F), (0x3000, 0x3000)]

/-- Whether a character has the property White_Space. -/
def isBlank (c : Char) : Bool := CharRange.anyContains blankRanges c

/-- A text without the blanks at its start. -/
def trimStart (cs : List Char) : List Char := cs.dropWhile isBlank

/-- A text without the blanks at either end. -/
def trim (cs : List Char) : List Char := (trimStart (trimStart cs).reverse).reverse

end WarmCache
