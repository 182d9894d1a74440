import WarmCache.Text.Blank
import WarmCache.Text.Digits

/-!
# Atoms of patterns

The smallest parts of a pattern: characters, written as they are or as escapes, and signs that
stand for a whole class of characters or for a place between two of them.

Flags decide which atoms are admitted. Patterns are matched without the tables of Unicode, so
whatever would ask for them is refused as long as the flag `u` is on, as it is at first: to ignore
the case of letters, the shorthands for digits, blanks and word characters, and the edges of
words. With `u` off a pattern is about bytes, and what could match a part of a character is
refused.

* `Pattern.readEscape` : the atom of an escape.
* `Pattern.Flags.admits`, `Pattern.Flags.admitsInClass` : whether an atom may stand here.
* `Pattern.skipIgnored` : passes over blanks and comments.
-/

namespace WarmCache

namespace Pattern

/-- The flags that have a say in what a pattern may hold. -/
structure Flags where
  /-- `i` : the case of letters is ignored. -/
  ignoreCase : Bool
  /-- `u` : characters are matched, and not bytes. -/
  unicode : Bool
  /-- `x` : blanks and comments are left out. -/
  verbose : Bool
deriving DecidableEq, Repr

/-- The flags at the beginning of a pattern. -/
def Flags.initial : Flags := ⟨false, true, false⟩

/-! ## Blanks and comments -/

/-- A text without the blanks and comments that it begins with. A comment goes from a number sign
to the end of the line. -/
def skipIgnored : (inComment : Bool) → List Char → List Char
  | _, [] => []
  | true, c :: cs => skipIgnored (c != '\n') cs
  | false, c :: cs =>
    if isBlank c then skipIgnored false cs
    else if c = '#' then skipIgnored true cs
    else c :: cs

/-- A text from the first character on that counts. -/
def Flags.skip (f : Flags) (cs : List Char) : List Char :=
  if f.verbose then skipIgnored false cs else cs

/-- The first character that counts, as far as a glance shows it: a number sign is passed over,
but not the comment behind it. -/
def Flags.glance (f : Flags) (cs : List Char) : Option Char :=
  if f.verbose then
    match trimStart cs with
    | '#' :: rest => (trimStart rest).head?
    | rest => rest.head?
  else cs.head?

/-! ## Atoms -/

/-- A smallest part of a pattern. -/
inductive Atom where
  /-- A character. `asByte` tells that it was written as the value of a byte. -/
  | char (c : Char) (asByte : Bool)
  /-- Any character but perhaps a line end. -/
  | any
  /-- The beginning or the end of a line or of the text. -/
  | edge
  /-- The beginning or the end of a word, or a place that is neither. -/
  | wordEdge
  /-- The digits, the blanks or the word characters, or all characters but them. -/
  | shorthand (negated : Bool)
deriving DecidableEq, Repr

/-- Whether an atom may stand outside classes. -/
def Flags.admits (f : Flags) : Atom → Bool
  | .char c asByte => if f.unicode then !f.ignoreCase else !(asByte && 127 < c.toNat)
  | .any => f.unicode
  | .edge => true
  | .wordEdge => !f.unicode
  | .shorthand negated => !f.unicode && !negated

/-- Whether an atom may stand in a class. -/
def Flags.admitsInClass (f : Flags) : Atom → Bool
  | .char c _ => if f.unicode then !f.ignoreCase else c.toNat ≤ 127
  | .shorthand negated => !f.unicode && !negated
  | _ => false

/-! ## Escapes -/

/-- Reads so many hexadecimal digits and gives the character of their value, which goes on from
`value`. -/
def readHex (f : Flags) : (digits value : Nat) → List Char → Option (Char × List Char)
  | 0, value, cs => if value.isValidChar then some (Char.ofNat value, cs) else none
  | digits + 1, value, cs =>
    match f.skip cs with
    | [] => none
    | c :: rest => do readHex f digits (16 * value + (← Digits.hexValue? c)) rest

/-- The atom of a backslash and one more character, unless that needs digits. The letters of
categories are unknown, as all of Unicode is, and other letters and digits mean nothing. -/
def escaped? : Char → Option Atom
  | 'd' => some (.shorthand false)
  | 's' => some (.shorthand false)
  | 'w' => some (.shorthand false)
  | 'D' => some (.shorthand true)
  | 'S' => some (.shorthand true)
  | 'W' => some (.shorthand true)
  | 'a' => some (.char '\x07' false)
  | 'f' => some (.char '\x0c' false)
  | 't' => some (.char '\t' false)
  | 'n' => some (.char '\n' false)
  | 'r' => some (.char '\r' false)
  | 'v' => some (.char '\x0b' false)
  | 'A' => some .edge
  | 'z' => some .edge
  | 'b' => some .wordEdge
  | 'B' => some .wordEdge
  | '<' => some .wordEdge
  | '>' => some .wordEdge
  | c => if c.isAlphanum || 127 < c.toNat then none else some (.char c false)

/-- Reads an escape, from behind its backslash. -/
def readEscape (f : Flags) : List Char → Option (Atom × List Char)
  | [] => none
  | 'x' :: cs => (readHex f 2 0 cs).map fun (c, rest) => (.char c true, rest)
  | 'u' :: cs => (readHex f 4 0 cs).map fun (c, rest) => (.char c false, rest)
  | 'U' :: cs => (readHex f 8 0 cs).map fun (c, rest) => (.char c false, rest)
  | c :: cs => (escaped? c).map fun atom => (atom, cs)

end Pattern

end WarmCache
