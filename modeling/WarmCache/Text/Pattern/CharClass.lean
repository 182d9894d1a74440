import WarmCache.Text.Pattern.Atom

/-!
# Classes of patterns

A class stands in brackets and holds characters, ranges of them, shorthands, named classes such as
`[:alpha:]` and further classes. Two ampersands, dashes or tildes stand between the operands of an
operation; operations are taken from the left to the right.

What a class contains is of no concern here. It has a depth, which counts the classes, operations
and lists of several items around its innermost item.

* `Pattern.readClass` : the depth of a class, and what follows it.
-/

namespace WarmCache

namespace Pattern

/-- The depth of parts put together: that of the only one, or one more than that of the
deepest. -/
def depthOfAll : List Nat → Nat
  | [] => 0
  | [depth] => depth
  | depths => depths.foldr max 0 + 1

/-- A class that is being read. -/
structure OpenClass where
  /-- The depth of the operand to the left of the last operation sign. -/
  left : Option Nat
  /-- The depths of the items since that sign, the last first. -/
  items : List Nat
  /-- Whether there was nothing yet but dashes. -/
  fresh : Bool
deriving DecidableEq, Repr

namespace OpenClass

/-- A class with one more item. -/
def add (o : OpenClass) (depth : Nat) : OpenClass := { o with items := depth :: o.items }

/-- The depth of what was read. -/
def depth (o : OpenClass) : Nat :=
  match o.left with
  | none => depthOfAll o.items
  | some left => max left (depthOfAll o.items) + 1

/-- A class after an operation sign. -/
def operate (o : OpenClass) : OpenClass := ⟨some o.depth, [], false⟩

end OpenClass

/-- The names of classes. -/
def classNames : List String :=
  ["alnum", "alpha", "ascii", "blank", "cntrl", "digit", "graph", "lower", "print", "punct",
    "space", "upper", "word", "xdigit"]

/-- Reads a named class, from behind its first bracket, and tells whether it is negated. -/
def readNamed? : List Char → Option (Bool × List Char)
  | ':' :: cs =>
    let negated := cs.head? == some '^'
    let cs := if negated then cs.drop 1 else cs
    match cs.dropWhile (· != ':') with
    | ':' :: ']' :: rest =>
      if classNames.contains (String.ofList (cs.takeWhile (· != ':'))) then some (negated, rest)
      else none
    | _ => none
  | _ => none

/-- Whether a named class may stand here. -/
def Flags.admitsNamed (f : Flags) (negated : Bool) : Bool :=
  if f.unicode then !f.ignoreCase else !negated

/-- Reads an atom in a class, where few characters have a meaning of their own. -/
def readClassAtom (f : Flags) : List Char → Option (Atom × List Char)
  | [] => none
  | '\\' :: cs => readEscape f cs
  | c :: cs => some (.char c false, cs)

/-- Reads the rest of a range, from behind its dash. -/
def readRangeEnd (f : Flags) (low : Atom) (cs : List Char) : Option (List Char) := do
  let (high, rest) ← readClassAtom f (f.skip cs)
  match low, high with
  | .char a _, .char b _ =>
    if a ≤ b && f.admitsInClass low && f.admitsInClass high then some rest else none
  | _, _ => none

/-- Reads an atom or a range in a class. A dash before a bracket or another dash makes no range. -/
def readItem (f : Flags) (cs : List Char) : Option (List Char) := do
  let (atom, rest) ← readClassAtom f cs
  let alone := if f.admitsInClass atom then some (f.skip rest) else none
  match f.skip rest with
  | '-' :: behind =>
    let next := f.glance behind
    if next == some ']' || next == some '-' then alone else readRangeEnd f atom behind
  | _ => alone

/-- Begins a class, behind its first bracket. -/
def openClass (f : Flags) (cs : List Char) : Option (OpenClass × List Char) :=
  match f.skip cs with
  | '^' :: rest => if f.unicode then some (⟨none, [], true⟩, f.skip rest) else none
  | rest => some (⟨none, [], true⟩, rest)

/-- What a step in a class leads to. -/
inductive ClassStep where
  /-- The class goes on, the innermost open one first. -/
  | inside (innermost : OpenClass) (outer : List OpenClass) (rest : List Char)
  /-- The outermost class is closed. -/
  | closed (depth : Nat) (rest : List Char)

/-- The bracket that closes a class. -/
def closeClass (o : OpenClass) (outer : List OpenClass) (rest : List Char) : ClassStep :=
  match outer with
  | [] => .closed (o.depth + 1) rest
  | next :: outer => .inside (next.add (o.depth + 1)) outer rest

/-- A step in a class, beginning with `c`. -/
def stepClass (f : Flags) (o : OpenClass) (outer : List OpenClass) (c : Char) (cs : List Char) :
    Option ClassStep :=
  if o.fresh && (c == '-' || c == ']' && o.items.isEmpty) then
    if f.admitsInClass (.char c false) then
      some (.inside { o.add 0 with fresh := c == '-' } outer cs)
    else none
  else
    let o := { o with fresh := false }
    match c, cs with
    | '[', cs =>
      match readNamed? cs with
      | some (negated, rest) =>
        if f.admitsNamed negated then some (.inside (o.add 0) outer rest) else none
      | none => (openClass f cs).map fun (inner, rest) => .inside inner (o :: outer) rest
    | ']', cs => some (closeClass o outer cs)
    | '&', '&' :: rest => some (.inside o.operate outer rest)
    | '-', '-' :: rest => some (.inside o.operate outer rest)
    | '~', '~' :: rest => some (.inside o.operate outer rest)
    | c, cs => (readItem f (c :: cs)).map fun rest => .inside (o.add 0) outer rest

/-- Reads on in a class, for so many steps at most. -/
def readClassWithin (f : Flags) :
    (steps : Nat) → OpenClass → List OpenClass → List Char → Option (Nat × List Char)
  | 0, _, _, _ => none
  | steps + 1, o, outer, cs =>
    match f.skip cs with
    | [] => none
    | c :: rest => do
      match ← stepClass f o outer c rest with
      | .inside o outer rest => readClassWithin f steps o outer rest
      | .closed depth rest => some (depth, rest)

/-- Reads a class, from behind its first bracket, and tells its depth. Every step reads a
character. -/
def readClass (f : Flags) (cs : List Char) : Option (Nat × List Char) := do
  let (o, rest) ← openClass f cs
  readClassWithin f rest.length o [] rest

end Pattern

end WarmCache
