import WarmCache.Text.Pattern.CharClass
import WarmCache.Text.Pattern.GroupHead

/-!
# Patterns

A log filter may ask for the value of a field by a pattern, a regular expression. What the pattern
matches is of no concern here, only whether it is one: groups and classes are closed, a repetition
has something to repeat, ranges ascend, every escape is known, no two groups have one name, and
nothing lies too deep or is refused.

A pattern of a filter holds no closing brace, so counted repetitions are never complete.

* `Pattern.isWellFormed` : whether a text is a pattern.
-/

namespace WarmCache

namespace Pattern

/-- A part of a row of parts. -/
structure Part where
  /-- How many groups, classes, repetitions, rows and choices lie around its innermost part, itself
  included. -/
  depth : Nat
  /-- Whether it can be repeated. -/
  repeatable : Bool
deriving DecidableEq, Repr

/-- A group, or the pattern as a whole, that is being read. -/
structure OpenGroup where
  /-- The depths of its choices so far. -/
  choices : List Nat
  /-- The parts of the present choice, the last first. -/
  row : List Part
deriving DecidableEq, Repr

namespace OpenGroup

/-- A group with nothing in it. -/
def empty : OpenGroup := ⟨[], []⟩

/-- A group with one more part. -/
def add (g : OpenGroup) (part : Part) : OpenGroup := { g with row := part :: g.row }

/-- The depths of the choices, with the present one. -/
def allChoices (g : OpenGroup) : List Nat := depthOfAll (g.row.map Part.depth) :: g.choices

/-- The depth of what is in a group. -/
def depth (g : OpenGroup) : Nat := depthOfAll g.allChoices

/-- A group in which another choice begins. -/
def nextChoice (g : OpenGroup) : OpenGroup := ⟨g.allChoices, []⟩

/-- A group whose last part is repeated, if it can be. -/
def repeatLast? (g : OpenGroup) : Option OpenGroup :=
  match g.row with
  | [] => none
  | part :: row =>
    if part.repeatable then some ⟨g.choices, ⟨part.depth + 1, true⟩ :: row⟩ else none

end OpenGroup

/-- How far the reading of a pattern has come. -/
structure State where
  /-- The flags that hold. -/
  flags : Flags
  /-- The names of groups so far. -/
  names : List (List Char)
  /-- The innermost open group. -/
  group : OpenGroup
  /-- The groups around it, each with the flags to which its inner group gives way. -/
  outer : List (OpenGroup × Flags)

namespace State

/-- The state before the first character. -/
def initial : State := ⟨.initial, [], .empty, []⟩

/-- The state after one more part. -/
def add (s : State) (depth : Nat) (repeatable : Bool) : State :=
  { s with group := s.group.add ⟨depth, repeatable⟩ }

/-- The state after an atom, if it may stand here. -/
def addAtom? (s : State) (atom : Atom) : Option State :=
  if s.flags.admits atom then some (s.add 0 true) else none

/-- The state after the head of a group. -/
def enter? (s : State) : GroupHead → Option State
  | .flags flags => some { s.add 0 false with flags }
  | .group flags name =>
    if name.any s.names.contains then none
    else some ⟨flags, name.toList ++ s.names, .empty, (s.group, s.flags) :: s.outer⟩

/-- The state after the parenthesis that closes a group. -/
def leave? (s : State) : Option State :=
  match s.outer with
  | [] => none
  | (group, flags) :: outer =>
    some { s with flags, group := group.add ⟨s.group.depth + 1, true⟩, outer }

/-- The greatest depth of a pattern. -/
def maxDepth : Nat := 250

/-- Whether a pattern may end here. -/
def isComplete (s : State) : Bool := s.outer.isEmpty && s.group.depth ≤ maxDepth

end State

/-- Reads a sign of repetition, from behind it. A question mark that follows at once belongs
to it. -/
def readRepetition (s : State) (cs : List Char) : Option (State × List Char) :=
  s.group.repeatLast?.map fun group =>
    ({ s with group }, if cs.head? == some '?' then cs.drop 1 else cs)

/-- A step outside classes, beginning with `c`. -/
def step (s : State) (c : Char) (cs : List Char) : Option (State × List Char) :=
  let atom (atom : Atom) (rest : List Char) : Option (State × List Char) :=
    (s.addAtom? atom).map fun s => (s, rest)
  match c with
  | '(' => do
    let (head, rest) ← readHead s.flags cs
    return (← s.enter? head, rest)
  | ')' => s.leave?.map fun s => (s, cs)
  | '|' => some ({ s with group := s.group.nextChoice }, cs)
  | '[' => (readClass s.flags cs).map fun (depth, rest) => (s.add depth true, rest)
  | '*' => readRepetition s cs
  | '+' => readRepetition s cs
  | '?' => readRepetition s cs
  | '\x7b' => none
  | '\\' => do
    let (escape, rest) ← readEscape s.flags cs
    atom escape rest
  | '.' => atom .any cs
  | '^' => atom .edge cs
  | '$' => atom .edge cs
  | c => atom (.char c false) cs

/-- Reads on, for so many steps at most. -/
def readWithin : (steps : Nat) → State → List Char → Option State
  | steps, s, cs =>
    match s.flags.skip cs, steps with
    | [], _ => some s
    | _, 0 => none
    | c :: rest, steps + 1 => do
      let (s, rest) ← step s c rest
      readWithin steps s rest

/-- Whether a text is a pattern. Every step reads a character. -/
def isWellFormed (cs : List Char) : Bool :=
  (readWithin cs.length .initial cs).any State.isComplete

end Pattern

end WarmCache
