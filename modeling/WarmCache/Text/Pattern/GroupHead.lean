import WarmCache.Text.Pattern.Atom
import WarmCache.Text.WordChar

/-!
# Heads of groups

What follows the parenthesis that opens a group: nothing, a name as in `(?<name>`, or flags as in
`(?i-u:`. Flags may also stand alone in parentheses, for the rest of the group around them.

* `Pattern.readHead` : the head of a group.
* `Pattern.Flags.apply` : flags as they are turned on and off.
-/

namespace WarmCache

namespace Pattern

/-- What a parenthesis begins. -/
inductive GroupHead where
  /-- A group, in which these flags hold and which may have a name. -/
  | group (flags : Flags) (name : Option (List Char))
  /-- Flags for the rest of the group around them. -/
  | flags (flags : Flags)
deriving DecidableEq, Repr

/-- The letters of flags and the sign before those that are switched off. -/
def flagSigns : List Char := ['i', 'm', 's', 'U', 'u', 'R', 'x', '-']

/-- Whether signs make a list of flags: none stands twice, and the minus sign does not stand
last. -/
def isFlagList (signs : List Char) : Bool :=
  signs.all flagSigns.contains && signs.eraseDups == signs && signs.getLast? != some '-'

/-- The flags after a list of flags. -/
def Flags.apply (f : Flags) (signs : List Char) : Flags :=
  let on := signs.takeWhile (· != '-')
  let off := signs.dropWhile (· != '-')
  let value (letter : Char) (old : Bool) : Bool :=
    on.contains letter || !off.contains letter && old
  ⟨value 'i' f.ignoreCase, value 'u' f.unicode, value 'x' f.verbose⟩

/-- Reads flags, from behind the question mark. -/
def readFlags (f : Flags) (cs : List Char) : Option (GroupHead × List Char) :=
  let isFlag (c : Char) : Bool := c != ':' && c != ')'
  let signs := cs.takeWhile isFlag
  if isFlagList signs then
    match cs.dropWhile isFlag with
    | ':' :: rest => some (.group (f.apply signs) none, rest)
    | _ :: rest => if signs.isEmpty then none else some (.flags (f.apply signs), rest)
    | [] => none
  else none

/-- Whether a text is the name of a group. -/
def isGroupName : List Char → Bool
  | [] => false
  | c :: cs =>
    (c == '_' || isLetter c) && cs.all fun c => isWordChar c || ['_', '.', '[', ']'].contains c

/-- Reads the name of a group, from behind its opening angle. -/
def readName (f : Flags) (cs : List Char) : Option (GroupHead × List Char) :=
  let name := cs.takeWhile (· != '>')
  match cs.dropWhile (· != '>') with
  | _ :: rest => if isGroupName name then some (.group f (some name), rest) else none
  | [] => none

/-- Reads the head of a group, from behind its parenthesis. -/
def readHead (f : Flags) (cs : List Char) : Option (GroupHead × List Char) :=
  match f.skip cs with
  | '?' :: 'P' :: '<' :: rest => readName f rest
  | '?' :: '<' :: rest => readName f rest
  | '?' :: rest => readFlags f rest
  | rest => some (.group f none, rest)

end Pattern

end WarmCache
