import WarmCache.Text.Blank
import WarmCache.Text.Decimal
import WarmCache.Text.Pattern

/-!
# Log filters

A log filter is a list of directives between commas. A directive is a verbosity, the name of a
component, or both joined by an equals sign: `config_cache=warn`. A component alone is heard in
full. A directive may also be meant for a span, or for events with a field, in brackets and braces
after the component: `config_cache[request{message}]=warn`.

An event is heard if the most telling of the directives for it is verbose enough. Directives for a
span or for the value of a field hear no event by themselves.

Blanks around a directive are passed over when its signs are looked for, but its parts are cut by
their distance from its beginning, blanks included. So a blank before a directive shifts its parts;
the parts may even come to begin or end inside a character, which no text can.

* `LogFilter.parse` : the filter of a text, if the text is one.
* `LogFilter.hears` : whether an event passes.
-/

namespace WarmCache

/-- A condition on an event: it has a field of this name, whose value may be asked for, too. -/
structure FieldCondition where
  name : List Char
  valued : Bool
deriving DecidableEq, Repr

/-- A rule for the components whose names begin with `component`. -/
structure LogDirective where
  component : Option (List Char)
  span : Option (List Char)
  field : Option FieldCondition
  verbosity : Nat
deriving DecidableEq, Repr

/-- The rules by which events are heard. -/
abbrev LogFilter := List LogDirective

/-- Why a text is no log filter. -/
inductive LogFilterError where
  /-- A directive is not written as one. -/
  | malformed
  /-- A part of a directive begins or ends inside a character. -/
  | torn
deriving DecidableEq, Repr

/-- The greatest verbosity, at which everything is heard. -/
def fullVerbosity : Nat := 5

namespace LogDirective

/-- A directive for events themselves, not for a span or the value of a field. -/
def isPlain (d : LogDirective) : Bool := d.span.isNone && !d.field.any FieldCondition.valued

/-- Whether a directive is for an event of a component with these fields. -/
def appliesTo (d : LogDirective) (component : List Char) (fields : List (List Char)) : Bool :=
  d.isPlain && d.component.all (fun name => name.isPrefixOf component) &&
    d.field.all fun condition => fields.contains condition.name

/-- How much of the name of a component a directive gives. -/
def reach (d : LogDirective) : Nat := d.component.elim 0 fun name => name.length + 1

/-- Whether a directive is more telling than another: it gives more of the component, or it alone
asks for a field, or it asks for the later field. -/
def outranks (a b : LogDirective) : Bool :=
  b.reach < a.reach ||
    (a.reach == b.reach &&
      match a.field, b.field with
      | some f, some g => decide (g.name < f.name)
      | some _, none => true
      | none, _ => false)

end LogDirective

namespace LogFilter

/-! ## Cutting -/

/-- What is left of a text behind its first `n` bytes, unless they end inside a character. -/
def dropBytes? : Nat → List Char → Option (List Char)
  | 0, cs => some cs
  | _ + 1, [] => none
  | n + 1, c :: cs =>
    if c.utf8Size ≤ n + 1 then dropBytes? (n + 1 - c.utf8Size) cs else none

/-- The first `n` bytes of a text, unless they end inside a character. -/
def takeBytes? : Nat → List Char → Option (List Char)
  | 0, _ => some []
  | _ + 1, [] => none
  | n + 1, c :: cs =>
    if c.utf8Size ≤ n + 1 then (takeBytes? (n + 1 - c.utf8Size) cs).map (c :: ·) else none

/-- The part of a text behind its first `start` bytes. -/
def cutFrom (text : List Char) (start : Nat) : Except LogFilterError (List Char) :=
  match dropBytes? start text with
  | some rest => .ok rest
  | none => .error .torn

/-- The part of a text from byte `start` up to byte `stop`. -/
def cut (text : List Char) (start stop : Nat) : Except LogFilterError (List Char) :=
  match (dropBytes? start text).bind (takeBytes? (stop - start)) with
  | some part => .ok part
  | none => .error .torn

/-! ## Parts of a directive -/

/-- The names of the verbosities, from silence to the noisiest. -/
def verbosityNames : List String := ["off", "error", "warn", "info", "debug", "trace"]

/-- The verbosity of a number or of a name in letters of either case. -/
def verbosity? (cs : List Char) : Option Nat :=
  (readNatural fullVerbosity cs).or
    (verbosityNames.findIdx? (· == String.ofList (cs.map Char.toLower)))

/-- Whether a text is a decimal exponent or nothing. -/
def isExponent : List Char → Bool
  | [] => true
  | e :: cs =>
    let digits :=
      match cs with
      | '+' :: ds => ds
      | '-' :: ds => ds
      | ds => ds
    e.toLower == 'e' && (readDigits digits).isSome

/-- Whether a text is a number without a sign, with or without a fraction and an exponent. -/
def isNumber (cs : List Char) : Bool :=
  let whole := cs.takeWhile Char.isDigit
  let rest := cs.dropWhile Char.isDigit
  match rest with
  | '.' :: rest =>
    !(whole.isEmpty && (rest.takeWhile Char.isDigit).isEmpty) &&
      isExponent (rest.dropWhile Char.isDigit)
  | _ => !whole.isEmpty && isExponent rest

/-- Whether a text can be asked for as the value of a field: it is a number or a pattern. Only a
number can begin with a plus sign. -/
def isValue : List Char → Bool
  | '+' :: cs =>
    isNumber cs || ["inf", "infinity", "nan"].contains (String.ofList (cs.map Char.toLower))
  | cs => Pattern.isWellFormed cs

/-- A condition on a field: its name, or its name and its value joined by an equals sign. What
follows a second equals sign is ignored. -/
def fieldCondition (cs : List Char) : Except LogFilterError FieldCondition :=
  let name := cs.takeWhile (· != '=')
  match cs.dropWhile (· != '=') with
  | [] => if cs.isEmpty then .error .malformed else .ok ⟨name, false⟩
  | _ :: rest =>
    if isValue (rest.takeWhile (· != '=')) then .ok ⟨name, true⟩ else .error .malformed

/-! ## Reading a directive -/

/-- How far the reading of a directive has come, and at which byte its present part began. -/
inductive Point where
  /-- Before its first character. -/
  | start
  /-- In the name of a component, or of a verbosity. -/
  | name
  /-- In the name of a span. -/
  | span (origin : Nat)
  /-- In the condition on a field. -/
  | field (origin : Nat)
  /-- After that condition. -/
  | fieldEnd
  /-- After what is in brackets. -/
  | spanEnd
  /-- In the verbosity. -/
  | verbosity (origin : Nat)
deriving DecidableEq, Repr

/-- Reads a character, which begins at byte `i`. The parts that it ends are cut from `text`. -/
def step (text : List Char) (d : LogDirective) (i : Nat) (c : Char) :
    Point → Except LogFilterError (LogDirective × Point)
  | .start =>
    if c = '[' then .ok (d, .span (i + 1))
    else if isWordChar c || ['-', ':', '_'].contains c then .ok (d, .name)
    else .error .malformed
  | .name =>
    if c = '=' then do
      return ({ d with component := some (← cut text 0 i) }, .verbosity (i + 1))
    else if c = '[' then do
      return ({ d with component := some (← cut text 0 i) }, .span (i + 1))
    else .ok (d, .name)
  | .span origin =>
    if c = ']' then do
      return ({ d with span := some (← cut text origin i) }, .spanEnd)
    else if c = '\x7b' then do
      let span ← cut text origin i
      return ({ d with span := if span.isEmpty then none else some span }, .field (i + 1))
    else .ok (d, .span origin)
  | .field origin =>
    if c = '\x7d' then do
      return ({ d with field := some (← fieldCondition (← cut text origin i)) }, .fieldEnd)
    else .ok (d, .field origin)
  | .fieldEnd => if c = ']' then .ok (d, .spanEnd) else .error .malformed
  | .spanEnd => if c = '=' then .ok (d, .verbosity (i + 1)) else .error .malformed
  | .verbosity origin => .ok (d, .verbosity origin)

/-- What a directive comes to when nothing more follows. -/
def finish (text : List Char) (d : LogDirective) : Point → Except LogFilterError LogDirective
  | .name =>
    match verbosity? text with
    | some n => .ok { d with verbosity := n }
    | none => .ok { d with component := some text }
  | .verbosity origin => do
    let name ← cutFrom text origin
    if name.isEmpty then return d
    else
      match verbosity? name with
      | some n => return { d with verbosity := n }
      | none => throw .malformed
  | .spanEnd => .ok d
  | _ => .error .malformed

/-- Reads the rest of a directive, which begins at byte `i`. -/
def readFrom (text : List Char) :
    (i : Nat) → LogDirective → Point → List Char → Except LogFilterError LogDirective
  | _, d, point, [] => finish text d point
  | i, d, point, c :: cs => do
    let (d, point) ← step text d i c point
    readFrom text (i + c.utf8Size) d point cs

/-- Reads a directive. -/
def directive (text : List Char) : Except LogFilterError LogDirective :=
  readFrom text 0 ⟨none, none, none, fullVerbosity⟩ .start (trim text)

/-! ## Filters -/

/-- The parts of a text between commas. -/
def splitAtCommas : List Char → List (List Char)
  | [] => [[]]
  | c :: cs =>
    match splitAtCommas cs with
    | [] => [[c]]
    | part :: parts => if c = ',' then [] :: part :: parts else (c :: part) :: parts

/-- The filter by which nothing but errors is heard. -/
def errorsOnly : LogFilter := [⟨none, none, none, 1⟩]

/-- The filter that a text describes. Empty directives are left out, and a text without any
asks for errors only. -/
def parse (text : String) : Except LogFilterError LogFilter :=
  let parts := (splitAtCommas text.toList).filter (!·.isEmpty)
  if parts.isEmpty then .ok errorsOnly else parts.mapM directive

/-- The more telling of two directives, or the later if neither is. -/
def prefer (best : Option LogDirective) (d : LogDirective) : Option LogDirective :=
  match best with
  | some b => if b.outranks d then best else some d
  | none => some d

/-- Whether an event of a component, with fields and of a verbosity, is heard. -/
def hears (filter : LogFilter) (component : String) (fields : List String) (verbosity : Nat) :
    Bool :=
  let telling := filter.filter fun d => d.appliesTo component.toList (fields.map String.toList)
  match telling.foldl prefer none with
  | some d => verbosity ≤ d.verbosity
  | none => false

end LogFilter

end WarmCache
