/-!
# Outlines of values

An outline is the inspection text of a structured value before it is laid out. It can be
written on one line, `Name { field: value, field: value }`, or as a block with one field a line,
four blanks to a level and a comma after each field. An open record hides further fields and
ends in two dots.

* `Outline.line`, `Outline.block` : the two layouts.
-/

namespace WarmCache

/-- The structure of an inspection text. -/
inductive Outline where
  /-- A value with a text of its own. -/
  | leaf (text : String)
  /-- A name around one value, such as `Some(7)`. -/
  | wrap (name : String) (inner : Outline)
  /-- A name and its fields, all of them if `closed`. -/
  | record (name : String) (fields : List (String × Outline)) (closed : Bool)
deriving Inhabited

namespace Outline

/-- The outline of a number. -/
def ofNat (n : Nat) : Outline := leaf (toString n)

/-- The outline of a number with a sign. -/
def ofInt (n : Int) : Outline := leaf (toString n)

/-- The outline of a truth value. -/
def ofBool (b : Bool) : Outline := leaf (if b then "true" else "false")

/-- The outline of a value that may be absent. -/
def ofOption : Option Outline → Outline
  | none => leaf "None"
  | some inner => wrap "Some" inner

mutual

/-- An outline on one line. -/
def line : Outline → String
  | leaf text => text
  | wrap name inner => name ++ "(" ++ inner.line ++ ")"
  | record name fields closed =>
    match lineFields fields ++ (if closed then [] else [".."]) with
    | [] => name
    | parts => name ++ " \x7b " ++ String.intercalate ", " parts ++ " \x7d"

/-- The fields of a record, each on one line. -/
def lineFields : List (String × Outline) → List String
  | [] => []
  | (name, value) :: rest => (name ++ ": " ++ value.line) :: lineFields rest

end

/-- Puts a text before the first line of a block. -/
def beforeFirst (text : String) : List String → List String
  | [] => [text]
  | first :: rest => (text ++ first) :: rest

/-- Puts a text after the last line of a block. -/
def afterLast (text : String) : List String → List String
  | [] => [text]
  | [last] => [last ++ text]
  | first :: rest => first :: afterLast text rest

/-- A block one level deeper. -/
def indent (lines : List String) : List String := lines.map ("    " ++ ·)

mutual

/-- The lines of an outline that is laid out as a block. -/
def blockLines : Outline → List String
  | leaf text => [text]
  | wrap name inner => [name ++ "("] ++ indent (afterLast "," inner.blockLines) ++ [")"]
  | record name fields closed =>
    match blockFields fields ++ (if closed then [] else indent [".."]) with
    | [] => [name]
    | lines => [name ++ " \x7b"] ++ lines ++ ["\x7d"]

/-- The lines of the fields of a record. -/
def blockFields : List (String × Outline) → List String
  | [] => []
  | (name, value) :: rest =>
    indent (afterLast "," (beforeFirst (name ++ ": ") value.blockLines)) ++ blockFields rest

end

/-- An outline as a block. -/
def block (o : Outline) : String := String.intercalate "\n" o.blockLines

end Outline

end WarmCache
