import WarmCache.Text.Digits
import WarmCache.Text.Hidden

/-!
# Quoted texts

Two ways to put a text between double quotes. `quoteInspected` escapes hidden characters as
`\u` and a hexadecimal code point in braces; `quoteJson` follows JSON, with four hexadecimal
digits for a control character that has no letter of its own.
-/

namespace WarmCache

/-- One character of an inspected text. -/
def inspectedChar (c : Char) : String :=
  if c = '"' then "\\\""
  else if c = '\\' then "\\\\"
  else if c = '\n' then "\\n"
  else if c = '\r' then "\\r"
  else if c = '\t' then "\\t"
  else if c.toNat = 0 then "\\0"
  else if isHidden c then "\\u\x7b" ++ Digits.hexadecimal 1 c.toNat ++ "\x7d"
  else c.toString

/-- A text as it is inspected: quoted, with hidden characters escaped. -/
def quoteInspected (text : String) : String :=
  "\"" ++ String.join (text.toList.map inspectedChar) ++ "\""

/-- One character of a JSON string. -/
def jsonChar (c : Char) : String :=
  if c = '"' then "\\\""
  else if c = '\\' then "\\\\"
  else if c = '\n' then "\\n"
  else if c = '\r' then "\\r"
  else if c = '\t' then "\\t"
  else if c.toNat = 8 then "\\b"
  else if c.toNat = 12 then "\\f"
  else if c.toNat < 32 then "\\u" ++ Digits.hexadecimal 4 c.toNat
  else c.toString

/-- A text as a JSON string. -/
def quoteJson (text : String) : String :=
  "\"" ++ String.join (text.toList.map jsonChar) ++ "\""

/-- A JSON object without blanks, of fields whose values are JSON texts. -/
def jsonObject (fields : List (String × String)) : String :=
  "\x7b" ++
    String.intercalate "," (fields.map fun field => quoteJson field.1 ++ ":" ++ field.2) ++ "\x7d"

end WarmCache
