import StyledEffects.Json.Value
import StyledEffects.Text.Hex

/-! The compact text of a JSON value: no white space, and only quotes, backslashes and
control characters are escaped. -/

namespace StyledEffects.Json

def escape (c : Char) : String :=
  if c = '"' then "\\\"" else if c = '\\' then "\\\\" else if c = '\n' then "\\n"
  else if c = '\r' then "\\r" else if c = '\t' then "\\t" else if c = '\x08' then "\\b"
  else if c = '\x0c' then "\\f"
  else if c.toNat < 0x20 then "\\u" ++ Text.hexPadded 4 c.toNat
  else c.toString

def stringText (s : String) : String :=
  "\"" ++ String.join (s.toList.map escape) ++ "\""

mutual

def Value.text : Value → String
  | .null => "null"
  | .bool true => "true"
  | .bool false => "false"
  | .number n => n.text
  | .string s => stringText s
  | .array [] => "[]"
  | .array (v :: vs) => "[" ++ v.text ++ itemsText vs ++ "]"
  | .object [] => "\x7b\x7d"
  | .object ((k, v) :: fields) =>
    "\x7b" ++ stringText k ++ ":" ++ v.text ++ fieldsText fields ++ "\x7d"

def itemsText : List Value → String
  | [] => ""
  | v :: vs => "," ++ v.text ++ itemsText vs

def fieldsText : List (String × Value) → String
  | [] => ""
  | (k, v) :: fields => "," ++ stringText k ++ ":" ++ v.text ++ fieldsText fields

end

end StyledEffects.Json
