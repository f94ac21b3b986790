import StyledEffects.Text.Hex
import StyledEffects.Text.Hidden

/-! Text in double quotes, as messages show it: quotes and backslashes are escaped, and a
character without a glyph of its own is shown by its code point. -/

namespace StyledEffects.Text

def escaped (c : Char) : String :=
  if c = '"' then "\\\"" else if c = '\\' then "\\\\" else if c = '\n' then "\\n"
  else if c = '\r' then "\\r" else if c = '\t' then "\\t" else if c.toNat = 0 then "\\0"
  else if isHidden c then "\\u\x7b" ++ hex c.toNat ++ "\x7d"
  else c.toString

def quoted (text : String) : String :=
  "\"" ++ String.join (text.toList.map escaped) ++ "\""

/-- The path of a file in quotes. Here apostrophes are escaped too. -/
def quotedPath (path : String) : String :=
  "\"" ++ String.join (path.toList.map fun c => if c = '\'' then "\\'" else escaped c) ++ "\""

end StyledEffects.Text
