import LiveRules.Text.Inspect

/-!
# JSON texts

Strings and objects of strings in the interchange format. Only control
characters, the double quote and the backslash are escaped.
-/
namespace LiveRules.Text

def jsonChar (c : Char) : String :=
  match c with
  | '"' => "\\\""
  | '\\' => "\\\\"
  | '\n' => "\\n"
  | '\r' => "\\r"
  | '\t' => "\\t"
  | c =>
      if c.toNat = 8 then "\\b"
      else if c.toNat = 12 then "\\f"
      else if c.toNat < 32 then "\\u00" ++ twoHexDigits c.toNat
      else .singleton c

def jsonString (s : String) : String :=
  "\"" ++ String.join (s.toList.map jsonChar) ++ "\""

/-- An object with one field a line. -/
def jsonObject (fields : List (String × String)) : String :=
  let spelled := fields.map fun f => "  " ++ jsonString f.1 ++ ": " ++ jsonString f.2
  "\x7b\n" ++ ",\n".intercalate spelled ++ "\n\x7d"

end LiveRules.Text
