import LiveRules.Text.Printable

/-!
# Inspection texts

One-line texts that show a value with its field names, such as
`Group { tag: "a", files: [], len: 2 }`. Texts stand in double quotes; a
character without a visible shape is written by its code point.
-/
namespace LiveRules.Text

/-- Hexadecimal digits without leading zeros. -/
def hexDigits (n : Nat) : String := .ofList (Nat.toDigits 16 n)

/-- The two hexadecimal digits of a number below 256. -/
def twoHexDigits (n : Nat) : String :=
  .ofList [Nat.digitChar (n / 16), Nat.digitChar (n % 16)]

/-- The spelling of one character between double quotes. -/
def quotedChar (c : Char) : String :=
  match c with
  | '\t' => "\\t"
  | '\n' => "\\n"
  | '\r' => "\\r"
  | '"' => "\\\""
  | '\\' => "\\\\"
  | c =>
      if c = Char.ofNat 0 then "\\0"
      else if isPrintable c then .singleton c
      else "\\u\x7b" ++ hexDigits c.toNat ++ "\x7d"

def quoted (s : String) : String :=
  "\"" ++ String.join (s.toList.map quotedChar) ++ "\""

def quotedList (items : List String) : String :=
  "[" ++ ", ".intercalate (items.map quoted) ++ "]"

/-- A named group of fields whose values are already spelled. -/
def record (name : String) (fields : List (String × String)) : String :=
  name ++ " \x7b " ++ ", ".intercalate (fields.map fun f => f.1 ++ ": " ++ f.2) ++ " \x7d"

end LiveRules.Text
