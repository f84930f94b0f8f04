import LiveRules.Text.Inspect
import LiveRules.Toml.Value

/-!
# Writing documents

A text is written in the first form that needs no escapes: in double quotes, in
single quotes, then in three of either. Only a text that fits none of them is
written with escapes. Tables follow the other values of the table they are in,
each in a section of its own.
-/
namespace LiveRules.Toml

namespace Quote

/-- Characters that can only be written as escapes; tabs and line feeds are not
among them. -/
def isControl (c : Char) : Bool :=
  (c.toNat < 0x20 && c ≠ '\t' && c ≠ '\n') || c.toNat = 0x7F

def upperHex (n : Nat) : List Char := (Nat.toDigits 16 n).map Char.toUpper

def codeEscape (c : Char) : List Char :=
  let digits := upperHex c.toNat
  '\\' :: 'u' :: List.replicate (4 - digits.length) '0' ++ digits

/-- A character of a text that is written with escapes. -/
def escaped (c : Char) : List Char :=
  match c with
  | '\x08' => ['\\', 'b']
  | '\t' => ['\\', 't']
  | '\n' => ['\\', 'n']
  | '\x0c' => ['\\', 'f']
  | '\r' => ['\\', 'r']
  | '"' => ['\\', '"']
  | '\\' => ['\\', '\\']
  | c => if isControl c then codeEscape c else [c]

/-- Writes over several lines; `run` counts the quotes just before, of which the
third in a row is escaped. -/
def escapedLines (run : Nat) : List Char → List Char
  | [] => []
  | '\n' :: cs => '\n' :: escapedLines 0 cs
  | '"' :: cs => if run = 2 then '\\' :: '"' :: escapedLines 0 cs else '"' :: escapedLines (run + 1) cs
  | c :: cs => escaped c ++ escapedLines 0 cs

def keepTabs (cs : List Char) : List Char :=
  cs.flatMap fun c => if c = '\t' then ['\\', 't'] else [c]

def hasThree (quote : Char) : List Char → Bool
  | [] => false
  | c :: cs => [quote, quote, quote].isPrefixOf (c :: cs) || hasThree quote cs

def between (quotes : String) (cs : List Char) : String := quotes ++ .ofList cs ++ quotes

/-- Three quotes on either side; several lines start on a new one. -/
def block (quotes : String) (cs body : List Char) : String :=
  between quotes (if cs.contains '\n' then '\n' :: body else body)

def fitsBasic (cs : List Char) : Bool :=
  cs.all fun c => c ≠ '\\' && c ≠ '"' && c ≠ '\n' && !isControl c

def fitsLiteral (cs : List Char) : Bool :=
  cs.all fun c => c ≠ '\'' && c ≠ '\n' && !isControl c

def fitsBasicBlock (cs : List Char) : Bool :=
  (cs.all fun c => c ≠ '\\' && !isControl c) && !hasThree '"' cs

def fitsLiteralBlock (cs : List Char) : Bool :=
  (cs.all fun c => !isControl c) && !hasThree '\'' cs

def string (s : String) : String :=
  let cs := s.toList
  if fitsBasic cs then between "\"" (keepTabs cs)
  else if fitsLiteral cs then between "'" cs
  else if fitsBasicBlock cs then block "\"\"\"" cs (keepTabs cs)
  else if fitsLiteralBlock cs then block "'''" cs cs
  else if cs.contains '\n' then block "\"\"\"" cs (escapedLines 0 cs)
  else between "\"" (cs.flatMap escaped)

def isBare (c : Char) : Bool := c.isAlphanum || c = '_' || c = '-'

def key (s : String) : String :=
  let cs := s.toList
  if !cs.isEmpty && cs.all isBare then s
  else if fitsBasic cs then between "\"" (keepTabs cs)
  else if fitsLiteral cs then between "'" cs
  else between "\"" (cs.flatMap escaped)

end Quote

namespace Document

/-- A list in which every item but a lone one has a line of its own. -/
def list : List String → String
  | [] => "[]"
  | [item] => "[" ++ item ++ "]"
  | items => "[\n" ++ String.join (items.map fun i => "    " ++ i ++ ",\n") ++ "]"

mutual

/-- A value on the right of an equals sign. -/
def inline : Value → String
  | .string s => Quote.string s
  | .integer n => toString n
  | .float spelling => spelling
  | .boolean b => toString b
  | .array items => list (inlineItems items)
  | .table entries => "\x7b " ++ ", ".intercalate (inlineEntries entries) ++ " \x7d"

def inlineItems : List Value → List String
  | [] => []
  | v :: vs => inline v :: inlineItems vs

def inlineEntries : List (String × Value) → List String
  | [] => []
  | (k, v) :: es => (Quote.key k ++ " = " ++ inline v) :: inlineEntries es

end

def isTable : Value → Bool
  | .table _ => true
  | _ => false

/-- Whether a value has sections of its own: a table, or a list of some. -/
def isSection : Value → Bool
  | .table _ => true
  | .array items => !items.isEmpty && items.all isTable
  | _ => false

/-- The lines of the values without sections. -/
def bindings (entries : List (String × Value)) : String :=
  String.join (entries.map fun e =>
    if isSection e.2 then "" else Quote.key e.1 ++ " = " ++ inline e.2 ++ "\n")

def pathText (path : List String) : String := ".".intercalate (path.map Quote.key)

mutual

/-- The sections of a value, the outer ones first. -/
def sectionsOf (path : List String) : Value → List String
  | .table entries =>
      ("[" ++ pathText path ++ "]\n" ++ bindings entries) :: sections path entries
  | .array items => itemSections path items
  | _ => []

def itemSections (path : List String) : List Value → List String
  | [] => []
  | .table entries :: rest =>
      ("[[" ++ pathText path ++ "]]\n" ++ bindings entries) :: sections path entries
        ++ itemSections path rest
  | _ :: rest => itemSections path rest

/-- The sections of the values of a table. -/
def sections (path : List String) : List (String × Value) → List String
  | [] => []
  | (k, v) :: rest =>
      (if isSection v then sectionsOf (path ++ [k]) v else []) ++ sections path rest

end

/-- The text of a document. -/
def render (entries : List (String × Value)) : String :=
  let top := bindings entries
  "\n".intercalate ((if top.isEmpty then [] else [top]) ++ sections [] entries)

end Document
end LiveRules.Toml
