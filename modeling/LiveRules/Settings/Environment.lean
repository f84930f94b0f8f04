import LiveRules.Text.Blank
import LiveRules.Toml.Scalar

/-!
# Settings from the environment

A variable whose name starts with the prefix of the program, in any case, sets
the value that the rest of the name leads to; two underscores separate levels.
What it is set to is read as a value if it is one as a whole, and as a plain
text otherwise.
-/
namespace LiveRules.Settings.Environment
open Toml

/-- White space around values. -/
def isSpace (c : Char) : Bool :=
  c = ' ' || c = '\t' || c = '\n' || c = '\r' || c = '\x0c'

def skipSpace (cs : List Char) : List Char := cs.dropWhile isSpace

def separators : List Char := [',', '\x7b', '\x7d', '[', ']']

/-- The text between double quotes, with escapes as in a document. -/
def quoted (text : List Char) (cs : List Char) : (fuel : Nat) →
    Option (String × List Char)
  | 0 => none
  | fuel + 1 =>
      match cs with
      | [] => none
      | '"' :: cs => some (.ofList text, cs)
      | '\\' :: cs => do
          let (c, cs) ← Str.escape cs
          quoted (text ++ [c]) cs fuel
      | c :: cs => if isPlain c then quoted (text ++ [c]) cs fuel else none

/-- A decimal number without a sign that fits a word. -/
def natural (cs : List Char) : Option Nat :=
  if cs.isEmpty || !cs.all Char.isDigit then none
  else
    let n := number 10 cs
    if n < UInt64.size then some n else none

/-- A whole number, which may have a sign. -/
def integer (cs : List Char) : Option Int :=
  match cs with
  | '+' :: ds => (natural ds).map Int.ofNat
  | '-' :: ds => do
      let n ← natural ds
      if Int64.minValue.toInt ≤ -(n : Int) then some (-(n : Int)) else none
  | ds => (natural ds).map Int.ofNat

/-- Whether characters spell a number with a point in it, as in `1.5`, `.5` or
`1.e3`. -/
def isDecimal (cs : List Char) : Bool :=
  let body := (Num.splitSign cs).2
  let isE (c : Char) : Bool := c = 'e' || c = 'E'
  let mantissa := body.takeWhile (!isE ·)
  let tail := body.drop mantissa.length
  let power := (Num.splitSign (tail.drop 1)).2
  let whole := mantissa.takeWhile (· ≠ '.')
  let fraction := (mantissa.drop whole.length).drop 1
  mantissa.contains '.' && (whole ++ fraction).all Char.isDigit && !(whole ++ fraction).isEmpty
    && (tail.isEmpty || (!power.isEmpty && power.all Char.isDigit))

/-- What a bare word means. -/
def word (cs : List Char) : Value :=
  if isDecimal cs then .float (.ofList cs)
  else match integer cs with
    | some n => .integer n
    | none => .string (.ofList cs)

def isKeyChar (c : Char) : Bool := c.isAlphanum || c = '_' || c = '-'

/-- A key with the equals sign after it. -/
def key (cs : List Char) : Option (String × List Char) := do
  let cs := skipSpace cs
  let (k, cs) ← match cs with
    | '"' :: cs => quoted [] cs (cs.length + 1)
    | cs =>
        let k := cs.takeWhile isKeyChar
        if k.isEmpty then none else some (String.ofList k, cs.drop k.length)
  match skipSpace cs with
  | '=' :: cs => some (k, cs)
  | _ => none

/-- Items up to a closing sign. -/
def collect {α : Type} (item : List Char → Option (α × List Char)) (close : Char)
    (items : List α) (cs : List Char) : (fuel : Nat) → Option (List α × List Char)
  | 0 => none
  | fuel + 1 =>
      if cs.head? = some close then some (items, cs.drop 1)
      else do
        let (a, cs) ← item cs
        let items := items ++ [a]
        match cs with
        | ',' :: cs => collect item close items cs fuel
        | c :: cs => if c = close then some (items, cs) else none
        | [] => none

/-- Binds keys in turn; a later binding replaces an earlier one. -/
def tableOf (entries : List (String × Value)) : Value :=
  .table (entries.foldl (fun es e => es.filter (·.1 ≠ e.1) ++ [e]) [])

/-- A value with collections nested at most `depth` deep. -/
def value : (depth : Nat) → List Char → Option (Value × List Char)
  | depth, cs =>
      let cs := skipSpace cs
      let done (r : Option (Value × List Char)) : Option (Value × List Char) :=
        r.map fun (v, cs) => (v, skipSpace cs)
      if "true".toList.isPrefixOf cs then done (some (.boolean true, cs.drop 4))
      else if "false".toList.isPrefixOf cs then done (some (.boolean false, cs.drop 5))
      else match depth, cs with
        | depth + 1, '[' :: cs =>
            done ((collect (value depth) ']' [] cs (cs.length + 1)).map
              fun (vs, cs) => (.array vs, cs))
        | depth + 1, '\x7b' :: cs =>
            done ((collect (binding depth (value depth)) '\x7d' [] cs (cs.length + 1)).map
              fun (es, cs) => (tableOf es, cs))
        | _, '"' :: cs =>
            done ((quoted [] cs (cs.length + 1)).map fun (s, cs) => (.string s, cs))
        | _, '\'' :: c :: '\'' :: cs => done (some (.string (.singleton c), cs))
        | _, '\'' :: _ => none
        | _, cs =>
            let run := cs.takeWhile (!separators.contains ·)
            done (some (word (Text.trimmed run), cs.drop run.length))
where
  binding (_ : Nat) (item : List Char → Option (Value × List Char)) (cs : List Char) :
      Option ((String × Value) × List Char) := do
    let (k, cs) ← key cs
    let (v, cs) ← item cs
    return ((k, v), cs)

/-- What a variable is set to. -/
def parse (s : String) : Value :=
  match value s.length s.toList with
  | some (v, []) => v
  | _ => .string s

def programPrefix : String := "rulewatch_"

/-- The path that a name leads to, if it is one of the program's. -/
def path? (name : String) : Option (List String) :=
  let name := Text.lower (Text.trim name)
  if !name.startsWith programPrefix then none
  else
    let keys := ((name.drop programPrefix.length).toString.replace "__" ".").splitOn "."
    if keys.any (·.isEmpty) then none else some keys

/-- A table with one value at a path. -/
def nested : List String → Value → Value
  | [], v => v
  | k :: ks, v => .table [(k, nested ks v)]

end LiveRules.Settings.Environment
