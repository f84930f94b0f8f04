import LiveRules.Text.Lines
import LiveRules.Toml.Value

/-!
# Strings, numbers and times

Every reader here takes characters and gives what it read with the characters
after it, or nothing if the text does not fit.
-/
namespace LiveRules.Toml

def isWhite (c : Char) : Bool := c = ' ' || c = '\t'

def skipWhite (cs : List Char) : List Char := cs.dropWhile isWhite

/-- A line feed, or one after a carriage return. -/
def newline : List Char → Option (List Char)
  | '\n' :: cs => some cs
  | '\r' :: '\n' :: cs => some cs
  | _ => none

/-- Characters that comments and strings may hold. -/
def isPlain (c : Char) : Bool := c = '\t' || (0x20 ≤ c.toNat && c.toNat != 0x7F)

def isHex (c : Char) : Bool :=
  c.isDigit || ('a' ≤ c && c ≤ 'f') || ('A' ≤ c && c ≤ 'F')

def digitValue (c : Char) : Nat :=
  if c.isDigit then c.toNat - 48 else if 'a' ≤ c then c.toNat - 87 else c.toNat - 55

def number (base : Nat) (digits : List Char) : Nat :=
  digits.foldl (fun n d => n * base + digitValue d) 0

namespace Str

/-- The character of a hexadecimal code of a fixed length. -/
def coded (length : Nat) (cs : List Char) : Option (Char × List Char) :=
  let code := cs.take length
  let n := number 16 code
  if code.length = length && code.all isHex && n ≤ 0x10FFFF && !(0xD800 ≤ n && n ≤ 0xDFFF)
  then some (Char.ofNat n, cs.drop length) else none

/-- The character of an escape, after its backslash. -/
def escape : List Char → Option (Char × List Char)
  | 'b' :: cs => some ('\x08', cs)
  | 't' :: cs => some ('\t', cs)
  | 'n' :: cs => some ('\n', cs)
  | 'f' :: cs => some ('\x0c', cs)
  | 'r' :: cs => some ('\r', cs)
  | '"' :: cs => some ('"', cs)
  | '\\' :: cs => some ('\\', cs)
  | 'u' :: cs => coded 4 cs
  | 'U' :: cs => coded 8 cs
  | _ => none

/-- The rest of a basic string of one line. -/
def basic (text : List Char) (cs : List Char) : (fuel : Nat) → Option (String × List Char)
  | 0 => none
  | fuel + 1 =>
      match cs with
      | [] => none
      | '"' :: cs => some (.ofList text, cs)
      | '\\' :: cs => do
          let (c, cs) ← escape cs
          basic (text ++ [c]) cs fuel
      | c :: cs => if isPlain c then basic (text ++ [c]) cs fuel else none

/-- The rest of a literal string of one line. -/
def literal (cs : List Char) : Option (String × List Char) :=
  let text := cs.takeWhile fun c => c ≠ '\'' && isPlain c
  match cs.drop text.length with
  | '\'' :: rest => some (.ofList text, rest)
  | _ => none

/-- Whether at least three quotes stand here, and how many of up to five. -/
def closing (quote : Char) (cs : List Char) : Option Nat :=
  let run := ((cs.take 5).takeWhile (· = quote)).length
  if 3 ≤ run then some run else none

/-- White space and line breaks after a backslash at the end of a line. -/
def joinLines (cs : List Char) : Option (List Char) := do
  let cs ← newline (skipWhite cs)
  some (skipGap cs cs.length)
where
  skipGap (cs : List Char) : Nat → List Char
    | 0 => cs
    | fuel + 1 =>
        match newline cs with
        | some cs => skipGap cs fuel
        | none =>
            match cs with
            | c :: rest => if isWhite c then skipGap rest fuel else cs
            | [] => []

/-- The rest of a string of several lines. Up to two of its quotes may stand
before the closing three. -/
def multiline (quote : Char) (text : List Char) (cs : List Char) : (fuel : Nat) → Option (String × List Char)
  | 0 => none
  | fuel + 1 =>
      match closing quote cs with
      | some run => some (.ofList (text ++ List.replicate (run - 3) quote), cs.drop run)
      | none =>
          match newline cs with
          | some cs => multiline quote (text ++ ['\n']) cs fuel
          | none =>
              match cs with
              | [] => none
              | c :: rest =>
                  if c = '\\' && quote = '"' then
                    match joinLines rest with
                    | some cs => multiline quote text cs fuel
                    | none => do
                        let (c, cs) ← escape rest
                        multiline quote (text ++ [c]) cs fuel
                  else if isPlain c then multiline quote (text ++ [c]) rest fuel
                  else none

/-- A string of one line. -/
def single : List Char → Option (String × List Char)
  | '"' :: cs => basic [] cs (cs.length + 1)
  | '\'' :: cs => literal cs
  | _ => none

/-- A string; a line break right after three opening quotes is dropped. -/
def read : List Char → Option (String × List Char)
  | '"' :: '"' :: '"' :: cs =>
      let cs := (newline cs).getD cs
      multiline '"' [] cs (cs.length + 1)
  | '\'' :: '\'' :: '\'' :: cs =>
      let cs := (newline cs).getD cs
      multiline '\'' [] cs (cs.length + 1)
  | cs => single cs

end Str

namespace Num

/-- Digits with single underscores between them. -/
def digits (ok : Char → Bool) (cs : List Char) : Option (List Char) :=
  let groups := Text.pieces '_' cs
  if groups.all fun g => !g.isEmpty && g.all ok then some groups.flatten else none

def splitSign : List Char → Option Bool × List Char
  | '+' :: cs => (some false, cs)
  | '-' :: cs => (some true, cs)
  | cs => (none, cs)

/-- Decimal digits without leading zeros. -/
def wholePart (cs : List Char) : Option (List Char) := do
  let ds ← digits Char.isDigit cs
  if ds.head? = some '0' && 1 < cs.length then none else some ds

def inRange (n : Int) : Option Value :=
  if Int64.minValue.toInt ≤ n && n ≤ Int64.maxValue.toInt then some (.integer n) else none

def integer (cs : List Char) : Option Value :=
  match cs with
  | '0' :: 'x' :: cs => (digits isHex cs).bind fun ds => inRange (number 16 ds)
  | '0' :: 'o' :: cs =>
      (digits (fun c => '0' ≤ c && c ≤ '7') cs).bind fun ds => inRange (number 8 ds)
  | '0' :: 'b' :: cs =>
      (digits (fun c => c = '0' || c = '1') cs).bind fun ds => inRange (number 2 ds)
  | cs => do
      let (sign, body) := splitSign cs
      let ds ← wholePart body
      inRange (if sign = some true then -(number 10 ds : Int) else number 10 ds)

/-- Whether a decimal number is too large for a double: it rounds up to the
first power of two that has none. -/
def overflows (mantissa : Nat) (exponent : Int) : Bool :=
  if mantissa = 0 then false
  else if 400 < exponent then true
  else if exponent + mantissa.log2 < 0 then false
  else
    let limit := 1 <<< 1024 - 1 <<< 970
    if 0 ≤ exponent then limit ≤ mantissa * Nat.pow 10 exponent.toNat
    else limit * Nat.pow 10 (-exponent).toNat ≤ mantissa

/-- The digits of an exponent with their sign. -/
def exponent (cs : List Char) : Option Int := do
  let (sign, body) := splitSign cs
  let ds ← digits Char.isDigit body
  some (if sign = some true then -(number 10 ds : Int) else number 10 ds)

/-- A number with a fraction, an exponent or both. -/
def float (cs : List Char) : Option Value := do
  let (sign, body) := splitSign cs
  if body = "inf".toList || body = "nan".toList then return .float (.ofList cs)
  let isE (c : Char) : Bool := c = 'e' || c = 'E'
  let mantissa := body.takeWhile (!isE ·)
  let tail := body.drop mantissa.length
  let power ← if tail.isEmpty then some 0 else exponent (tail.drop 1)
  let whole := mantissa.takeWhile (· ≠ '.')
  let fraction := mantissa.drop whole.length
  if tail.isEmpty && fraction.isEmpty then none
  let ws ← wholePart whole
  let fs ← if fraction.isEmpty then some [] else digits Char.isDigit (fraction.drop 1)
  if sign != some true && overflows (number 10 (ws ++ fs)) (power - fs.length) then none
  return .float (.ofList cs)

end Num

namespace Time

/-- A number of two digits within bounds. -/
def two (low high : Nat) : List Char → Option (Nat × List Char)
  | a :: b :: cs =>
      let n := number 10 [a, b]
      if a.isDigit && b.isDigit && low ≤ n && n ≤ high then some (n, cs) else none
  | _ => none

def sign? (c : Char) : List Char → Option (List Char)
  | d :: cs => if d = c then some cs else none
  | [] => none

def daysIn (year month : Nat) : Nat :=
  if month = 2 then
    if year % 4 = 0 && (year % 100 != 0 || year % 400 = 0) then 29 else 28
  else if [4, 6, 9, 11].contains month then 30 else 31

def pad (n : Nat) : String := if n < 10 then "0" ++ toString n else toString n

/-- Year, month and day. -/
def date (cs : List Char) : Option (String × List Char) := do
  let year := cs.take 4
  if year.length != 4 || !year.all Char.isDigit then none
  let rest ← sign? '-' (cs.drop 4)
  let (month, rest) ← two 1 12 rest
  let rest ← sign? '-' rest
  let (day, rest) ← two 1 (daysIn (number 10 year) month) rest
  return (.ofList year ++ "-" ++ pad month ++ "-" ++ pad day, rest)

/-- Hour, minute and second, with a fraction of up to nine digits. -/
def clock (cs : List Char) : Option (String × List Char) := do
  let (hour, cs) ← two 0 23 cs
  let cs ← sign? ':' cs
  let (minute, cs) ← two 0 59 cs
  let cs ← sign? ':' cs
  let (second, cs) ← two 0 60 cs
  let text := pad hour ++ ":" ++ pad minute ++ ":" ++ pad second
  match cs with
  | '.' :: rest =>
      let ds := rest.takeWhile Char.isDigit
      if ds.isEmpty then none
      let kept := ((ds.take 9).reverse.dropWhile (· = '0')).reverse
      let fraction := if kept.isEmpty then "" else "." ++ .ofList kept
      return (text ++ fraction, rest.drop ds.length)
  | _ => return (text, cs)

def offset : List Char → Option (String × List Char)
  | 'Z' :: cs | 'z' :: cs => some ("Z", cs)
  | c :: cs =>
      if c != '+' && c != '-' then none
      else do
        let (hour, cs) ← two 0 23 cs
        let cs ← sign? ':' cs
        let (minute, cs) ← two 0 59 cs
        return (.singleton c ++ pad hour ++ ":" ++ pad minute, cs)
  | [] => none

/-- A date, a time, or both with or without an offset. -/
def read (cs : List Char) : Option (Value × List Char) :=
  match date cs with
  | none => (clock cs).map fun (t, cs) => (.moment t, cs)
  | some (d, rest) =>
      let both := match rest with
        | c :: rest =>
            if c = 'T' || c = 't' || c = ' ' then clock rest else none
        | [] => none
      match both with
      | none => some (.moment d, rest)
      | some (t, rest) =>
          match offset rest with
          | some (o, rest) => some (.moment (d ++ "T" ++ t ++ o), rest)
          | none => some (.moment (d ++ "T" ++ t), rest)

end Time

/-- The characters of numbers and bare words. -/
def isWordChar (c : Char) : Bool :=
  c.isAlphanum || c = '_' || c = '+' || c = '-' || c = '.'

/-- A number, a time or a boolean. -/
def scalar (cs : List Char) : Option (Value × List Char) :=
  match Time.read cs with
  | some r => some r
  | none =>
      let word := cs.takeWhile isWordChar
      let value :=
        if word = "true".toList then some (.boolean true)
        else if word = "false".toList then some (.boolean false)
        else Num.integer word <|> Num.float word
      value.map (·, cs.drop word.length)

end LiveRules.Toml
