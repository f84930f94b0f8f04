import LiveRules.Yaml.Cursor

/-!
# Scalars

The four ways to write a text: plain, in single or double quotes, and as a block
whose lines are kept or folded. Line breaks inside plain and quoted texts are
folded: one becomes a space, and of more the first is dropped.
-/
namespace LiveRules.Yaml

/-- White space that was read after some text: spaces of the same line, or else
the first line break and the ones after it. -/
structure Gap where
  spaces : List Char := []
  firstBreak : List Char := []
  moreBreaks : List Char := []
  /-- Whether a line has ended. -/
  broken : Bool := false
  deriving DecidableEq, Repr

namespace Gap

/-- What the gap adds to a text. -/
def folded (g : Gap) : List Char :=
  if !g.broken then g.spaces
  else if g.firstBreak = ['\n'] then (if g.moreBreaks.isEmpty then [' '] else g.moreBreaks)
  else g.firstBreak ++ g.moreBreaks

def addBreak (g : Gap) (text : List Char) : Gap :=
  if g.broken then { g with moreBreaks := g.moreBreaks ++ text }
  else { firstBreak := text, broken := true }

/-- Reads white space; a tab left of column `indent` is refused. -/
def read (indent : Nat) (g : Gap) (c : Cursor) : (fuel : Nat) → Except Flaw (Gap × Cursor)
  | 0 => .ok (g, c)
  | fuel + 1 =>
      match c.peek 0 with
      | none => .ok (g, c)
      | some ch =>
          if isSpaceOrTab ch then
            if g.broken && c.column < indent && ch = '\t' then .error .tabInIndentation
            else
              let g := if g.broken then g else { g with spaces := g.spaces ++ [ch] }
              read indent g (c.skip 1) fuel
          else if isBreak ch then
            let (text, c) := c.readBreak
            read indent (g.addBreak text) c fuel
          else .ok (g, c)

end Gap

namespace Plain

def flowEnds : List Char := [',', '[', ']', '{', '}']

/-- The characters of a plain text up to white space or to what ends it. -/
def run (flow : Bool) (text : List Char) (c : Cursor) : (fuel : Nat) →
    Except Flaw (List Char × Cursor)
  | 0 => .ok (text, c)
  | fuel + 1 =>
      if c.gapAt 0 then .ok (text, c)
      else match c.peek 0 with
        | none => .ok (text, c)
        | some ch =>
            if flow && ch = ':' && (c.peek 1).any (fun d => ('?' :: flowEnds).contains d) then
              .error .unexpectedColon
            else if (ch = ':' && c.gapAt 1) || (flow && flowEnds.contains ch) then .ok (text, c)
            else run flow (text ++ [ch]) (c.skip 1) fuel

/-- Reads a plain text; `gap` is the white space before the next part. -/
def parts (flow : Bool) (indent : Nat) (text : List Char) (gap : Gap) (c : Cursor) :
    (fuel : Nat) → Except Flaw (List Char × Bool × Cursor)
  | 0 => .ok (text, gap.broken, c)
  | fuel + 1 => do
      if c.atMarker '-' || c.atMarker '.' || c.looksAt '#' then return (text, gap.broken, c)
      let (part, c) ← run flow [] c c.rest.length
      let text := if part.isEmpty then text else text ++ gap.folded ++ part
      let gap := if part.isEmpty then gap else {}
      if c.atEnd || !c.gapAt 0 then return (text, gap.broken, c)
      let (gap, c) ← gap.read indent c c.rest.length
      if !flow && c.column < indent then return (text, gap.broken, c)
      parts flow indent text gap c fuel

/-- A plain text, and whether a line ended after it. -/
def read (flow : Bool) (indent : Nat) (c : Cursor) : Except Flaw (List Char × Bool × Cursor) :=
  parts flow indent [] {} c (c.rest.length + 1)

end Plain

namespace Quoted

def hexValue? (c : Char) : Option Nat :=
  if c.isDigit then some (c.toNat - 48)
  else if 'a' ≤ c && c ≤ 'f' then some (c.toNat - 87)
  else if 'A' ≤ c && c ≤ 'F' then some (c.toNat - 55)
  else none

/-- The number that hexadecimal digits spell. -/
def hexNumber? (cs : List Char) : Option Nat :=
  cs.foldlM (fun n c => (hexValue? c).map (n * 16 + ·)) 0

/-- The character for a code, unless it is half of a pair or out of range. -/
def codeChar? (n : Nat) : Option Char :=
  if n ≤ 0x10FFFF && !(0xD800 ≤ n && n ≤ 0xDFFF) then some (Char.ofNat n) else none

/-- Escapes of one letter. -/
def escapes : List (Char × Nat) :=
  [('0', 0), ('a', 7), ('b', 8), ('t', 9), ('\t', 9), ('n', 10), ('v', 11), ('f', 12),
   ('r', 13), ('e', 27), (' ', 32), ('"', 34), ('/', 47), ('\\', 92), ('N', 0x85),
   ('_', 0xA0), ('L', 0x2028), ('P', 0x2029)]

/-- How many digits follow the letter of a numeric escape. -/
def digitsAfter : Char → Option Nat
  | 'x' => some 2
  | 'u' => some 4
  | 'U' => some 8
  | _ => none

/-- The character that the escape at a backslash stands for, and its length. -/
def escape (c : Cursor) : Except Flaw (Char × Nat) :=
  match c.peek 1 with
  | none => .error .badEscape
  | some letter =>
      match escapes.lookup letter, digitsAfter letter with
      | some n, _ => .ok (Char.ofNat n, 2)
      | none, some digits =>
          let code := (c.rest.drop 2).take digits
          match (if code.length = digits then hexNumber? code else none).bind codeChar? with
          | some ch => .ok (ch, 2 + digits)
          | none => .error .badEscape
      | none, none => .error .badEscape

/-- The characters up to white space, the closing quote or an escaped line
break; the last is read, too, which the answer tells. -/
def run (single : Bool) (text : List Char) (c : Cursor) : (fuel : Nat) →
    Except Flaw (List Char × Bool × Cursor)
  | 0 => .ok (text, false, c)
  | fuel + 1 =>
      if c.gapAt 0 then .ok (text, false, c)
      else match c.peek 0 with
        | none => .ok (text, false, c)
        | some ch =>
            if single && ch = '\'' && c.peek 1 = some '\'' then
              run single (text ++ ['\'']) (c.skip 2) fuel
            else if ch = (if single then '\'' else '"') then .ok (text, false, c)
            else if !single && ch = '\\' then
              if c.breakAt 1 then .ok (text, true, (c.skip 1).readBreak.2)
              else match escape c with
                | .ok (ch, n) => run single (text ++ [ch]) (c.skip n) fuel
                | .error e => .error e
            else run single (text ++ [ch]) (c.skip 1) fuel

def parts (single : Bool) (text : List Char) (c : Cursor) : (fuel : Nat) →
    Except Flaw (List Char × Cursor)
  | 0 => .error .unclosedQuote
  | fuel + 1 => do
      if c.atMarker '-' || c.atMarker '.' || c.atEnd then throw .unclosedQuote
      let (text, escaped, c) ← run single text c c.rest.length
      if !escaped && !c.gapAt 0 then return (text, c.skip 1)
      let (gap, c) ← ({ broken := escaped } : Gap).read 0 c c.rest.length
      parts single (text ++ gap.folded) c fuel

/-- A quoted text, from its opening quote. -/
def read (single : Bool) (c : Cursor) : Except Flaw (List Char × Cursor) :=
  parts single [] (c.skip 1) (c.rest.length + 1)

end Quoted

namespace Block

/-- What becomes of the line breaks at the end. -/
inductive Chomping where
  | strip
  | clip
  | keep
  deriving DecidableEq, Repr

/-- The signs after the indicator, in either order: chomping and indentation. -/
def header (c : Cursor) : Except Flaw (Chomping × Option Nat × Cursor) := do
  let sign? (c : Cursor) : Option Chomping :=
    match c.peek 0 with
    | some '+' => some .keep
    | some '-' => some .strip
    | _ => none
  let digit? (c : Cursor) : Option Nat :=
    match c.peek 0 with
    | some ch => if ch.isDigit then some (ch.toNat - 48) else none
    | none => none
  let step? {α : Type} (a : Option α) (c : Cursor) : Cursor :=
    if a.isSome then c.skip 1 else c
  let first := sign? c
  let c := step? first c
  let width := digit? c
  let c := step? width c
  let second := if first.isSome then none else if width.isSome then sign? c else none
  let c := step? second c
  if width = some 0 then throw .badBlockHeader
  return ((first <|> second).getD .clip, width, c)

/-- Reads indentation and empty lines. An indentation of zero is not known yet;
`widest` is the widest line so far. -/
def emptyLines (indent widest : Nat) (breaks : List Char) (c : Cursor) : (fuel : Nat) →
    Except Flaw (List Char × Nat × Cursor)
  | 0 => .ok (breaks, widest, c)
  | fuel + 1 =>
      let run := (c.rest.takeWhile (· = ' ')).length
      let c := c.skip (if indent = 0 then run else min run (indent - c.column))
      let widest := max widest c.column
      if (indent = 0 || c.column < indent) && c.looksAt '\t' then .error .tabInIndentation
      else if c.breakAt 0 then
        let (text, c) := c.readBreak
        emptyLines indent widest (breaks ++ text) c fuel
      else .ok (breaks, widest, c)

/-- Reads indentation and empty lines, and settles an unknown indentation. -/
def indentation (outer indent : Nat) (c : Cursor) : Except Flaw (List Char × Nat × Cursor) := do
  let (breaks, widest, c) ← emptyLines indent 0 [] c (c.rest.length + 1)
  return (breaks, if indent = 0 then max (max widest outer) 1 else indent, c)

/-- The lines of a block. `lead` is the line break before the current line and
`breaks` are the empty lines between. -/
def content (literal : Bool) (indent : Nat) (text lead breaks : List Char)
    (blankBefore : Bool) (c : Cursor) :
    (fuel : Nat) → Except Flaw (List Char × List Char × List Char × Cursor)
  | 0 => .ok (text, lead, breaks, c)
  | fuel + 1 => do
      if c.column != indent || c.atEnd then return (text, lead, breaks, c)
      let blankHere := c.blankAt 0
      let joint :=
        if !literal && lead = ['\n'] && !blankBefore && !blankHere then
          if breaks.isEmpty then [' '] else []
        else lead
      let (line, c) := c.restOfLine
      let (next, c) := c.readBreak
      let (more, _, c) ← emptyLines indent 0 [] c (c.rest.length + 1)
      content literal indent (text ++ joint ++ breaks ++ line) next more blankHere c fuel

/-- A block text, from its indicator. `outer` is one more than the indentation
around it. -/
def read (literal : Bool) (outer : Nat) (c : Cursor) : Except Flaw (List Char × Cursor) := do
  let (chomping, width, c) ← header (c.skip 1)
  let c := c.skipWhile isSpaceOrTab
  let c := if c.looksAt '#' then c.restOfLine.2 else c
  if !(c.atEnd || c.breakAt 0) then throw .badBlockHeader
  let c := c.readBreak.2
  let indent := match width with
    | some n => if outer = 0 then n else outer - 1 + n
    | none => 0
  let (breaks, indent, c) ← indentation outer indent c
  let (text, lead, breaks, c) ← content literal indent [] [] breaks false c (c.rest.length + 1)
  let tail := match chomping with
    | .strip => []
    | .clip => lead
    | .keep => lead ++ breaks
  return (text ++ tail, c)

end Block
end LiveRules.Yaml
