import LiveRules.Yaml.Scalar

/-!
# Tokens of a document

A document is read from left to right into tokens. In block context the start
and the end of a collection follow from indentation. That a text is the key of a
mapping is only known at the colon after it, so the places where a key may have
started are remembered, and the tokens for it are put in there.
-/
namespace LiveRules.Yaml

inductive Token where
  | versionDirective (major minor : Nat)
  | tagDirective (handle : String)
  | documentStart
  | documentEnd
  | blockSequenceStart
  | blockMappingStart
  | blockEnd
  | flowSequenceStart
  | flowSequenceEnd
  | flowMappingStart
  | flowMappingEnd
  | blockEntry
  | flowEntry
  | key
  | value
  | alias (name : String)
  | anchor (name : String)
  /-- Only the handle of a tag matters here: it has to be known. -/
  | tag (handle : String)
  | scalar (text : String) (plain : Bool)
  deriving DecidableEq, Repr

/-- A place where a key may have started. -/
structure KeyMark where
  /-- Whether only a key can be there. -/
  required : Bool
  /-- How many tokens come before it. -/
  place : Nat
  index : Nat
  line : Nat
  column : Nat
  deriving DecidableEq, Repr

structure Scanner where
  cursor : Cursor
  tokens : List Token := []
  /-- The column of the innermost block collection plus one, or zero. -/
  indent : Nat := 0
  /-- The indentations around it. -/
  outer : List Nat := []
  /-- Whether a key may start here. -/
  keyAllowed : Bool := true
  /-- The key that may have started in block context. -/
  blockKey : Option KeyMark := none
  /-- The same for each flow collection that is open, innermost first. -/
  flowKeys : List (Option KeyMark) := []
  deriving DecidableEq, Repr

namespace Scanner

def inFlow (s : Scanner) : Bool := !s.flowKeys.isEmpty

def push (s : Scanner) (t : Token) : Scanner := { s with tokens := s.tokens ++ [t] }

def key (s : Scanner) : Option KeyMark :=
  match s.flowKeys with
  | k :: _ => k
  | [] => s.blockKey

def setKey (s : Scanner) (k : Option KeyMark) : Scanner :=
  match s.flowKeys with
  | _ :: ks => { s with flowKeys := k :: ks }
  | [] => { s with blockKey := k }

/-- Past white space, comments and line breaks. Tabs do not indent. -/
def skipGaps (s : Scanner) : (fuel : Nat) → Scanner
  | 0 => s
  | fuel + 1 =>
      let c := s.cursor.skipWhile fun ch =>
        ch = ' ' || ((s.inFlow || !s.keyAllowed) && ch = '\t')
      let c := if c.looksAt '#' then c.restOfLine.2 else c
      if c.breakAt 0 then
        skipGaps { s with cursor := c.readBreak.2, keyAllowed := s.keyAllowed || !s.inFlow } fuel
      else { s with cursor := c }

/-- A key stays on one line and is no longer than 1024 characters. -/
def isStale (c : Cursor) (k : KeyMark) : Bool := k.line < c.line || k.index + 1024 < c.index

def dropStale (c : Cursor) : Option KeyMark → Except Flaw (Option KeyMark)
  | none => .ok none
  | some k =>
      if !isStale c k then .ok (some k)
      else if k.required then .error .missingColon
      else .ok none

def dropStaleKeys (s : Scanner) : Except Flaw Scanner := do
  let blockKey ← dropStale s.cursor s.blockKey
  let flowKeys ← s.flowKeys.mapM (dropStale s.cursor)
  return { s with blockKey, flowKeys }

/-- Forgets that a key may have started. -/
def removeKey (s : Scanner) : Except Flaw Scanner :=
  if s.key.any (·.required) then .error .missingColon else .ok (s.setKey none)

/-- Remembers that a key may start here. -/
def saveKey (s : Scanner) : Except Flaw Scanner := do
  if !s.keyAllowed then return s
  let s ← s.removeKey
  return s.setKey (some {
    required := !s.inFlow && s.indent = s.cursor.column + 1
    place := s.tokens.length
    index := s.cursor.index
    line := s.cursor.line
    column := s.cursor.column })

/-- Ends the block collections that are indented further than `level`, a column
plus one or zero. -/
def unrollWithin (s : Scanner) (level : Nat) : (fuel : Nat) → Scanner
  | 0 => s
  | fuel + 1 =>
      if s.indent ≤ level then s
      else
        let s := { s with indent := s.outer.headD 0, outer := s.outer.tail }.push .blockEnd
        unrollWithin s level fuel

def unroll (s : Scanner) (level : Nat) : Scanner :=
  if s.inFlow then s else s.unrollWithin level (s.outer.length + 1)

/-- Starts a block collection at a column, if it is indented further than the one
around it. Its token goes to `place`. -/
def roll (s : Scanner) (column place : Nat) (t : Token) : Scanner :=
  if s.inFlow || column + 1 ≤ s.indent then s
  else { s with
    outer := s.indent :: s.outer
    indent := column + 1
    tokens := s.tokens.insertIdx place t }

/-- Reads a token of `n` characters. -/
def sign (s : Scanner) (n : Nat) (t : Token) : Scanner :=
  { s with cursor := s.cursor.skip n }.push t

/-- Before a directive or a document marker everything is closed. -/
def closeAll (s : Scanner) : Except Flaw Scanner := do
  let s ← (s.unroll 0).removeKey
  return { s with keyAllowed := false }

/-- The number at a cursor, of at most nine digits. -/
def versionNumber (c : Cursor) : Except Flaw (Nat × Cursor) :=
  let (digits, c) := c.takeWhile Char.isDigit
  if digits.isEmpty || 9 < digits.length then .error .badDirective
  else .ok (digits.foldl (fun n d => n * 10 + (d.toNat - 48)) 0, c)

/-- How many bytes a character takes whose first byte is `b`. -/
def byteCount (b : Nat) : Nat :=
  if b < 0x80 then 1 else if b < 0xC0 then 0 else if b < 0xE0 then 2
  else if b < 0xF0 then 3 else if b < 0xF8 then 4 else 0

/-- One byte written as a percent sign and two digits. -/
def escapedByte? : List Char → Option (Nat × List Char)
  | '%' :: a :: b :: rest => (Quoted.hexNumber? [a, b]).map (·, rest)
  | _ => none

/-- Later bytes of a character. -/
def escapedTail : Nat → List Char → Option (List Char)
  | 0, cs => some cs
  | n + 1, cs => do
      let (b, cs) ← escapedByte? cs
      if b / 64 = 2 then escapedTail n cs else none

/-- What follows the escaped bytes of one character. -/
def escapedChar? (cs : List Char) : Option (List Char) := do
  let (b, cs) ← escapedByte? cs
  if byteCount b = 0 then none else escapedTail (byteCount b - 1) cs

/-- Characters of a tag; the last three only between angle brackets. -/
def isTagChar (verbatim : Bool) (ch : Char) : Bool :=
  isNameChar ch || (";/?:@&=+$.!~*'()%".toList).contains ch
    || (verbatim && [',', '[', ']'].contains ch)

/-- Past the characters of a tag; answers how many there were. -/
def tagChars (verbatim : Bool) (count : Nat) (c : Cursor) : (fuel : Nat) →
    Except Flaw (Nat × Cursor)
  | 0 => .ok (count, c)
  | fuel + 1 =>
      match c.peek 0 with
      | none => .ok (count, c)
      | some ch =>
          if !isTagChar verbatim ch then .ok (count, c)
          else if ch != '%' then tagChars verbatim (count + 1) (c.skip 1) fuel
          else match escapedChar? c.rest with
            | some rest => tagChars verbatim (count + 1) (c.skip (c.rest.length - rest.length)) fuel
            | none => .error .badTag

def readTagChars (verbatim : Bool) (count : Nat) (c : Cursor) : Except Flaw (Nat × Cursor) := do
  let (count, c) ← tagChars verbatim count c c.rest.length
  if count = 0 then throw .badTag
  return (count, c)

/-- The handle at an exclamation mark. -/
def tagHandle (c : Cursor) : Except Flaw (List Char × Cursor) :=
  if !c.looksAt '!' then .error .badTag
  else
    let (name, c) := (c.skip 1).takeWhile isNameChar
    if c.looksAt '!' then .ok ('!' :: name ++ ['!'], c.skip 1) else .ok ('!' :: name, c)

def directive (c : Cursor) : Except Flaw (Token × Cursor) := do
  let (name, c) := (c.skip 1).takeWhile isNameChar
  if !c.gapAt 0 then throw .badDirective
  let c := c.skipWhile isSpaceOrTab
  let (token, c) ← match String.ofList name with
    | "YAML" => do
        let (major, c) ← versionNumber c
        if !c.looksAt '.' then throw .badDirective
        let (minor, c) ← versionNumber (c.skip 1)
        pure (Token.versionDirective major minor, c)
    | "TAG" => do
        let (handle, c) ← tagHandle c
        if handle != ['!'] && handle.getLast? != some '!' then throw .badDirective
        if !c.blankAt 0 then throw .badDirective
        let (_, c) ← readTagChars true 0 (c.skipWhile isSpaceOrTab)
        if !c.gapAt 0 then throw .badDirective
        pure (Token.tagDirective (.ofList handle), c)
    | _ => throw .badDirective
  let c := c.skipWhile isSpaceOrTab
  let c := if c.looksAt '#' then c.restOfLine.2 else c
  if !(c.atEnd || c.breakAt 0) then throw .badDirective
  return (token, c.readBreak.2)

/-- The name of an anchor or an alias, after its sign. -/
def anchorName (c : Cursor) : Except Flaw (String × Cursor) :=
  let (name, c) := (c.skip 1).takeWhile isNameChar
  let ends := c.gapAt 0 || (c.peek 0).any fun ch =>
    ['?', ':', ',', ']', '}', '%', '@', '\x60'].contains ch
  if name.isEmpty || !ends then .error .badAnchor else .ok (.ofList name, c)

/-- The handle of a tag: of a full tag it is empty. -/
def tag (flow : Bool) (c : Cursor) : Except Flaw (String × Cursor) := do
  let (handle, c) ←
    if c.peek 1 = some '<' then do
      let (_, c) ← readTagChars true 0 (c.skip 2)
      if !c.looksAt '>' then throw .badTag
      pure ("", c.skip 1)
    else do
      let (handle, c) ← tagHandle c
      if 1 < handle.length && handle.getLast? = some '!' then
        let (_, c) ← readTagChars false 0 c
        pure (String.ofList handle, c)
      else
        let (count, c) ← readTagChars false handle.length c
        pure (if count = 1 then "" else "!", c)
  if !(c.gapAt 0 || (flow && c.looksAt ',')) then throw .badTag
  return (handle, c)

def startFlow (s : Scanner) (t : Token) : Except Flaw Scanner := do
  let s ← s.saveKey
  return { s with flowKeys := none :: s.flowKeys, keyAllowed := true }.sign 1 t

def endFlow (s : Scanner) (t : Token) : Except Flaw Scanner := do
  let s ← s.removeKey
  return { s with flowKeys := s.flowKeys.tail, keyAllowed := false }.sign 1 t

def flowEntry (s : Scanner) : Except Flaw Scanner := do
  let s ← s.removeKey
  return { s with keyAllowed := true }.sign 1 .flowEntry

def blockEntry (s : Scanner) : Except Flaw Scanner := do
  if !s.inFlow && !s.keyAllowed then throw .entryNotAllowed
  let s ← (s.roll s.cursor.column s.tokens.length .blockSequenceStart).removeKey
  return { s with keyAllowed := true }.sign 1 .blockEntry

def explicitKey (s : Scanner) : Except Flaw Scanner := do
  if !s.inFlow && !s.keyAllowed then throw .keyNotAllowed
  let s ← (s.roll s.cursor.column s.tokens.length .blockMappingStart).removeKey
  return { s with keyAllowed := !s.inFlow }.sign 1 .key

def mappingValue (s : Scanner) : Except Flaw Scanner := do
  match s.key with
  | some k =>
      let s := { s with tokens := s.tokens.insertIdx k.place .key }
      let s := (s.roll k.column k.place .blockMappingStart).setKey none
      return { s with keyAllowed := false }.sign 1 .value
  | none =>
      if !s.inFlow && !s.keyAllowed then throw .valueNotAllowed
      let s := s.roll s.cursor.column s.tokens.length .blockMappingStart
      return { s with keyAllowed := !s.inFlow }.sign 1 .value

/-- Reads something that may be a key. -/
def node (s : Scanner) (read : Cursor → Except Flaw (Token × Cursor)) : Except Flaw Scanner := do
  let s ← s.saveKey
  let (t, cursor) ← read s.cursor
  return { s with cursor, keyAllowed := false }.push t

def blockScalar (s : Scanner) (literal : Bool) : Except Flaw Scanner := do
  let s ← s.removeKey
  let (text, cursor) ← Block.read literal s.indent s.cursor
  return { s with cursor, keyAllowed := true }.push (.scalar (.ofList text) false)

def plainScalar (s : Scanner) : Except Flaw Scanner := do
  let s ← s.saveKey
  let (text, broken, cursor) ← Plain.read s.inFlow s.indent s.cursor
  return { s with cursor, keyAllowed := broken }.push (.scalar (.ofList text) true)

/-- Signs that no plain text starts with, unless more is said. -/
def indicators : List Char :=
  ['-', '?', ':', ',', '[', ']', '{', '}', '#', '&', '*', '!', '|', '>', '\'', '"', '%', '@',
   '\x60']

def startsPlain (s : Scanner) (ch : Char) : Bool :=
  (!isSpaceOrTab ch && !indicators.contains ch) || (ch = '-' && !s.cursor.blankAt 1)
    || (!s.inFlow && (ch = '?' || ch = ':') && !s.cursor.gapAt 1)

/-- Reads the token that starts with `ch`. -/
def token (s : Scanner) (ch : Char) : Except Flaw Scanner := do
  let c := s.cursor
  if c.column = 0 && ch = '%' then
    let s ← s.closeAll
    let (t, cursor) ← directive c
    return { s with cursor }.push t
  if c.atMarker '-' then return (← s.closeAll).sign 3 .documentStart
  if c.atMarker '.' then return (← s.closeAll).sign 3 .documentEnd
  match ch with
  | '[' => s.startFlow .flowSequenceStart
  | '{' => s.startFlow .flowMappingStart
  | ']' => s.endFlow .flowSequenceEnd
  | '}' => s.endFlow .flowMappingEnd
  | ',' => s.flowEntry
  | '*' => s.node fun c => do
      let (name, c) ← anchorName c
      return (.alias name, c)
  | '&' => s.node fun c => do
      let (name, c) ← anchorName c
      return (.anchor name, c)
  | '!' => s.node fun c => do
      let (handle, c) ← tag s.inFlow c
      return (.tag handle, c)
  | '\'' => s.node fun c => do
      let (text, c) ← Quoted.read true c
      return (.scalar (.ofList text) false, c)
  | '"' => s.node fun c => do
      let (text, c) ← Quoted.read false c
      return (.scalar (.ofList text) false, c)
  | ch =>
      if ch = '-' && c.gapAt 1 then s.blockEntry
      else if ch = '?' && (s.inFlow || c.gapAt 1) then s.explicitKey
      else if ch = ':' && (s.inFlow || c.gapAt 1) then s.mappingValue
      else if ch = '|' && !s.inFlow then s.blockScalar true
      else if ch = '>' && !s.inFlow then s.blockScalar false
      else if s.startsPlain ch then s.plainScalar
      else throw .unexpectedCharacter

/-- Reads token after token up to the end. -/
def scan (s : Scanner) : (fuel : Nat) → Except Flaw (List Token)
  | 0 => .ok s.tokens
  | fuel + 1 => do
      let s ← (s.skipGaps (s.cursor.rest.length + 1)).dropStaleKeys
      let s := s.unroll (s.cursor.column + 1)
      match s.cursor.peek 0 with
      | none => return (← (s.unroll 0).removeKey).tokens
      | some ch => scan (← s.token ch) fuel

end Scanner

/-- A byte order mark at the start is no part of the text. -/
def dropOrderMark : List Char → List Char
  | c :: cs => if c.toNat = 0xFEFF then cs else c :: cs
  | [] => []

/-- The tokens of a document. -/
def Token.ofText (text : String) : Except Flaw (List Token) :=
  let cs := dropOrderMark text.toList
  if cs.any (!isAllowed ·) then .error .controlCharacter
  else Scanner.scan { cursor := { rest := cs } } (cs.length + 1)

end LiveRules.Yaml
