/-!
# Places in a document

A cursor is what is left of a document and how far it has been read. Besides
line feeds, carriage returns and their pairs, three more characters end a line.
-/
namespace LiveRules.Yaml

/-- What is wrong with a document. -/
inductive Flaw where
  | controlCharacter
  | unexpectedCharacter
  | missingColon
  | entryNotAllowed
  | keyNotAllowed
  | valueNotAllowed
  | badDirective
  | badAnchor
  | badTag
  | undefinedTag
  | badBlockHeader
  | tabInIndentation
  | unclosedQuote
  | badEscape
  | unexpectedColon
  | noDocumentStart
  | noNodeContent
  | unclosedCollection
  | unknownAnchor
  | severalDocuments
  deriving DecidableEq, Repr

namespace Flaw

def message : Flaw → String
  | controlCharacter => "control characters are not allowed"
  | unexpectedCharacter => "found character that cannot start any token"
  | missingColon => "could not find expected ':'"
  | entryNotAllowed => "block sequence entries are not allowed in this context"
  | keyNotAllowed => "mapping keys are not allowed in this context"
  | valueNotAllowed => "mapping values are not allowed in this context"
  | badDirective => "found a malformed directive"
  | badAnchor => "did not find expected alphabetic or numeric character"
  | badTag => "did not find expected tag URI"
  | undefinedTag => "found undefined tag handle"
  | badBlockHeader => "did not find expected comment or line break"
  | tabInIndentation => "found a tab character where an indentation space is expected"
  | unclosedQuote => "found unexpected end of stream"
  | badEscape => "found unknown escape character"
  | unexpectedColon => "found unexpected ':'"
  | noDocumentStart => "did not find expected <document start>"
  | noNodeContent => "did not find expected node content"
  | unclosedCollection => "did not find expected ',' or the end of a collection"
  | unknownAnchor => "unknown anchor"
  | severalDocuments => "deserializing from YAML containing more than one document"

end Flaw

/-- Characters that a document may hold. -/
def isAllowed (c : Char) : Bool :=
  let n := c.toNat
  n = 0x09 || n = 0x0A || n = 0x0D || (0x20 ≤ n && n ≤ 0x7E) || n = 0x85
    || (0xA0 ≤ n && n ≤ 0xD7FF) || (0xE000 ≤ n && n ≤ 0xFFFD && n != 0xFEFF)
    || 0x10000 ≤ n

def isBreak (c : Char) : Bool :=
  let n := c.toNat
  n = 0x0A || n = 0x0D || n = 0x85 || n = 0x2028 || n = 0x2029

def isSpaceOrTab (c : Char) : Bool := c = ' ' || c = '\t'

/-- Characters of names: of anchors, directives and tag handles. -/
def isNameChar (c : Char) : Bool := c.isAlphanum || c = '_' || c = '-'

structure Cursor where
  rest : List Char
  index : Nat := 0
  line : Nat := 0
  column : Nat := 0
  deriving DecidableEq, Repr

namespace Cursor

/-- The character `n` places ahead. -/
def peek (c : Cursor) (n : Nat) : Option Char := c.rest[n]?

def atEnd (c : Cursor) : Bool := c.rest.isEmpty

def looksAt (c : Cursor) (ch : Char) : Bool := c.peek 0 = some ch

def breakAt (c : Cursor) (n : Nat) : Bool := (c.peek n).any isBreak

def blankAt (c : Cursor) (n : Nat) : Bool := (c.peek n).any isSpaceOrTab

/-- A space, a tab, a line break, or the end. -/
def gapAt (c : Cursor) (n : Nat) : Bool :=
  match c.peek n with
  | none => true
  | some ch => isSpaceOrTab ch || isBreak ch

/-- Past `n` characters of one line. -/
def skip (c : Cursor) (n : Nat) : Cursor :=
  { c with rest := c.rest.drop n, index := c.index + n, column := c.column + n }

/-- Past a line break, if there is one, with the text that it stands for. -/
def readBreak (c : Cursor) : List Char × Cursor :=
  match c.rest with
  | '\r' :: '\n' :: rest => (['\n'], ⟨rest, c.index + 2, c.line + 1, 0⟩)
  | ch :: rest =>
      if isBreak ch then
        (if ch.toNat = 0x2028 || ch.toNat = 0x2029 then [ch] else ['\n'],
          ⟨rest, c.index + 1, c.line + 1, 0⟩)
      else ([], c)
  | [] => ([], c)

/-- The characters up to the first without the property, and what follows. -/
def takeWhile (c : Cursor) (p : Char → Bool) : List Char × Cursor :=
  let run := c.rest.takeWhile p
  (run, c.skip run.length)

def skipWhile (c : Cursor) (p : Char → Bool) : Cursor := (c.takeWhile p).2

/-- The characters up to the end of the line. -/
def restOfLine (c : Cursor) : List Char × Cursor := c.takeWhile (!isBreak ·)

/-- Whether a line starts here with three times `ch` on their own. -/
def atMarker (c : Cursor) (ch : Char) : Bool :=
  c.column = 0 && c.rest.take 3 = [ch, ch, ch] && c.gapAt 3

end Cursor
end LiveRules.Yaml
