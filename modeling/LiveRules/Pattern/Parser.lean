import LiveRules.Pattern.Basic
import LiveRules.Pattern.Language

/-!
# Written patterns

The grammar of regular expressions without look-around and back references:
literals, escapes, classes with set operations, groups with flags, alternatives
and repetitions. Reading a pattern consumes at least one character at every
step, so its length bounds the number of steps.
-/
namespace LiveRules.Pattern

/-- What a group can switch on and off. -/
structure Flags where
  caseless : Bool := false
  multiline : Bool := false
  dotAll : Bool := false
  unicode : Bool := true
  verbose : Bool := false
  crlf : Bool := false
  deriving DecidableEq, Repr

/-- A finished part of a sequence. Its depth counts the nodes above its leaves. -/
structure Piece where
  pattern : Pattern
  depth : Nat := 0
  /-- Whether a repetition may follow; nothing repeats a change of flags. -/
  repeatable : Bool := true

/-- What is left to read, the flags in force and the group names in use. -/
structure Reading where
  rest : List Char
  flags : Flags := {}
  names : List String := []

/-- How deep a pattern may nest. -/
def nestLimit : Nat := 250

/-- How much room a compiled pattern may take. -/
def sizeLimit : Nat := 10 <<< 20

def skipComment : List Char → List Char
  | [] => []
  | '\n' :: cs => cs
  | _ :: cs => skipComment cs

/-- Skips white space and comments; `fuel` is the number of characters. -/
def skipIdle : Nat → List Char → List Char
  | 0, cs => cs
  | _ + 1, [] => []
  | fuel + 1, c :: cs =>
      if Text.isBlank c then skipIdle fuel cs
      else if c = '#' then skipIdle fuel (skipComment cs)
      else c :: cs

/-- What comes next once idle characters are skipped, if the flags say so. -/
def Flags.skip (flags : Flags) (cs : List Char) : List Char :=
  if flags.verbose then skipIdle cs.length cs else cs

/-- A set in which case may not matter. -/
def Flags.fold (flags : Flags) (set : CharSet) : CharSet :=
  if !flags.caseless then set
  else if flags.unicode then .caseless set
  else .inter (.caseless set) (.range 0 0x7F)

def Flags.literal (flags : Flags) (c : Char) : Pattern :=
  .chars (flags.fold (.ofChar c))

def Flags.dot (flags : Flags) : Option Pattern :=
  if !flags.unicode then none
  else if flags.dotAll then some (.chars (.complement .none))
  else if flags.crlf then
    some (.chars (.complement (.union (.ofChar '\n') (.ofChar '\r'))))
  else some (.chars (.complement (.ofChar '\n')))

/-- The classes of one letter; the capital is the complement. -/
def Flags.letterClass? (flags : Flags) (c : Char) : Option CharSet :=
  let plain (name : String) : CharSet := (CharSet.named? name).getD .none
  let base : Option CharSet := match c.toLower with
    | 'd' => some (if flags.unicode then .digit else plain "digit")
    | 's' => some (if flags.unicode then .blank else plain "space")
    | 'w' => some (if flags.unicode then .word else plain "word")
    | _ => none
  if c.isUpper then
    if flags.unicode then base.map .complement else none
  else base

inductive Escape where
  | char (c : Char)
  | set (s : CharSet)
  | anchor (a : Anchor)

def hexValue? (cs : List Char) : Option Nat :=
  cs.foldl (fun n c => do
    let d ←
      if '0' ≤ c ∧ c ≤ '9' then some (c.toNat - '0'.toNat)
      else if 'a' ≤ c ∧ c ≤ 'f' then some (c.toNat - 'a'.toNat + 10)
      else if 'A' ≤ c ∧ c ≤ 'F' then some (c.toNat - 'A'.toNat + 10)
      else none
    return (← n) * 16 + d) (some 0)

def charOf? (n : Nat) : Option Char :=
  if n.isValidChar then some (Char.ofNat n) else none

/-- The code point after `\x`, `\u` or `\U`: so many digits, or braces. -/
def codePoint? (width : Nat) (flags : Flags) (cs : List Char) :
    Option (Char × List Char) := do
  let (value, rest) ← match cs with
    | '\x7b' :: cs =>
        let digits := cs.takeWhile (· ≠ '\x7d')
        if digits.isEmpty || digits.length = cs.length then none
        else some (← hexValue? digits, cs.drop (digits.length + 1))
    | cs =>
        if cs.length < width then none
        else some (← hexValue? (cs.take width), cs.drop width)
  if !flags.unicode && 0x7F < value then none
  else return (← charOf? value, rest)

/-- Punctuation that means something in a pattern. -/
def isMeta (c : Char) : Bool := "\\.+*?()|[]\x7b\x7d^$#&-~".toList.contains c

/-- Kinds of word edges written in braces after `\b`. -/
def edgeNames : List (String × Anchor) :=
  [("start", .wordStart), ("end", .wordEnd), ("start-half", .wordStartHalf),
   ("end-half", .wordEndHalf)]

def wordEdgeEscape (flags : Flags) (cs : List Char) : Option (Escape × List Char) :=
  let plain : Anchor := if flags.unicode then .wordEdge else .plainWordEdge
  match cs with
  | '\x7b' :: inner =>
      let name := inner.takeWhile fun c => c.isAlpha || c = '-'
      match inner.drop name.length with
      | '\x7d' :: rest => (edgeNames.lookup (.ofList name)).map fun a => (.anchor a, rest)
      | _ => if name.isEmpty then some (.anchor plain, cs) else none
  | cs => some (.anchor plain, cs)

/-- What follows a backslash. -/
def escape? (flags : Flags) : List Char → Option (Escape × List Char)
  | [] => none
  | 'x' :: cs => (codePoint? 2 flags cs).map fun r => (.char r.1, r.2)
  | 'u' :: cs => (codePoint? 4 flags cs).map fun r => (.char r.1, r.2)
  | 'U' :: cs => (codePoint? 8 flags cs).map fun r => (.char r.1, r.2)
  | 'a' :: cs => some (.char '\x07', cs)
  | 'f' :: cs => some (.char '\x0c', cs)
  | 't' :: cs => some (.char '\t', cs)
  | 'n' :: cs => some (.char '\n', cs)
  | 'r' :: cs => some (.char '\r', cs)
  | 'v' :: cs => some (.char '\x0b', cs)
  | 'A' :: cs => some (.anchor .textStart, cs)
  | 'z' :: cs => some (.anchor .textEnd, cs)
  | 'b' :: cs => wordEdgeEscape flags cs
  | 'B' :: cs =>
      some (.anchor (if flags.unicode then .notWordEdge else .plainNotWordEdge), cs)
  | '<' :: cs => some (.anchor .wordStart, cs)
  | '>' :: cs => some (.anchor .wordEnd, cs)
  | c :: cs =>
      match flags.letterClass? c with
      | some set => some (.set set, cs)
      | none =>
          if isMeta c || (c.toNat < 128 && !c.isAlphanum) then some (.char c, cs)
          else none

/-- A decimal number with white space around it; no digits are no number. -/
def decimal (cs : List Char) : Option Nat × List Char :=
  let cs := cs.dropWhile Text.isBlank
  let digits := cs.takeWhile Char.isDigit
  let rest := (cs.drop digits.length).dropWhile Text.isBlank
  (if digits.isEmpty then none
   else some (digits.foldl (fun n c => n * 10 + (c.toNat - '0'.toNat)) 0), rest)

/-- The bounds of a counted repetition, after its opening brace. -/
def bounds? (flags : Flags) (cs : List Char) :
    Option ((Nat × Option Nat) × List Char) := do
  let (min, rest) := decimal (flags.skip cs)
  let min ← min
  let (max, rest) ← match rest with
    | ',' :: rest =>
        match flags.skip rest with
        | '\x7d' :: rest => some (none, rest)
        | rest =>
            match decimal rest with
            | (some max, '\x7d' :: rest) => some (some max, rest)
            | _ => none
    | '\x7d' :: rest => some (some min, rest)
    | _ => none
  if UInt32.size ≤ min || (max.getD min) < min || UInt32.size ≤ max.getD 0 then none
  else return ((min, max), rest)

/-- The name of a class between `[:` and `:]`, perhaps after a circumflex. -/
def namedClass? (cs : List Char) : Option (CharSet × List Char) := do
  let ':' :: cs := cs | none
  let (negated, cs) := match cs with
    | '^' :: cs => (true, cs)
    | cs => (false, cs)
  let name := cs.takeWhile (· ≠ ':')
  let ':' :: ']' :: rest := cs.drop name.length | none
  let set ← CharSet.named? (.ofList name)
  return (if negated then .complement set else set, rest)

inductive SetOperation where
  | inter
  | difference
  | symmetric

def SetOperation.apply : SetOperation → CharSet → CharSet → CharSet
  | inter => .inter
  | difference => .difference
  | symmetric => .symmetricDifference

/-- The operation that two equal characters in a class stand for. -/
def setOperation? : List Char → Option (SetOperation × List Char)
  | '&' :: '&' :: cs => some (.inter, cs)
  | '-' :: '-' :: cs => some (.difference, cs)
  | '~' :: '~' :: cs => some (.symmetric, cs)
  | _ => none

/-- One element of a class: a character or a set. -/
def classItem? (flags : Flags) : List Char → Option ((Char ⊕ CharSet) × List Char)
  | '\\' :: cs =>
      match escape? flags cs with
      | some (.char c, rest) => some (.inl c, rest)
      | some (.set s, rest) => some (.inr s, rest)
      | _ => none
  | c :: cs => if flags.unicode || c.toNat < 128 then some (.inl c, cs) else none
  | [] => none

def itemSet : Char ⊕ CharSet → CharSet
  | .inl c => .ofChar c
  | .inr s => s

/-- An element or a range of characters. -/
def classRange? (flags : Flags) (cs : List Char) : Option (CharSet × List Char) := do
  let (first, rest) ← classItem? flags cs
  match flags.skip rest with
  | [] => none
  | '-' :: more =>
      match flags.skip more with
      | [] => none
      | ']' :: _ | '-' :: _ => return (itemSet first, flags.skip rest)
      | more =>
          let (last, rest) ← classItem? flags more
          match first, last with
          | .inl a, .inl b =>
              if a ≤ b then return (.range a.toNat b.toNat, rest) else none
          | _, _ => none
  | rest => return (itemSet first, rest)

/-- What stands at the start of a class before ordinary elements: a negation,
literal hyphens and a literal closing bracket. -/
def classOpening (flags : Flags) (cs : List Char) : Bool × CharSet × List Char :=
  let (negated, cs) := match flags.skip cs with
    | '^' :: cs => (true, flags.skip cs)
    | cs => (false, cs)
  let hyphens := cs.takeWhile (· = '-')
  let cs := flags.skip (cs.drop hyphens.length)
  if !hyphens.isEmpty then (negated, .ofChar '-', cs)
  else match cs with
    | ']' :: cs => (negated, .ofChar ']', cs)
    | cs => (negated, .none, cs)

/-- A class after its opening bracket. `pending` waits for the right side of an
operation and `current` is the union read so far. Also answers the depth. -/
def class? (flags : Flags) :
    (fuel : Nat) → (negated : Bool) → (pending : Option (SetOperation × CharSet)) →
      (current : CharSet) → (depth : Nat) → List Char →
        Option (CharSet × Nat × List Char)
  | 0, _, _, _, _, _ => none
  | fuel + 1, negated, pending, current, depth, cs =>
      let combined :=
        match pending with
        | some (op, left) => op.apply left (flags.fold current)
        | none => flags.fold current
      match flags.skip cs with
      | [] => none
      | ']' :: rest =>
          if negated && !flags.unicode then none
          else some (if negated then .complement combined else combined, depth + 1, rest)
      | '[' :: rest =>
          match namedClass? rest with
          | some (set, rest) =>
              class? flags fuel negated pending (.union current set) depth rest
          | none => do
              let (inner, opened, rest) := classOpening flags rest
              let (set, deep, rest) ← class? flags fuel inner none opened 0 rest
              class? flags fuel negated pending (.union current set) (max depth deep) rest
      | cs =>
          match setOperation? cs with
          | some (op, rest) =>
              class? flags fuel negated (some (op, combined)) .none depth rest
          | none => do
              let (set, rest) ← classRange? flags cs
              class? flags fuel negated pending (.union current set) depth rest

/-- Flag letters up to a colon or a closing parenthesis. `off` says whether a
minus sign was read, `seen` which letters were. -/
def flagLetters? (flags : Flags) (off : Bool) (seen : List Char) :
    List Char → Option (Flags × List Char)
  | [] => none
  | c :: cs =>
      if c = ':' || c = ')' then
        if off && seen.head? = some '-' then none else some (flags, c :: cs)
      else if seen.contains c then none
      else
        let on := !off
        match c with
        | '-' => flagLetters? flags true (c :: seen) cs
        | 'i' => flagLetters? { flags with caseless := on } off (c :: seen) cs
        | 'm' => flagLetters? { flags with multiline := on } off (c :: seen) cs
        | 's' => flagLetters? { flags with dotAll := on } off (c :: seen) cs
        | 'u' => flagLetters? { flags with unicode := on } off (c :: seen) cs
        | 'x' => flagLetters? { flags with verbose := on } off (c :: seen) cs
        | 'R' => flagLetters? { flags with crlf := on } off (c :: seen) cs
        | 'U' => flagLetters? flags off (c :: seen) cs
        | _ => none

/-- What opens with a parenthesis. -/
inductive Opening where
  /-- A group with the flags and names in force inside. -/
  | group (inside : Flags) (names : List String)
  /-- A change of flags for the rest of the group around it. -/
  | change (flags : Flags)

def isNameStart (c : Char) : Bool := c = '_' || (Text.isWord c && !Text.isDigit c)

def isNameRest (c : Char) : Bool :=
  c = '_' || c = '.' || c = '[' || c = ']' || Text.isWord c

/-- A group name up to its closing angle bracket. -/
def groupName? (r : Reading) (cs : List Char) : Option (Opening × List Char) :=
  let name := cs.takeWhile (· ≠ '>')
  match name, cs.drop name.length with
  | c :: more, '>' :: rest =>
      if isNameStart c && more.all isNameRest && !r.names.contains (.ofList name) then
        some (.group r.flags (.ofList name :: r.names), rest)
      else none
  | _, _ => none

/-- What follows an opening parenthesis. -/
def opening? (r : Reading) (cs : List Char) : Option (Opening × List Char) :=
  match r.flags.skip cs with
  | '?' :: '=' :: _ | '?' :: '!' :: _ => none
  | '?' :: '<' :: '=' :: _ | '?' :: '<' :: '!' :: _ => none
  | '?' :: 'P' :: '<' :: cs => groupName? r cs
  | '?' :: '<' :: cs => groupName? r cs
  | '?' :: ')' :: _ => none
  | '?' :: cs => do
      match ← flagLetters? r.flags false [] cs with
      | (flags, ':' :: rest) => return (.group flags r.names, rest)
      | (flags, ')' :: rest) => return (.change flags, rest)
      | _ => none
  | cs => some (.group r.flags r.names, cs)

/-- The pieces of one alternative, last piece first, as one pattern. -/
def sequence (pieces : List Piece) : Piece :=
  match pieces with
  | [] => ⟨.empty, 0, true⟩
  | [p] => p
  | p :: ps => ps.foldl (fun acc q =>
      ⟨.seq q.pattern acc.pattern, max acc.depth (q.depth + 1), true⟩)
      ⟨p.pattern, p.depth + 1, true⟩

/-- Alternatives, last one first, as one pattern. -/
def alternatives (last : Piece) (before : List Piece) : Piece :=
  match before with
  | [] => last
  | _ => before.foldl (fun acc q =>
      ⟨.alt q.pattern acc.pattern, max acc.depth (q.depth + 1), true⟩)
      ⟨last.pattern, last.depth + 1, true⟩

/-- A lazy repetition matches in the same places. -/
def dropLazy : List Char → List Char
  | '?' :: cs => cs
  | cs => cs

def anchorPiece (a : Anchor) : Piece := ⟨.anchor a, 0, true⟩

/-- Reads up to the end of the group: `before` holds the finished alternatives
and `pieces` the current one, both last first. -/
def group? : (fuel : Nat) → (before pieces : List Piece) → Reading →
    Option (Piece × Reading)
  | 0, _, _, _ => none
  | fuel + 1, before, pieces, r =>
      let flags := r.flags
      let on (rest : List Char) : Reading := { r with rest }
      let again (min : Nat) (max : Option Nat) (rest : List Char) :
          Option (Piece × Reading) :=
        match pieces with
        | p :: ps =>
            if p.repeatable then
              group? fuel before
                (⟨.repeated p.pattern min max, p.depth + 1, true⟩ :: ps)
                (on (dropLazy (flags.skip rest)))
            else none
        | [] => none
      let next (p : Piece) (rest : List Char) := group? fuel before (p :: pieces) (on rest)
      match flags.skip r.rest with
      | [] => some (alternatives (sequence pieces) before, on [])
      | ')' :: rest => some (alternatives (sequence pieces) before, on (')' :: rest))
      | '|' :: rest => group? fuel (sequence pieces :: before) [] (on rest)
      | '?' :: rest => again 0 (some 1) rest
      | '*' :: rest => again 0 none rest
      | '+' :: rest => again 1 none rest
      | '\x7b' :: rest => do
          let ((min, max), rest) ← bounds? flags rest
          again min max rest
      | '[' :: rest => do
          let (negated, opened, rest) := classOpening flags rest
          let (set, depth, rest) ← class? flags fuel negated none opened 0 rest
          next ⟨.chars set, depth, true⟩ rest
      | '(' :: rest => do
          match ← opening? r rest with
          | (.change flags, rest) =>
              group? fuel before (⟨.empty, 0, false⟩ :: pieces) { r with rest, flags }
          | (.group inside names, rest) =>
              let (p, r') ← group? fuel [] [] ⟨rest, inside, names⟩
              let ')' :: rest := r'.rest | none
              group? fuel before (⟨p.pattern, p.depth + 1, true⟩ :: pieces)
                { r with rest, names := r'.names }
      | '.' :: rest => do next ⟨← flags.dot, 0, true⟩ rest
      | '^' :: rest =>
          next (anchorPiece (if flags.multiline then .lineStart else .textStart)) rest
      | '$' :: rest =>
          next (anchorPiece (if flags.multiline then .lineEnd else .textEnd)) rest
      | '\\' :: rest => do
          match ← escape? flags rest with
          | (.char c, rest) => next ⟨flags.literal c, 0, true⟩ rest
          | (.set s, rest) => next ⟨.chars s, 0, true⟩ rest
          | (.anchor a, rest) => next (anchorPiece a) rest
      | c :: rest => next ⟨flags.literal c, 0, true⟩ rest

/-- Why a written pattern is refused. -/
inductive Refusal where
  | malformed
  | tooLarge
  deriving DecidableEq, Repr

def Refusal.message : Refusal → String
  | malformed => "regex parse error: malformed pattern"
  | tooLarge => "Compiled regex exceeds size limit of " ++ toString sizeLimit ++ " bytes."

def parse (s : String) : Except Refusal Pattern :=
  let cs := s.toList
  match group? (2 * cs.length + 2) [] [] { rest := cs } with
  | some (p, { rest := [], .. }) =>
      if nestLimit < p.depth then .error .malformed
      else if sizeLimit < p.pattern.weight then .error .tooLarge
      else .ok p.pattern
  | _ => .error .malformed

/-- The language of the patterns in this grammar. -/
scoped instance language : PatternLanguage where
  Compiled := Pattern
  compile text := (parse text).mapError Refusal.message
  isMatch := isMatch

end LiveRules.Pattern
