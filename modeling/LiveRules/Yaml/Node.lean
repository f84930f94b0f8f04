import LiveRules.Yaml.Token

/-!
# Documents as trees

Tokens are put together to nodes: texts, sequences and mappings. A node may have
an anchor, and an alias stands for the last node before it whose anchor has its
name. A missing node is a plain empty text.
-/
namespace LiveRules.Yaml

inductive Node where
  | text (s : String) (plain : Bool)
  | sequence (items : List Node)
  | mapping (entries : List (Node × Node))
  /-- Stands for the anchored node of this number. -/
  | alias (id : Nat)
  deriving Repr

/-- A document: its root and its anchored nodes by number. -/
structure Document where
  root : Node
  anchored : List (Nat × Node) := []
  deriving Repr

namespace Document

/-- What is left to read, the known tag handles, and the anchors so far. -/
structure Reader where
  tokens : List Token
  handles : List String := ["!", "!!"]
  /-- Names with their numbers, the newest first. -/
  names : List (String × Nat) := []
  anchored : List (Nat × Node) := []

abbrev Reading := EStateM Flaw Reader

def empty : Node := .text "" true

def peek : Reading (Option Token) := return (← get).tokens.head?

def advance : Reading Unit := modify fun r => { r with tokens := r.tokens.tail }

/-- Reads a token if it comes next. -/
def accept (t : Token) : Reading Bool := do
  if (← peek) = some t then
    advance
    return true
  return false

def expect (t : Token) (flaw : Flaw) : Reading Unit := do
  if !(← accept t) then throw flaw

/-- Whether one of the tokens comes next; the end counts, too. -/
def at? (ts : List Token) : Reading Bool := do
  match ← peek with
  | none => return true
  | some t => return ts.contains t

/-- Numbers the anchor that comes next by the different names before it. -/
def anchor? : Reading (Option Nat) := do
  match ← peek with
  | some (.anchor name) =>
      advance
      modifyGet fun r =>
        let id := (r.names.map (·.1)).eraseDups.length
        (some id, { r with names := (name, id) :: r.names })
  | _ => return none

/-- Reads the tag that comes next; its handle has to be known. -/
def tag? : Reading Bool := do
  match ← peek with
  | some (.tag handle) =>
      advance
      if handle != "" && !(← get).handles.contains handle then throw .undefinedTag
      return true
  | _ => return false

/-- An anchor and a tag, in either order. -/
def properties : Reading (Option Nat × Bool) := do
  match ← anchor? with
  | some id => return (some id, ← tag?)
  | none =>
      if ← tag? then return (← anchor?, true)
      return (none, false)

def remember (id : Option Nat) (n : Node) : Reading Node := do
  if let some id := id then modify fun r => { r with anchored := (id, n) :: r.anchored }
  return n

mutual

/-- A node; `block` and `indentless` say which collections may start here. -/
def node (block indentless : Bool) : (fuel : Nat) → Reading Node
  | 0 => throw .noNodeContent
  | fuel + 1 => do
      if let some (.alias name) ← peek then
        advance
        match (← get).names.lookup name with
        | some id => return .alias id
        | none => throw .unknownAnchor
      let (id, tagged) ← properties
      match ← peek with
      | some (.scalar s plain) =>
          advance
          remember id (.text s plain)
      | some .flowSequenceStart =>
          advance
          remember id (.sequence (← flowItems true fuel))
      | some .flowMappingStart =>
          advance
          remember id (.mapping (← flowPairs true fuel))
      | t =>
          if indentless && t = some .blockEntry then
            remember id (.sequence (← indentlessItems fuel))
          else if block && t = some .blockSequenceStart then
            advance
            remember id (.sequence (← blockItems fuel))
          else if block && t = some .blockMappingStart then
            advance
            remember id (.mapping (← blockPairs fuel))
          else if id.isSome || tagged then remember id empty
          else throw .noNodeContent

/-- A node, unless one of the tokens comes next. -/
def nodeUnless (ends : List Token) (block indentless : Bool) : (fuel : Nat) → Reading Node
  | 0 => throw .noNodeContent
  | fuel + 1 => do
      if ← at? ends then return empty
      node block indentless fuel

def blockItems : (fuel : Nat) → Reading (List Node)
  | 0 => throw .unclosedCollection
  | fuel + 1 => do
      if ← accept .blockEntry then
        let item ← nodeUnless [.blockEntry, .blockEnd] true false fuel
        return item :: (← blockItems fuel)
      expect .blockEnd .unclosedCollection
      return []

def indentlessItems : (fuel : Nat) → Reading (List Node)
  | 0 => throw .unclosedCollection
  | fuel + 1 => do
      if ← accept .blockEntry then
        let item ← nodeUnless [.blockEntry, .key, .value, .blockEnd] true false fuel
        return item :: (← indentlessItems fuel)
      return []

def blockPairs : (fuel : Nat) → Reading (List (Node × Node))
  | 0 => throw .unclosedCollection
  | fuel + 1 => do
      if ← accept .blockEnd then return []
      let ends := [.key, .value, .blockEnd]
      expect .key .unclosedCollection
      let key ← nodeUnless ends true true fuel
      let value ← if ← accept .value then nodeUnless ends true true fuel else pure empty
      return (key, value) :: (← blockPairs fuel)

/-- The items of a flow sequence; an item may be a mapping of one pair. -/
def flowItems (first : Bool) : (fuel : Nat) → Reading (List Node)
  | 0 => throw .unclosedCollection
  | fuel + 1 => do
      if ← accept .flowSequenceEnd then return []
      if !first then expect .flowEntry .unclosedCollection
      if ← accept .flowSequenceEnd then return []
      let item ←
        if ← accept .key then do
          let key ← nodeUnless [.value, .flowEntry, .flowSequenceEnd] false false fuel
          let value ←
            if ← accept .value then nodeUnless [.flowEntry, .flowSequenceEnd] false false fuel
            else pure empty
          pure (.mapping [(key, value)])
        else node false false fuel
      return item :: (← flowItems false fuel)

def flowPairs (first : Bool) : (fuel : Nat) → Reading (List (Node × Node))
  | 0 => throw .unclosedCollection
  | fuel + 1 => do
      if ← accept .flowMappingEnd then return []
      if !first then expect .flowEntry .unclosedCollection
      if ← accept .flowMappingEnd then return []
      let pair ←
        if ← accept .key then do
          let key ← nodeUnless [.value, .flowEntry, .flowMappingEnd] false false fuel
          let value ←
            if ← accept .value then nodeUnless [.flowEntry, .flowMappingEnd] false false fuel
            else pure empty
          pure (key, value)
        else do
          let key ← node false false fuel
          pure (key, empty)
      return pair :: (← flowPairs false fuel)

end

/-- The directives before a document: at most one version, and no handle
twice. -/
def directives (version : Bool) (handles : List String) : (fuel : Nat) → Reading Unit
  | 0 => return
  | fuel + 1 => do
      match ← peek with
      | some (.versionDirective major minor) =>
          if version || major != 1 || (minor != 1 && minor != 2) then throw .badDirective
          advance
          directives true handles fuel
      | some (.tagDirective handle) =>
          if handles.contains handle then throw .badDirective
          advance
          directives version (handle :: handles) fuel
      | _ => modify fun r => { r with handles := handles ++ r.handles }

def isDirective : Token → Bool
  | .versionDirective _ _ | .tagDirective _ => true
  | _ => false

/-- The root node of the only document; no tokens stand for an empty one. -/
def onlyRoot (fuel : Nat) : Reading Node := do
  match ← peek with
  | none => return empty
  | some t =>
      let explicit := isDirective t || t = .documentStart
      if explicit then
        directives false [] fuel
        expect .documentStart .noDocumentStart
      let n ←
        if explicit then
          match ← peek with
          | none | some .documentStart | some .documentEnd => pure empty
          | some t => if isDirective t then pure empty else node true false fuel
        else node true false fuel
      modify fun r => { r with tokens := r.tokens.dropWhile (· = .documentEnd) }
      if (← peek).isSome then throw .severalDocuments
      return n

/-- The document that a text holds. -/
def ofText (text : String) : Except Flaw Document := do
  let tokens ← Token.ofText text
  match (onlyRoot (4 * tokens.length + 4)).run { tokens } with
  | .ok n r => return ⟨n, r.anchored⟩
  | .error flaw _ => throw flaw

/-- The node that an alias stands for; any other node is itself. -/
def deref (d : Document) : Node → Node
  | .alias id => (d.anchored.lookup id).getD empty
  | n => n

end Document
end LiveRules.Yaml
