import LiveRules.Toml.Scalar

/-!
# Documents

A document is a list of lines: bindings of dotted keys to values and headers of
tables. While it is read, each table remembers whether it was only mentioned on
the way to another one, and whether that was in a dotted key; this decides who
may still add to it.
-/
namespace LiveRules.Toml

mutual

/-- What a key is bound to while a document is read. -/
inductive Item where
  | value (v : Value)
  | table (t : Branch)
  /-- Tables with double brackets, oldest first. -/
  | tables (ts : List Branch)

/-- A table that is being read. -/
inductive Branch where
  | mk (implied dotted : Bool) (entries : List (String × Item))

end

namespace Branch

def implied : Branch → Bool
  | mk i _ _ => i

def dotted : Branch → Bool
  | mk _ d _ => d

def entries : Branch → List (String × Item)
  | mk _ _ es => es

def find? (b : Branch) (key : String) : Option Item := b.entries.lookup key

/-- Binds a key, in place of its old binding if it has one. -/
def put (b : Branch) (key : String) (item : Item) : Branch :=
  mk b.implied b.dotted
    (if (b.find? key).isSome then b.entries.map fun e => if e.1 = key then (key, item) else e
    else b.entries ++ [(key, item)])

/-- A table that was only mentioned. -/
def mentioned (dotted : Bool) : Branch := mk true dotted []

/-- Changes the table at the end of a path. Missing tables on the way are made;
`dotted` says that the path is that of a dotted key, which may not enter tables
that have a header. -/
def update (dotted : Bool) (change : Branch → Option Branch) :
    (path : List String) → Branch → Option Branch
  | [], b => change b
  | key :: path, b =>
      match b.find? key with
      | none => (update dotted change path (mentioned dotted)).map fun t => b.put key (.table t)
      | some (.value _) => none
      | some (.table t) =>
          if dotted && !t.implied then none
          else (update dotted change path t).map fun t => b.put key (.table t)
      | some (.tables ts) =>
          match ts.getLast? with
          | none => none
          | some t =>
              (update dotted change path t).map fun t => b.put key (.tables (ts.dropLast ++ [t]))

/-- Binds a dotted key below the table at `place`. -/
def bind (b : Branch) (place path : List String) (key : String) (v : Value) : Option Branch :=
  b.update false (fun t => t.update true (add path.isEmpty) path) place
where
  add (direct : Bool) (t : Branch) : Option Branch :=
    if !direct && !t.dotted then none
    else if (t.find? key).isSome then none
    else some (t.put key (.value v))

/-- Opens the table of a header. -/
def openTable (b : Branch) (path : List String) (key : String) : Option Branch :=
  b.update false
    (fun t => match t.find? key with
      | none => some (t.put key (.table (mk false false [])))
      | some (.table old) =>
          if old.implied && !old.dotted then some (t.put key (.table (mk false false old.entries)))
          else none
      | some _ => none)
    path

/-- Adds one more table to those of a header with double brackets. -/
def addTable (b : Branch) (path : List String) (key : String) : Option Branch :=
  b.update false
    (fun t => match t.find? key with
      | none => some (t.put key (.tables [mk false false []]))
      | some (.tables ts) => some (t.put key (.tables (ts ++ [mk false false []])))
      | some _ => none)
    path

end Branch

mutual

def Item.toValue : Item → Value
  | .value v => v
  | .table t => t.toValue
  | .tables ts => .array (branchValues ts)

def Branch.toValue : Branch → Value
  | .mk _ _ es => .table (entryValues es)

def branchValues : List Branch → List Value
  | [] => []
  | t :: ts => t.toValue :: branchValues ts

def entryValues : List (String × Item) → List (String × Value)
  | [] => []
  | (key, item) :: es => (key, item.toValue) :: entryValues es

end

namespace Document

def isBareKey (c : Char) : Bool := c.isAlphanum || c = '_' || c = '-'

def simpleKey (cs : List Char) : Option (String × List Char) :=
  match cs.takeWhile isBareKey with
  | [] => Str.single cs
  | bare => some (.ofList bare, cs.drop bare.length)

/-- How deep keys and values may be nested. -/
def depthLimit : Nat := 79

/-- A dotted key: the keys on the way, then the last one. -/
def dottedKey (way : List String) (cs : List Char) : (fuel : Nat) →
    Option ((List String × String) × List Char)
  | 0 => none
  | fuel + 1 => do
      let (key, cs) ← simpleKey (skipWhite cs)
      match skipWhite cs with
      | '.' :: cs => dottedKey (way ++ [key]) cs fuel
      | cs => return ((way, key), cs)

/-- Past a comment, if there is one. -/
def skipComment : List Char → List Char
  | '#' :: cs => cs.dropWhile isPlain
  | cs => cs

/-- White space, comments and line breaks inside an array. -/
def skipGaps (cs : List Char) : (fuel : Nat) → Option (List Char)
  | 0 => some cs
  | fuel + 1 =>
      let cs := skipWhite cs
      match cs with
      | '#' :: rest => do
          let rest ← newline (rest.dropWhile isPlain)
          skipGaps rest fuel
      | cs =>
          match newline cs with
          | some cs => skipGaps cs fuel
          | none => some cs

/-- The rest of an array, whose items are read by `item`. -/
def arrayItems (item : List Char → Option (Value × List Char)) (items : List Value) (cs : List Char) :
    (fuel : Nat) → Option (Value × List Char)
  | 0 => none
  | fuel + 1 => do
      let cs ← skipGaps cs cs.length
      match cs with
      | ']' :: cs => return (.array items, cs)
      | cs =>
          let (v, cs) ← item cs
          let items := items ++ [v]
          match ← skipGaps cs cs.length with
          | ',' :: cs => arrayItems item items cs fuel
          | ']' :: cs => return (.array items, cs)
          | _ => none

/-- Bindings of an inline table, whose values are read by `item`. -/
def inlineBindings (item : List Char → Option (Value × List Char)) (b : Branch) (cs : List Char) :
    (fuel : Nat) → Option (Value × List Char)
  | 0 => none
  | fuel + 1 => do
      let ((way, key), cs) ← dottedKey [] cs depthLimit
      let cs ← Time.sign? '=' (skipWhite cs)
      let (v, cs) ← item (skipWhite cs)
      let b ← b.bind [] way key v
      match skipWhite cs with
      | ',' :: cs => inlineBindings item b cs fuel
      | '\x7d' :: cs => return (b.toValue, cs)
      | _ => none

/-- A value with collections nested at most `depth` deep. -/
def value : (depth : Nat) → List Char → Option (Value × List Char)
  | _, [] => none
  | depth, c :: cs =>
      if c = '"' || c = '\'' then (Str.read (c :: cs)).map fun (s, cs) => (.string s, cs)
      else if c = '[' then
        match depth with
        | 0 => none
        | depth + 1 => arrayItems (value depth) [] cs (cs.length + 1)
      else if c = '\x7b' then
        match depth with
        | 0 => none
        | depth + 1 =>
            match skipWhite cs with
            | '\x7d' :: cs => some (.table [], cs)
            | cs => inlineBindings (value depth) (.mk false false []) cs (cs.length + 1)
      else scalar (c :: cs)

/-- The end of a line, or of the document. -/
def lineEnd (cs : List Char) : Option (List Char) :=
  match skipComment (skipWhite cs) with
  | [] => some []
  | cs => newline cs

/-- The document and the place of its open table. -/
structure Progress where
  root : Branch := .mk false false []
  current : List String := []

/-- The header of a table, after its opening brackets. -/
def header (cs : List Char) (close : List Char) : Option ((List String × String) × List Char) := do
  let (key, cs) ← dottedKey [] cs depthLimit
  if close.isPrefixOf cs then return (key, cs.drop close.length) else none

/-- Reads one line. -/
def line (p : Progress) (cs : List Char) : Option (Progress × List Char) :=
  match skipWhite cs with
  | '[' :: '[' :: cs => do
      let ((way, key), cs) ← header cs [']', ']']
      let root ← p.root.addTable way key
      return (⟨root, way ++ [key]⟩, ← lineEnd cs)
  | '[' :: cs => do
      let ((way, key), cs) ← header cs [']']
      let root ← p.root.openTable way key
      return (⟨root, way ++ [key]⟩, ← lineEnd cs)
  | cs =>
      if cs.isEmpty || cs.head? = some '#' || (newline cs).isSome then
        (lineEnd cs).map (p, ·)
      else do
        let ((way, key), cs) ← dottedKey [] cs depthLimit
        let cs ← Time.sign? '=' (skipWhite cs)
        let (v, cs) ← value depthLimit (skipWhite cs)
        let root ← p.root.bind p.current way key v
        return ({ p with root }, ← lineEnd cs)

def lines (p : Progress) (cs : List Char) : (fuel : Nat) → Option Value
  | 0 => some p.root.toValue
  | fuel + 1 =>
      if cs.isEmpty then some p.root.toValue
      else match line p cs with
        | none => none
        | some (p, cs) => lines p cs fuel

/-- The table that a text spells; a byte order mark before it is skipped. -/
def parse? (text : String) : Option Value :=
  let cs := match text.toList with
    | c :: cs => if c.toNat = 0xFEFF then cs else c :: cs
    | [] => []
  lines {} cs (cs.length + 1)

end Document
end LiveRules.Toml
