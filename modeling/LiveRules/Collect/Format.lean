import LiveRules.Rules.Kind

/-!
# Collected entries

A collected name becomes an entry: the tag of a rule kind, a colon and the
name. Both settings of an action are read leniently, so an unknown word means
the first choice.
-/
namespace LiveRules.Collect

/-- The rule kind that an entry is written as. -/
inductive EntryFormat where
  | domain
  | full
  | keyword
  deriving DecidableEq, Repr

namespace EntryFormat

def parse (s : String) : EntryFormat :=
  match Text.lower (Text.trim s) with
  | "domain" => domain
  | "keyword" => keyword
  | _ => full

def kind : EntryFormat → RuleKind
  | domain => .domain
  | full => .full
  | keyword => .keyword

def tag (f : EntryFormat) : String := f.kind.tag

/-- The name of the choice in inspection texts. -/
def label : EntryFormat → String
  | domain => "Domain"
  | full => "Full"
  | keyword => "Keyword"

end EntryFormat

/-- What an action does with the entry of a name. -/
inductive Operation where
  | add
  | delete
  deriving DecidableEq, Repr

namespace Operation

def parse (s : String) : Operation :=
  match Text.lower (Text.trim s) with
  | "delete" => delete
  | _ => add

def tag : Operation → String
  | add => "add"
  | delete => "delete"

/-- The name of the choice in inspection texts. -/
def label : Operation → String
  | add => "Add"
  | delete => "Delete"

end Operation

/-- The name without one closing dot. -/
def dropClosingDot : List Char → List Char
  | [] => []
  | ['.'] => []
  | c :: cs => c :: dropClosingDot cs

/-- The entry of a query name; the root name has none. -/
def entryFor (format : EntryFormat) (name : String) : Option String :=
  match dropClosingDot name.toList with
  | [] => none
  | cs => some (format.tag ++ ":" ++ .ofList cs)

end LiveRules.Collect
