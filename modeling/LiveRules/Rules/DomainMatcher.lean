import LiveRules.Pattern.Language
import LiveRules.Rules.Error
import LiveRules.Rules.Kind
import LiveRules.Rules.Name

/-!
# Matching names against domain rules

A matcher keeps its rules by kind, each with a value. A name takes the value of
its full rule; else that of the longest domain rule above it; else that of the
first keyword it holds; else that of the first expression that matches in it. A
full or domain rule that is added again takes the newer value.
-/
namespace LiveRules

/-- Pairs with different keys. -/
abbrev Bindings (V : Type) := List (String × V)

/-- Binds a key, in place of its older binding. -/
def Bindings.insert {V : Type} (m : Bindings V) (key : String) (value : V) : Bindings V :=
  (key, value) :: m.filter (·.1 ≠ key)

structure DomainMatcher [PatternLanguage] (V : Type) where
  default : RuleKind
  full : Bindings V := []
  domain : Bindings V := []
  /-- Oldest rule first. -/
  keyword : List (String × V) := []
  /-- Oldest rule first. -/
  regexp : List (PatternLanguage.Compiled × V) := []

/-- What follows each dot in turn, longest first, and the name itself before
that; nothing follows a closing dot. -/
def nameAndSuffixes : List Char → List (List Char)
  | [] => [[]]
  | cs => cs :: after cs
where
  /-- The texts after the dots. -/
  after : List Char → List (List Char)
    | [] => []
    | c :: cs => if c = '.' ∧ ¬ cs.isEmpty then cs :: after cs else after cs

namespace DomainMatcher
variable [PatternLanguage] {V : Type}

def size (m : DomainMatcher V) : Nat :=
  m.full.length + m.domain.length + m.keyword.length + m.regexp.length

/-- Adds one rule, or says why it is refused. -/
def add (m : DomainMatcher V) (rule : String) (value : V) :
    Except RuleError (DomainMatcher V) :=
  let (kind, pattern) := RuleKind.split m.default (Text.trim rule)
  let pattern := Text.trim pattern
  if pattern.isEmpty then .error (.invalid rule (.emptyPattern kind.tag))
  else match kind with
    | .full => .ok { m with full := m.full.insert (normalize pattern) value }
    | .domain => .ok { m with domain := m.domain.insert (normalize pattern) value }
    | .keyword => .ok { m with keyword := m.keyword ++ [(Text.lower pattern, value)] }
    | .regexp =>
        match PatternLanguage.compile pattern with
        | .ok p => .ok { m with regexp := m.regexp ++ [(p, value)] }
        | .error why => .error (.invalid rule (.badPattern why))

/-- The value for a name in normal form. -/
def lookup (m : DomainMatcher V) (name : String) : Option V :=
  m.full.lookup name
    <|> (nameAndSuffixes name.toList).findSome? (fun s => m.domain.lookup (.ofList s))
    <|> m.keyword.findSome? (fun r => if Text.contains name r.1 then some r.2 else none)
    <|> m.regexp.findSome? (fun r => if PatternLanguage.isMatch r.1 name then some r.2 else none)

/-- The value for a query name; the root name has none. -/
def find? (m : DomainMatcher V) (key : String) : Option V :=
  let name := normalize key
  if name.isEmpty then none else m.lookup name

end DomainMatcher
end LiveRules
