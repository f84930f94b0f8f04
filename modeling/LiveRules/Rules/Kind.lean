import LiveRules.Text.Lines

/-!
# Rule kinds

A domain rule says by a tag before its first colon how it is compared with a
query name. Text before a colon that is no tag belongs to the pattern.
-/
namespace LiveRules

/-- How a domain rule is compared with a query name. -/
inductive RuleKind where
  /-- The exact name. -/
  | full
  /-- The name and everything below it. -/
  | domain
  /-- Every name that holds the text. -/
  | keyword
  /-- Every name in which the expression matches. -/
  | regexp
  deriving DecidableEq, Repr

namespace RuleKind

def tag : RuleKind → String
  | full => "full"
  | domain => "domain"
  | keyword => "keyword"
  | regexp => "regexp"

def ofTag? (s : String) : Option RuleKind :=
  [full, domain, keyword, regexp].find? fun k => k.tag = s

/-- The kind and the pattern of a rule whose untagged form means `default`. -/
def split (default : RuleKind) (rule : String) : RuleKind × String :=
  match Text.cutAt ':' rule.toList with
  | some (before, after) =>
      match ofTag? (.ofList before) with
      | some kind => (kind, .ofList after)
      | none => (default, rule)
  | none => (default, rule)

theorem ofTag?_tag (k : RuleKind) : ofTag? k.tag = some k := by
  cases k <;> decide

end RuleKind
end LiveRules
