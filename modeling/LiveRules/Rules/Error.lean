import LiveRules.Files.Error

/-!
# What can be wrong with rules

An error names the rule at fault; the places it was found in wrap it from the
inside out: the line of a file, the file or expression of a source.
-/
namespace LiveRules

/-- Why one rule is refused. -/
inductive RuleFault where
  | emptyPattern (kind : String)
  | badPattern (complaint : String)
  | badNetwork
  | emptyRecord
  | badAddress (field : String)
  | noAddress
  /-- A reason of whoever takes the rules. -/
  | other (reason : String)
  deriving DecidableEq, Repr

namespace RuleFault

def message : RuleFault → String
  | emptyPattern kind => "empty " ++ kind ++ " pattern"
  | badPattern complaint => complaint
  | badNetwork => "invalid IP address syntax"
  | emptyRecord => "empty record"
  | badAddress field => "bad address '" ++ field ++ "': invalid IP address syntax"
  | noAddress => "no address"
  | other reason => reason

end RuleFault

inductive RuleError where
  | invalid (rule : String) (fault : RuleFault)
  /-- An inline expression, counted from zero. -/
  | expression (index : Nat) (text : String) (cause : RuleError)
  /-- A backing file, counted from zero. -/
  | file (index : Nat) (path : String) (cause : RuleError)
  /-- A line of a file, counted from one. -/
  | line (number : Nat) (cause : RuleError)
  | unreadable (path : String) (cause : Files.ReadError)
  deriving Repr

namespace RuleError

def message : RuleError → String
  | invalid rule fault => "Invalid rule '" ++ rule ++ "': " ++ fault.message
  | expression index text cause =>
      "Expression #" ++ toString index ++ " (" ++ text ++ "): " ++ cause.message
  | file index path cause =>
      "File #" ++ toString index ++ " (" ++ path ++ "): " ++ cause.message
  | line number cause => "Line " ++ toString number ++ ": " ++ cause.message
  | unreadable path cause => "Failed to read " ++ path ++ ": " ++ cause.message

/-- The messages of what an error wraps, from the outside in. -/
def causes : RuleError → List String
  | invalid _ _ => []
  | expression _ _ cause | file _ _ cause | line _ cause => cause.message :: cause.causes
  | unreadable _ cause => [cause.message]

end RuleError
end LiveRules
