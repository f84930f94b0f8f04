import LiveRules.Files.Tree
import LiveRules.Rules.Error

/-!
# Rule sources

Rules come from inline expressions and from files of one record a line. Blank
lines and comments after a number sign carry no record. A source hands its
rules to a taker one by one, expressions first, and stops at the first rule
that the taker refuses or the first file that cannot be read.
-/
namespace LiveRules

structure RuleSource where
  expressions : List String := []
  files : List String := []
  deriving DecidableEq, Repr

/-- What a line says once its comment and the white space around it are gone. -/
def record (line : String) : Option String :=
  let said := Text.trim (.ofList (line.toList.takeWhile (· ≠ '#')))
  if said.isEmpty then none else some said

namespace RuleSource
variable {σ : Type}

def isEmpty (source : RuleSource) : Bool :=
  source.expressions.isEmpty && source.files.isEmpty

/-- Hands over expressions, counted from `index`. -/
def takeExpressions (take : σ → String → σ × Option RuleError) (s : σ) (index : Nat) :
    List String → σ × Option RuleError
  | [] => (s, none)
  | e :: es =>
      match take s e with
      | (s, none) => takeExpressions take s (index + 1) es
      | (s, some cause) => (s, some (.expression index e cause))

/-- Hands over the records of lines, counted from `number`. -/
def takeLines (take : σ → String → σ × Option RuleError) (s : σ) (number : Nat) :
    List String → σ × Option RuleError
  | [] => (s, none)
  | line :: rest =>
      match record line with
      | none => takeLines take s (number + 1) rest
      | some rule =>
          match take s rule with
          | (s, none) => takeLines take s (number + 1) rest
          | (s, some cause) => (s, some (.line number cause))

def takeFile (files : Files.Tree) (take : σ → String → σ × Option RuleError) (s : σ)
    (path : String) : σ × Option RuleError :=
  match files.readText path with
  | .ok content => takeLines take s 1 (Text.lines content)
  | .error cause => (s, some (.unreadable path cause))

/-- Hands over the records of files, counted from `index`. -/
def takeFiles (files : Files.Tree) (take : σ → String → σ × Option RuleError) (s : σ)
    (index : Nat) : List String → σ × Option RuleError
  | [] => (s, none)
  | path :: paths =>
      match takeFile files take s path with
      | (s, none) => takeFiles files take s (index + 1) paths
      | (s, some cause) => (s, some (.file index path cause))

/-- Hands all rules to `take`, which says what becomes of its state and why it
refuses a rule, if it does. -/
def load (source : RuleSource) (files : Files.Tree)
    (take : σ → String → σ × Option RuleError) (s : σ) : σ × Option RuleError :=
  match takeExpressions take s 0 source.expressions with
  | (s, none) => takeFiles files take s 0 source.files
  | failed => failed

/-- The state after all rules are taken, or the error of the first refusal. -/
def compile (source : RuleSource) (files : Files.Tree)
    (add : σ → String → Except RuleError σ) (s : σ) : Except RuleError σ :=
  let take (s : σ) (rule : String) : σ × Option RuleError :=
    match add s rule with
    | .ok s => (s, none)
    | .error cause => (s, some cause)
  match source.load files take s with
  | (s, none) => .ok s
  | (_, some cause) => .error cause

end RuleSource
end LiveRules
