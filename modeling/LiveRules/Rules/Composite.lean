import LiveRules.Fault
import LiveRules.Journal
import LiveRules.Rules.Dialect
import LiveRules.Rules.Groups

/-!
# Composite sets

A composite set joins rules of its own with live references to other sets. Each
rebuild compiles its source anew, looks up the sets that it refers to, and only
then publishes both; a rebuild that fails publishes nothing.
-/
namespace LiveRules

structure Composite where
  tag : String
  source : RuleSource
  /-- The tags of the sets it refers to. -/
  sets : List String := []
  /-- The registry that these are looked up in, by number. -/
  registry : Option Nat := none
  deriving DecidableEq, Repr

/-- What a rebuild found. -/
structure RebuildSummary where
  localRules : Nat
  referenced : Nat
  deriving DecidableEq, Repr

/-- The composites of one dialect. A composite and its published group have the
same number. -/
structure Family (D : Dialect) where
  composites : List Composite := []
  groups : Groups D.Table := {}

namespace Family
variable {D : Dialect}

/-- A new composite that publishes nothing yet. -/
def create (f : Family D) (c : Composite) : Nat × Family D :=
  (f.composites.length, ⟨f.composites ++ [c], f.groups.create⟩)

def find (f : Family D) (id : Nat) (key : D.Key) : Option D.Value :=
  f.groups.find (D.probe key) id

def groupSize (f : Family D) (id : Nat) : Nat := (f.groups.snapshot id).length

/-- The compiled rules, if they may be published. -/
def compile (c : Composite) (files : Files.Tree) (reloading : Bool) :
    Except Fault D.Table :=
  match D.compile c.source files with
  | .error e => .error (.rule e)
  | .ok table =>
      if reloading && !D.acceptsReload table then .error (.config c.tag .emptyReload)
      else .ok table

/-- The groups that tags refer to, in their order; the first that refers to none
decides the error. -/
def resolve (lookup : String → Except ProviderError Nat) :
    List String → Except Fault (List Nat)
  | [] => .ok []
  | tag :: tags =>
      match lookup tag with
      | .error e => .error (.provider e)
      | .ok group => (resolve lookup tags).map (group :: ·)

/-- The members to publish; a table without rules is left out. -/
def members (table : D.Table) (references : List Nat) : List (Member D.Table) :=
  (if D.size table = 0 then [] else [.table table]) ++ references.map .group

def announce (c : Composite) (reloading : Bool) (summary : RebuildSummary) : LogEvent :=
  .note .info .composite "rules" (if reloading then "reloaded" else "built")
    (c.tag ++ ": " ++ toString summary.localRules ++ " local rules, "
      ++ toString summary.referenced ++ " referenced sets")

/-- Compiles, resolves and publishes a composite. -/
def rebuild (f : Family D) (id : Nat) (files : Files.Tree)
    (lookup : Composite → String → Except ProviderError Nat) (reloading : Bool) :
    Except Fault (RebuildSummary × LogEvent × Family D) :=
  match f.composites[id]? with
  | none => .error (.provider .registryClosed)
  | some c =>
      match compile (D := D) c files reloading with
      | .error e => .error e
      | .ok table =>
          match resolve (lookup c) c.sets with
          | .error e => .error e
          | .ok references =>
              let summary : RebuildSummary := ⟨D.size table, c.sets.length⟩
              .ok (summary, announce c reloading summary,
                { f with groups := f.groups.publish id (members table references) })

def inspect (f : Family D) (id : Nat) : String :=
  match f.composites[id]? with
  | none => ""
  | some c => Text.record "CompositeMatcher" [("tag", Text.quoted c.tag),
      ("sets", Text.quotedList c.sets), ("files", Text.quotedList c.source.files),
      ("group_len", toString (f.groupSize id))]

end Family
end LiveRules
