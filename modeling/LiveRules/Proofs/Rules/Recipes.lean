import LiveRules.Rules.Dialect

/-!
# How sources are compiled

Every dialect adds the rules of a source one by one to some state and makes its
table of the last one. Whether a rule is accepted does not depend on the rules
before it, so a source compiles exactly if all its files can be read and all its
rules are accepted, wherever they stand.
-/
namespace LiveRules

theorem exists_ok_of_isOk {ε α : Type} {x : Except ε α} (ok : x.isOk = true) :
    ∃ a, x = .ok a := by
  cases x with
  | ok a => exact ⟨a, rfl⟩
  | error e => cases ok

/-- What a dialect does with one rule after the other. -/
structure Recipe (D : Dialect) where
  State : Type
  start : State
  add : State → String → Except RuleError State
  finish : State → D.Table
  compile_eq : ∀ source files, D.compile source files = (source.compile files add start).map finish
  /-- What is true of the state whatever has been added. -/
  Valid : State → Prop
  valid_start : Valid start
  valid_add : ∀ {s rule s'}, Valid s → add s rule = .ok s' → Valid s'
  steady : ∀ {s} rule, Valid s → (add s rule).isOk = (add start rule).isOk

namespace RuleSource
variable {σ : Type}

/-- Adds one rule; a refused one leaves the state alone. -/
def taking (add : σ → String → Except RuleError σ) (s : σ) (rule : String) :
    σ × Option RuleError :=
  match add s rule with
  | .ok s => (s, none)
  | .error cause => (s, some cause)

theorem compile_eq_load (source : RuleSource) (files : Files.Tree)
    (add : σ → String → Except RuleError σ) (s : σ) :
    source.compile files add s = match source.load files (taking add) s with
      | (s, none) => .ok s
      | (_, some cause) => .error cause := by
  unfold compile taking
  rfl

end RuleSource

namespace DomainMatcher
variable [PatternLanguage] {V : Type}

theorem default_add {m m' : DomainMatcher V} {rule : String} {value : V}
    (added : m.add rule value = .ok m') : m'.default = m.default := by
  unfold add at added
  dsimp only at added
  split at added
  · cases added
  · split at added
    · cases added; rfl
    · cases added; rfl
    · cases added; rfl
    · split at added
      · cases added; rfl
      · cases added

theorem isOk_add {m m' : DomainMatcher V} (same : m.default = m'.default) (rule : String)
    (value : V) : (m.add rule value).isOk = (m'.add rule value).isOk := by
  unfold add
  dsimp only
  rw [same]
  split
  · rfl
  · split
    · rfl
    · rfl
    · rfl
    · split <;> rfl

end DomainMatcher

namespace Recipe

section
variable [PatternLanguage]

def domains : Recipe Dialect.domains where
  State := DomainMatcher Unit
  start := { default := .domain }
  add m rule := m.add rule ()
  finish m := m
  compile_eq source files := by
    change Dialect.compileDomains source files = _
    unfold Dialect.compileDomains
    cases source.compile files (fun m rule => DomainMatcher.add m rule ())
      { default := .domain } <;> rfl
  Valid m := m.default = .domain
  valid_start := rfl
  valid_add valid added := (DomainMatcher.default_add added).trans valid
  steady rule valid := DomainMatcher.isOk_add valid rule ()

def addresses : Recipe Dialect.addresses where
  State := List Net.Network
  start := []
  add := AddressRules.add
  finish := .ofList
  compile_eq _ _ := rfl
  Valid _ := True
  valid_start := trivial
  valid_add _ _ := trivial
  steady {s} rule _ := by
    unfold AddressRules.add
    cases AddressRules.network rule <;> rfl

theorem addHost_eq (m : DomainMatcher (List Net.Address)) (record : String) :
    Dialect.addHost m record = match HostRecord.parse record with
      | .ok r => m.add r.rule r.addresses
      | .error cause => .error cause := by
  unfold Dialect.addHost
  cases HostRecord.parse record with
  | error cause => rfl
  | ok r => simp only [bind, Except.bind]

def hosts : Recipe Dialect.hosts where
  State := DomainMatcher (List Net.Address)
  start := { default := .full }
  add := Dialect.addHost
  finish m := m
  compile_eq source files := by
    change Dialect.compileHosts source files = _
    unfold Dialect.compileHosts
    cases source.compile files Dialect.addHost { default := .full } <;> rfl
  Valid m := m.default = .full
  valid_start := rfl
  valid_add {m record m'} valid added := by
    rw [addHost_eq] at added
    cases parsed : HostRecord.parse record with
    | error cause => simp [parsed] at added
    | ok r =>
        rw [parsed] at added
        exact (DomainMatcher.default_add added).trans valid
  steady {m} record valid := by
    rw [addHost_eq, addHost_eq]
    cases HostRecord.parse record with
    | error cause => rfl
    | ok r => exact DomainMatcher.isOk_add valid r.rule r.addresses

end

variable {D : Dialect} (R : Recipe D)

/-- Takes one rule. -/
def take : R.State → String → R.State × Option RuleError := RuleSource.taking R.add

def Accepts (rule : String) : Prop := (R.add R.start rule).isOk = true

/-- The file can be read and all its records are accepted. -/
def AcceptsFile (files : Files.Tree) (path : String) : Prop :=
  ∃ content, files.readText path = .ok content ∧
    ∀ line ∈ Text.lines content, ∀ rule, record line = some rule → R.Accepts rule

/-- The outcome of taking some rules, of which `Fine` says that all are accepted. -/
structure Taken (out : R.State × Option RuleError) (Fine : Prop) : Prop where
  valid : R.Valid out.1
  accepted : out.2 = none ↔ Fine

variable {R} {s : R.State}

theorem taken_take (valid : R.Valid s) (rule : String) :
    R.Taken (R.take s rule) (R.Accepts rule) := by
  have same := R.steady rule valid
  unfold take RuleSource.taking Accepts
  cases added : R.add s rule with
  | ok s' =>
      rw [added] at same
      exact ⟨R.valid_add valid added, by rw [← same]; simp [Except.isOk, Except.toBool]⟩
  | error cause =>
      rw [added] at same
      exact ⟨valid, by rw [← same]; simp [Except.isOk, Except.toBool]⟩

theorem taken_expressions (valid : R.Valid s) (index : Nat) (expressions : List String) :
    R.Taken (RuleSource.takeExpressions R.take s index expressions)
      (∀ text ∈ expressions, R.Accepts text) := by
  induction expressions generalizing s index with
  | nil => exact ⟨valid, by simp [RuleSource.takeExpressions]⟩
  | cons text rest ih =>
      have one := taken_take valid text
      unfold RuleSource.takeExpressions
      rcases taken : R.take s text with ⟨s', refusal⟩
      rw [taken] at one
      cases refusal with
      | none =>
          have fine : R.Accepts text := one.accepted.mp rfl
          have others := ih one.valid (index + 1)
          exact ⟨others.valid, by simpa [fine] using others.accepted⟩
      | some cause =>
          have refused : ¬ R.Accepts text := fun fine => by simpa using one.accepted.mpr fine
          exact ⟨one.valid, by simp [refused]⟩

theorem taken_lines (valid : R.Valid s) (number : Nat) (lines : List String) :
    R.Taken (RuleSource.takeLines R.take s number lines)
      (∀ line ∈ lines, ∀ rule, record line = some rule → R.Accepts rule) := by
  induction lines generalizing s number with
  | nil => exact ⟨valid, by simp [RuleSource.takeLines]⟩
  | cons line rest ih =>
      unfold RuleSource.takeLines
      cases said : record line with
      | none =>
          have others := ih valid (number + 1)
          exact ⟨others.valid, by simpa [said] using others.accepted⟩
      | some rule =>
          have one := taken_take valid rule
          rcases taken : R.take s rule with ⟨s', refusal⟩
          rw [taken] at one
          cases refusal with
          | none =>
              have fine : R.Accepts rule := one.accepted.mp rfl
              have others := ih one.valid (number + 1)
              exact ⟨by simpa [taken] using others.valid,
                by simpa [taken, said, fine] using others.accepted⟩
          | some cause =>
              have refused : ¬ R.Accepts rule := fun fine => by
                simpa using one.accepted.mpr fine
              exact ⟨by simpa [taken] using one.valid, by simp [taken, said, refused]⟩

theorem taken_file (valid : R.Valid s) (files : Files.Tree) (path : String) :
    R.Taken (RuleSource.takeFile files R.take s path) (R.AcceptsFile files path) := by
  unfold RuleSource.takeFile AcceptsFile
  cases files.readText path with
  | error cause => exact ⟨valid, by simp⟩
  | ok content => simpa using taken_lines valid 1 (Text.lines content)

theorem taken_files (valid : R.Valid s) (files : Files.Tree) (index : Nat)
    (paths : List String) :
    R.Taken (RuleSource.takeFiles files R.take s index paths)
      (∀ path ∈ paths, R.AcceptsFile files path) := by
  induction paths generalizing s index with
  | nil => exact ⟨valid, by simp [RuleSource.takeFiles]⟩
  | cons path rest ih =>
      have one := taken_file valid files path
      unfold RuleSource.takeFiles
      rcases taken : RuleSource.takeFile files R.take s path with ⟨s', refusal⟩
      rw [taken] at one
      cases refusal with
      | none =>
          have fine : R.AcceptsFile files path := one.accepted.mp rfl
          have others := ih one.valid (index + 1)
          exact ⟨others.valid, by simpa [fine] using others.accepted⟩
      | some cause =>
          have refused : ¬ R.AcceptsFile files path := fun fine => by
            simpa using one.accepted.mpr fine
          exact ⟨one.valid, by simp [refused]⟩

theorem compile_take (R : Recipe D) (source : RuleSource) (files : Files.Tree) :
    D.compile source files = match source.load files R.take R.start with
      | (s, none) => .ok (R.finish s)
      | (_, some cause) => .error cause := by
  rw [R.compile_eq, RuleSource.compile_eq_load, take]
  rcases source.load files (RuleSource.taking R.add) R.start with ⟨s, refusal⟩
  cases refusal <;> rfl

/-- A source compiles exactly if all its rules are accepted and all its files can be
read. -/
theorem compile_isOk (R : Recipe D) (source : RuleSource) (files : Files.Tree) :
    (D.compile source files).isOk = true ↔
      (∀ text ∈ source.expressions, R.Accepts text) ∧
        ∀ path ∈ source.files, R.AcceptsFile files path := by
  have expressions := taken_expressions R.valid_start 0 source.expressions
  rw [compile_take R]
  unfold RuleSource.load
  rcases taken : RuleSource.takeExpressions R.take R.start 0 source.expressions with ⟨s, refusal⟩
  rw [taken] at expressions
  cases refusal with
  | some cause =>
      have refused : ¬ ∀ text ∈ source.expressions, R.Accepts text := fun fine => by
        simpa using expressions.accepted.mpr fine
      simp [refused, Except.isOk, Except.toBool]
  | none =>
      have fine := expressions.accepted.mp rfl
      have others := (taken_files expressions.valid files 0 source.files).accepted
      rcases read : RuleSource.takeFiles files R.take s 0 source.files with ⟨s', refusal⟩
      rw [read] at others
      cases refusal with
      | none =>
          have both := And.intro fine (others.mp rfl)
          exact ⟨fun _ => both, fun _ => by simp [read, Except.isOk, Except.toBool]⟩
      | some cause =>
          have refused : ¬ ∀ path ∈ source.files, R.AcceptsFile files path := fun all => by
            simpa using others.mpr all
          simp [read, refused, Except.isOk, Except.toBool]

end Recipe
end LiveRules
