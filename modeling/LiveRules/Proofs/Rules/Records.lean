import LiveRules.Proofs.Rules.Recipes
import LiveRules.Proofs.Text.Search
import Mathlib.Data.List.Basic

/-!
# What the records of a source mean

A source that compiles has had all its rules added in turn: its expressions, then the
records of its files. A table finds a key if one of its rules does, whatever the other
rules are, so neither the order of the rules nor their repetition is of any
consequence.
-/
namespace LiveRules

/-- The rules of a rule file, in the order of its lines. -/
def rulesOf (content : String) : List String := (Text.lines content).filterMap record

theorem record_eq_some {line rule : String} : record line = some rule ↔
    rule.toList ≠ [] ∧ Text.trimmed (line.toList.takeWhile (· ≠ '#')) = rule.toList := by
  generalize said : Text.trim (.ofList (line.toList.takeWhile (· ≠ '#'))) = text
  have chars : Text.trimmed (line.toList.takeWhile (· ≠ '#')) = text.toList := by
    rw [← said, Text.toList_trim, String.toList_ofList]
  simp only [record, said, chars, String.toList_inj]
  by_cases none : text = ""
  · subst none
    rw [if_pos (by rfl)]
    constructor
    · nofun
    · rintro ⟨some, rfl⟩
      exact absurd rfl some
  · simp only [String.isEmpty_iff, none, if_false, Option.some.injEq]
    constructor
    · rintro rfl
      exact ⟨by simpa using none, rfl⟩
    · exact And.right

/-- The line is the rule with white space around it and perhaps a comment, which starts at the
first `#`. -/
structure Carries (line rule : List Char) : Prop where
  some : rule ≠ []
  tight : Text.Tight rule
  place : ∃ before after comment, line = before ++ (rule ++ after) ++ comment ∧
    (∀ c ∈ before, Text.isBlank c = true) ∧ (∀ c ∈ after, Text.isBlank c = true) ∧
    '#' ∉ before ++ (rule ++ after) ∧ ∀ c ∈ comment.head?, c = '#'

/-- Where a `#` can only start the comment, the comment is all that is cut. -/
theorem takeWhile_comment {text comment : List Char} (clear : '#' ∉ text)
    (sharp : ∀ c ∈ comment.head?, c = '#') :
    (text ++ comment).takeWhile (· ≠ '#') = text := by
  have all : ∀ c ∈ text, decide (c ≠ '#') = true := by
    rintro c listed
    rw [decide_eq_true_eq]
    rintro rfl
    exact clear listed
  rw [List.takeWhile_append_of_pos all]
  rcases comment with _ | ⟨c, rest⟩
  · exact List.append_nil text
  · rw [sharp c rfl, List.takeWhile_cons_of_neg (by simp), List.append_nil]

/-- The record of a line is what stands before its comment without the white space around
it, if that is anything. -/
theorem record_eq_some_iff {line rule : String} :
    record line = some rule ↔ Carries line.toList rule.toList := by
  rw [record_eq_some, Text.trimmed_eq_iff]
  constructor
  · rintro ⟨some, tight, before, after, text, blank, blank'⟩
    refine ⟨some, tight, before, after, line.toList.dropWhile (· ≠ '#'), ?_, blank, blank', ?_, ?_⟩
    · rw [← text, List.takeWhile_append_dropWhile]
    · rw [← text]
      intro taken
      simpa using List.mem_takeWhile_imp taken
    · intro c first
      have sharp := List.head?_dropWhile_not (fun c : Char => decide (c ≠ '#')) line.toList
      rw [Option.mem_def.mp first] at sharp
      simpa using sharp
  · rintro ⟨some, tight, before, after, comment, split, blank, blank', clear, sharp⟩
    refine ⟨some, tight, before, after, ?_, blank, blank'⟩
    rw [split, takeWhile_comment clear sharp]

/-- White space around a line means nothing. -/
theorem record_trim (line : String) : record (Text.trim line) = record line := by
  have cut : Text.trimmed ((Text.trimmed line.toList).takeWhile (· ≠ '#')) =
      Text.trimmed (line.toList.takeWhile (· ≠ '#')) := by
    refine Text.trimmed_takeWhile (fun c blank => ?_) line.toList
    rw [decide_eq_true_eq]
    rintro rfl
    exact absurd blank (by decide)
  ext rule
  rw [record_eq_some, record_eq_some, Text.toList_trim, cut]

namespace RuleSource

/-- The rules of one file; a file that cannot be read has none. -/
def rulesIn (files : Files.Tree) (path : String) : List String :=
  match files.readText path with
  | .ok content => rulesOf content
  | .error _ => []

theorem rulesIn_ok {files : Files.Tree} {path content : String}
    (read : files.readText path = .ok content) : rulesIn files path = rulesOf content := by
  simp only [rulesIn, read]

/-- All rules of a source, in the order in which they are added. -/
def rules (source : RuleSource) (files : Files.Tree) : List String :=
  source.expressions ++ source.files.flatMap (rulesIn files)

end RuleSource

namespace Recipe
variable {D : Dialect} {R : Recipe D} {s s' s'' : R.State}

/-- Rules are added one by one, and all of them are accepted. -/
inductive Adds (R : Recipe D) : R.State → List String → R.State → Prop
  | nil (s : R.State) : Adds R s [] s
  | cons {s s' s'' : R.State} {rule : String} {rules : List String} :
      R.add s rule = .ok s' → Adds R s' rules s'' → Adds R s (rule :: rules) s''

theorem Adds.append {rules rules' : List String} (first : R.Adds s rules s')
    (second : R.Adds s' rules' s'') : R.Adds s (rules ++ rules') s'' := by
  induction first with
  | nil => exact second
  | cons added _ ih => exact .cons added (ih second)

theorem add_of_take {rule : String} (taken : R.take s rule = (s', none)) :
    R.add s rule = .ok s' := by
  unfold take RuleSource.taking at taken
  split at taken
  · rename_i after added
    rw [added, (Prod.mk.inj taken).1]
  · cases taken

theorem adds_expressions {index : Nat} {expressions : List String}
    (taken : RuleSource.takeExpressions R.take s index expressions = (s', none)) :
    R.Adds s expressions s' := by
  induction expressions generalizing s index with
  | nil =>
      cases taken
      exact .nil _
  | cons text rest ih =>
      unfold RuleSource.takeExpressions at taken
      split at taken
      · rename_i after first
        exact .cons (add_of_take first) (ih taken)
      · cases taken

theorem adds_lines {number : Nat} {lines : List String}
    (taken : RuleSource.takeLines R.take s number lines = (s', none)) :
    R.Adds s (lines.filterMap record) s' := by
  induction lines generalizing s number with
  | nil =>
      cases taken
      exact .nil _
  | cons line rest ih =>
      unfold RuleSource.takeLines at taken
      split at taken
      · rename_i said
        rw [List.filterMap_cons_none said]
        exact ih taken
      · rename_i rule said
        rw [List.filterMap_cons_some said]
        split at taken
        · rename_i after first
          exact .cons (add_of_take first) (ih taken)
        · cases taken

theorem adds_files {files : Files.Tree} {index : Nat} {paths : List String}
    (taken : RuleSource.takeFiles files R.take s index paths = (s', none)) :
    R.Adds s (paths.flatMap (RuleSource.rulesIn files)) s' := by
  induction paths generalizing s index with
  | nil =>
      cases taken
      exact .nil _
  | cons path rest ih =>
      unfold RuleSource.takeFiles at taken
      split at taken
      · rename_i after first
        refine Adds.append ?_ (ih taken)
        unfold RuleSource.takeFile at first
        split at first
        · rename_i content read
          rw [RuleSource.rulesIn_ok read]
          exact adds_lines first
        · cases first
      · cases taken

/-- A table is made of all rules of its source. -/
theorem adds_of_compile {source : RuleSource} {files : Files.Tree} {table : D.Table}
    (compiled : D.compile source files = .ok table) :
    ∃ s, R.Adds R.start (source.rules files) s ∧ table = R.finish s := by
  rw [compile_take R] at compiled
  split at compiled
  · rename_i s loaded
    refine ⟨s, ?_, (Except.ok.inj compiled).symm⟩
    unfold RuleSource.load at loaded
    split at loaded
    · rename_i after first
      exact (adds_expressions first).append (adds_files loaded)
    · rename_i failed
      rw [loaded] at failed
      exact absurd rfl (failed s)
  · cases compiled

theorem acceptsFile_iff {files : Files.Tree} {path : String} : R.AcceptsFile files path ↔
    ∃ content, files.readText path = .ok content ∧ ∀ rule ∈ rulesOf content, R.Accepts rule := by
  refine exists_congr fun content => and_congr_right fun _ => ?_
  simp only [rulesOf, List.mem_filterMap]
  constructor
  · rintro all rule ⟨line, listed, said⟩
    exact all line listed rule said
  · exact fun all line listed rule said => all rule ⟨line, listed, said⟩

/-- How keys are found by rules: a rule more finds what it finds by itself. -/
structure Lookup (R : Recipe D) where
  /-- The rule by itself finds the key. -/
  Hits : String → D.Key → Prop
  /-- The rules that have been added find the key. -/
  Found : R.State → D.Key → Prop
  not_found_start : ∀ key, ¬ Found R.start key
  found_add : ∀ {s rule s'} key, R.Valid s → R.add s rule = .ok s' →
    (Found s' key ↔ Found s key ∨ Hits rule key)
  probe_finish : ∀ s key, (D.probe key (R.finish s)).isSome = true ↔ Found s key

namespace Lookup

theorem found_adds (L : R.Lookup) {rules : List String} (valid : R.Valid s)
    (adds : R.Adds s rules s') (key : D.Key) :
    L.Found s' key ↔ L.Found s key ∨ ∃ rule ∈ rules, L.Hits rule key := by
  induction adds with
  | nil => simp
  | cons added _ ih =>
      rw [ih (R.valid_add valid added), L.found_add key valid added,
        List.exists_mem_cons_iff, or_assoc]

/-- A table finds exactly the keys that its rules find. -/
theorem probe_compile (L : R.Lookup) {source : RuleSource} {files : Files.Tree}
    {table : D.Table} (compiled : D.compile source files = .ok table) (key : D.Key) :
    (D.probe key table).isSome = true ↔ ∃ rule ∈ source.rules files, L.Hits rule key := by
  obtain ⟨s, adds, rfl⟩ := adds_of_compile compiled (R := R)
  rw [L.probe_finish, L.found_adds R.valid_start adds]
  exact or_iff_right (L.not_found_start key)

end Lookup
end Recipe

/-- Two texts say the same as rule files: in whatever source one takes the place of the
other, both compile or neither does, and the same keys are found. -/
def Dialect.SameMeaning (D : Dialect) (c c' : String) : Prop :=
  ∀ (source : RuleSource) (files files' : Files.Tree),
    (∀ path ∈ source.files, files'.readText path = files.readText path ∨
      files.readText path = .ok c ∧ files'.readText path = .ok c') →
    ((D.compile source files).isOk = true ↔ (D.compile source files').isOk = true) ∧
    ∀ table table', D.compile source files = .ok table → D.compile source files' = .ok table' →
      ∀ key, (D.probe key table).isSome = (D.probe key table').isSome

/-- Texts with the same rules say the same. -/
theorem Recipe.Lookup.sameMeaning {D : Dialect} {R : Recipe D} (L : R.Lookup) {c c' : String}
    (same : ∀ rule, rule ∈ rulesOf c ↔ rule ∈ rulesOf c') : D.SameMeaning c c' := by
  intro source files files' replaced
  constructor
  · rw [R.compile_isOk, R.compile_isOk]
    refine and_congr_right fun _ => forall₂_congr fun path listed => ?_
    rw [acceptsFile_iff, acceptsFile_iff]
    rcases replaced path listed with other | ⟨before, after⟩
    · rw [other]
    · simp only [before, after, Except.ok.injEq, exists_eq_left', same]
  · intro table table' compiled compiled' key
    have members : ∀ rule, rule ∈ source.rules files ↔ rule ∈ source.rules files' := by
      intro rule
      simp only [RuleSource.rules, List.mem_append, List.mem_flatMap]
      refine or_congr_right (exists_congr fun path => and_congr_right fun listed => ?_)
      unfold RuleSource.rulesIn
      rcases replaced path listed with other | ⟨before, after⟩
      · rw [other]
      · simp only [before, after, same]
    rw [Bool.eq_iff_iff, L.probe_compile compiled, L.probe_compile compiled']
    simp only [members]

end LiveRules
