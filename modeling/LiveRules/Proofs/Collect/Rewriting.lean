import LiveRules.Pattern.Parser
import LiveRules.Proofs.Collect.Reopen
import LiveRules.Proofs.Rules.AddressRules
import LiveRules.Proofs.Rules.DomainRules

/-!
# Rewritten rule files

A store that replaces its file trims the lines, drops the blank and the repeated ones
and sorts the rest. It knows nothing of rules and of comments, but the rules that the
lines carry are the same ones, and a set of rules asks for nothing else.
-/
namespace LiveRules.Collect

theorem record_empty : record "" = none := by decide

/-- The rules of a file are those of its entries. -/
theorem mem_rulesOf_iff {rule content : String} :
    rule ∈ rulesOf content ↔ ∃ e ∈ entriesOf content, record e = some rule := by
  simp only [rulesOf, entriesOf, List.mem_filterMap, List.mem_eraseDups, List.mem_filter,
    List.mem_map]
  constructor
  · intro found
    obtain ⟨line, listed, said⟩ := found
    have trimmed : record (Text.trim line) = some rule := (record_trim line).trans said
    have some : Text.trim line ≠ "" := by
      intro none
      rw [none, record_empty] at trimmed
      cases trimmed
    exact ⟨Text.trim line, ⟨⟨line, listed, rfl⟩, by simpa using some⟩, trimmed⟩
  · intro found
    obtain ⟨e, ⟨⟨line, listed, trim⟩, -⟩, said⟩ := found
    exact ⟨line, listed, by rw [← record_trim, trim, said]⟩

/-- A file that is replaced by entries has the rules of those entries. -/
theorem mem_rulesOf_fileOf {es : List String} (entries : ∀ e ∈ es, IsEntry e) {rule : String} :
    rule ∈ rulesOf (fileOf es) ↔ ∃ e ∈ es, record e = some rule := by
  simp only [mem_rulesOf_iff, mem_entriesOf_fileOf entries]

/-- A file whose lines are those of another one, in any order and however often, has
the same rules. -/
theorem mem_rulesOf_congr {c c' : String}
    (lines : ∀ line, line ∈ Text.lines c ↔ line ∈ Text.lines c') (rule : String) :
    rule ∈ rulesOf c ↔ rule ∈ rulesOf c' := by
  simp only [rulesOf, List.mem_filterMap, lines]

/-- What a store writes of the entries of a file has the rules of the file. -/
theorem mem_rulesOf_sorted {files : Files.Tree} {config : Config} {path content : String}
    {s : Store} {event : LogEvent} (read : files.readText path = .ok content)
    (loaded : Store.load files config path = .ok (s, event)) (rule : String) :
    rule ∈ rulesOf content ↔ rule ∈ rulesOf (fileOf s.sorted) := by
  have opened : s.entries = entriesOf content := by
    simp only [Store.load, read, Except.ok.injEq, Store.load.withEntries, Prod.mk.injEq] at loaded
    rw [← loaded.1]
  have same : ∀ e, e ∈ s.sorted ↔ e ∈ entriesOf content := by
    simp [Store.sorted, opened]
  have lines : ∀ e ∈ s.sorted, IsEntry e := fun e he => isEntry_of_mem ((same e).mp he)
  rw [mem_rulesOf_fileOf lines, mem_rulesOf_iff]
  simp only [same]

/-- A file that its store has replaced says what it said before, as a source of domain
rules and as one of address rules, whatever way of aggregating subnets is used. For the
order and the repetition of lines mean nothing to either. -/
theorem rewriting_keeps_meaning [PatternLanguage] {files : Files.Tree} {config : Config}
    {path content : String} {s : Store} {event : LogEvent}
    (read : files.readText path = .ok content) (loaded : Store.load files config path = .ok (s, event)) :
    Dialect.domains.SameMeaning content (fileOf s.sorted) ∧
    Dialect.addresses.SameMeaning content (fileOf s.sorted) ∧
    (∀ g : Net.Aggregation, g.dialect.SameMeaning content (fileOf s.sorted)) ∧
    ∀ c c', (∀ line, line ∈ Text.lines c ↔ line ∈ Text.lines c') →
      Dialect.domains.SameMeaning c c' ∧ ∀ g : Net.Aggregation, g.dialect.SameMeaning c c' := by
  have same := mem_rulesOf_sorted read loaded
  have addresses := fun g : Net.Aggregation => g.lookup.sameMeaning same
  refine ⟨Recipe.Lookup.domains.sameMeaning same, ?_, addresses, ?_⟩
  · rw [← Net.Aggregation.dialect_outermost]
    exact addresses .outermost
  intro c c' lines
  have rules := mem_rulesOf_congr lines
  exact ⟨Recipe.Lookup.domains.sameMeaning rules, fun g => g.lookup.sameMeaning rules⟩

/-- A file that can be read as domain rules and as address rules. -/
def handwritten : String := "10.1.0.0/16 # b\n\n 10.0.0.0/8\n10.1.0.0/16 # b\n"

theorem handwritten_sorted :
    fileOf ((entriesOf handwritten).mergeSort (· ≤ ·)) = "10.0.0.0/8\n10.1.0.0/16 # b\n" := by
  have entries : entriesOf handwritten = ["10.1.0.0/16 # b", "10.0.0.0/8"] := by decide +kernel
  have sorted : ["10.1.0.0/16 # b", "10.0.0.0/8"].mergeSort (· ≤ ·) =
      ["10.0.0.0/8", "10.1.0.0/16 # b"] := by
    simp [List.mergeSort, List.MergeSort.Internal.splitInTwo]
  rw [entries, sorted]
  decide +kernel

open scoped Pattern in
/-- The lines are sorted, and one of two equal ones is left. -/
theorem rewriting_keeps_meaning_handwritten :
    Dialect.domains.SameMeaning handwritten "10.0.0.0/8\n10.1.0.0/16 # b\n" ∧
    Dialect.addresses.SameMeaning handwritten "10.0.0.0/8\n10.1.0.0/16 # b\n" := by
  let files : Files.Tree := { nodes := [(["c"], .file (.text handwritten))] }
  have read : files.readText "/c" = .ok handwritten := by
    rw [Files.Tree.readText, Files.Tree.readContent, found_name rfl]
  obtain ⟨event, loaded⟩ := load_reads {} (.file (found_name rfl) : files.Reads "/c" handwritten)
  have same := rewriting_keeps_meaning read loaded
  rw [Store.sorted, handwritten_sorted] at same
  exact ⟨same.1, same.2.1⟩

end LiveRules.Collect
