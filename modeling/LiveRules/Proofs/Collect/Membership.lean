import LiveRules.Proofs.Collect.Acting

/-!
# A store as a set of lines

Whatever happens to its writes, a store answers its callers as a set of lines would: what
is added is there, what is deleted is gone, and nothing else changes. Only the file that it
was opened on can bring an entry that this is not true of. A carriage return inside a line
does not end the line when the file is read, but a call that names such an entry is
refused, so it is there for good.
-/
namespace LiveRules.Collect

/-- A line of the content is the text, but for the white space around it, and has a carriage
return inside. -/
def Embedded (content text : String) : Prop :=
  '\r' ∈ (Text.trim text).toList ∧ Text.trim text ∈ entriesOf content

theorem contains_iff {s : Store} {text : String} :
    s.contains text = true ↔ Text.trim text ∈ s.entries := List.contains_iff_mem

/-! ## One call -/

section Calls
variable {s : Store} {text other : String}

theorem add_iff : (s.add text).1 = true ↔ IsLine text ∧ s.contains text = false := by
  rw [Store.add_answer, Option.any_eq_true]
  simp only [storable?_eq_some, Store.contains, Bool.not_eq_true']
  constructor
  · intro ⟨e, ⟨trim, line⟩, new⟩
    exact ⟨line, trim ▸ new⟩
  · exact fun ⟨line, new⟩ => ⟨_, ⟨rfl, line⟩, new⟩

theorem delete_iff : (s.delete text).1 = true ↔ IsLine text ∧ s.contains text = true := by
  rw [Store.delete_answer, Option.any_eq_true]
  simp only [storable?_eq_some, Store.contains]
  constructor
  · intro ⟨e, ⟨trim, line⟩, held⟩
    exact ⟨line, trim ▸ held⟩
  · exact fun ⟨line, held⟩ => ⟨_, ⟨rfl, line⟩, held⟩

theorem entries_add (s : Store) (text : String) :
    (s.add text).2.1.entries = (Move.add text).collect s.entries := by
  let r : Running := { store := s, files := {} }
  have moved : r.move (.add text) = some (r.withStore (s.add text).2) := rfl
  have entries := entries_move moved
  rwa [Running.withStore] at entries

theorem entries_delete (s : Store) (text : String) :
    (s.delete text).2.1.entries = (Move.delete text).collect s.entries := by
  let r : Running := { store := s, files := {} }
  have moved : r.move (.delete text) = some (r.withStore (s.delete text).2) := rfl
  have entries := entries_move moved
  rwa [Running.withStore] at entries

theorem storable?_eq_trim : Store.storable? text = some (Text.trim other) ↔
    IsLine text ∧ Text.trim other = Text.trim text := by
  rw [storable?_eq_some, and_comm, eq_comm]

theorem contains_add : (s.add text).2.1.contains other = true ↔
    IsLine text ∧ Text.trim other = Text.trim text ∨ s.contains other = true := by
  rw [contains_iff, contains_iff, entries_add, Move.mem_collect_add, storable?_eq_trim]

theorem contains_delete (nodup : s.entries.Nodup) :
    (s.delete text).2.1.contains other = true ↔
      ¬ (IsLine text ∧ Text.trim other = Text.trim text) ∧ s.contains other = true := by
  rw [contains_iff, contains_iff, entries_delete, Move.mem_collect_delete nodup, Ne,
    storable?_eq_trim]

end Calls

/-! ## All calls -/

/-- No call changes whether an entry is there that has a carriage return inside. -/
theorem Move.mem_collect_return {es : List String} {e : String} (nodup : es.Nodup)
    (inside : '\r' ∈ e.toList) (m : Move) : e ∈ m.collect es ↔ e ∈ es := by
  have refused (text : String) : Store.storable? text ≠ some e := fun stored => by
    obtain ⟨trim, -, -, clean⟩ := storable?_eq_some.mp stored
    exact clean (trim ▸ inside)
  cases m with
  | add text => rw [mem_collect_add, or_iff_right (refused text)]
  | delete text => rw [mem_collect_delete nodup, and_iff_right (refused text)]
  | _ => rfl

section Reachable
variable {r₀ r : Running} {h : History} {content : String}

theorem Run.mem_return (opened : r₀.Opened) (reads : r₀.files.Reads r₀.store.path content)
    (run : Run r₀ r h) {e : String} (inside : '\r' ∈ e.toList) :
    e ∈ r.store.entries ↔ e ∈ entriesOf content := by
  induction run with
  | start => rw [opened.store reads]
  | move before moved ih =>
      have nodup := (before.told opened reads).tidy.nodup
      rw [entries_move moved, Move.mem_collect_return nodup inside, ih]

/-- What is there is embedded or a line. -/
theorem Run.embedded_iff (opened : r₀.Opened) (reads : r₀.files.Reads r₀.store.path content)
    (run : Run r₀ r h) {text : String} :
    Embedded content text ↔ ¬ IsLine text ∧ r.store.contains text = true := by
  rw [contains_iff]
  constructor
  · intro ⟨inside, listed⟩
    exact ⟨fun line => line.2.2 inside, (run.mem_return opened reads inside).mpr listed⟩
  · intro ⟨broken, held⟩
    have entry := (run.told opened reads).tidy.entry _ held
    have inside : '\r' ∈ (Text.trim text).toList := by
      by_contra clean
      refine broken ⟨fun empty => entry.some ?_, entry.single, clean⟩
      rw [empty]
      rfl
    exact ⟨inside, (run.mem_return opened reads inside).mp held⟩

/-- The answers of a store to calls on a text are those of a set of lines, but for the
embedded lines of the content that it was opened on. -/
structure AnswersAsSet (content : String) (s : Store) (text : String) : Prop where
  add : (s.add text).1 = true ↔ IsLine text ∧ s.contains text = false
  added : (s.add text).1 = true → (s.add text).2.1.contains text = true
  delete : (s.delete text).1 = true ↔ s.contains text = true ∧ ¬ Embedded content text
  deleted : (s.delete text).2.1.contains text = true ↔ Embedded content text
  others : ∀ other, Text.trim other ≠ Text.trim text →
    (s.add text).2.1.contains other = s.contains other ∧
    (s.delete text).2.1.contains other = s.contains other

/-- Whatever calls were made, and whatever has become of the writes, a store answers as a set
of lines, but for the embedded lines of its file, which stay. -/
theorem answers_as_set (opened : r₀.Opened) (reads : r₀.files.Reads r₀.store.path content)
    (run : Run r₀ r h) (text : String) : AnswersAsSet content r.store text where
  add := add_iff
  added answered := contains_add.mpr (.inl ⟨(add_iff.mp answered).1, rfl⟩)
  delete := by
    rw [delete_iff, run.embedded_iff opened reads, not_and, and_comm]
    refine and_congr_right fun held => ⟨fun line broken => absurd line broken, fun kept => ?_⟩
    by_contra broken
    exact kept broken held
  deleted := by
    have nodup := (run.told opened reads).tidy.nodup
    rw [contains_delete nodup, and_iff_left rfl, run.embedded_iff opened reads]
  others other apart := by
    have nodup := (run.told opened reads).tidy.nodup
    have aside : ¬ (IsLine text ∧ Text.trim other = Text.trim text) := fun same => apart same.2
    constructor
    · exact Bool.eq_iff_iff.mpr (contains_add.trans (or_iff_right aside))
    · exact Bool.eq_iff_iff.mpr ((contains_delete nodup).trans (and_iff_right aside))

end Reachable

/-- A store on a file of one line, which has a carriage return inside. -/
def returning : Running where
  store := { path := "/c", config := {}, entries := ["a.com\rb.com"] }
  files := { nodes := [(["c"], .file (.text "a.com\rb.com\n"))] }

theorem returning_reads : returning.files.Reads returning.store.path "a.com\rb.com\n" :=
  .file (found_name rfl)

theorem returning_opened : returning.Opened := by
  have entries : entriesOf "a.com\rb.com\n" = ["a.com\rb.com"] := by decide +kernel
  obtain ⟨event, loaded⟩ := load_reads {} returning_reads
  exact ⟨event, by rw [entries] at loaded; exact loaded⟩

/-- The line is there, but deleting it is answered with no, and it is there afterwards. -/
theorem answers_as_set_returning :
    returning.Opened ∧ returning.files.Reads returning.store.path "a.com\rb.com\n" ∧
    ∃ r h, Run returning r h ∧ r.store.contains "a.com\rb.com" = true ∧
      (r.store.delete "a.com\rb.com").1 = false ∧
      (r.store.delete "a.com\rb.com").2.1.contains "a.com\rb.com" = true := by
  have embedded : Embedded "a.com\rb.com\n" "a.com\rb.com" := by
    refine ⟨by decide +kernel, ?_⟩
    have entries : entriesOf "a.com\rb.com\n" = ["a.com\rb.com"] := by decide +kernel
    rw [entries]
    decide +kernel
  have answers := answers_as_set returning_opened returning_reads .start "a.com\rb.com"
  refine ⟨returning_opened, returning_reads, returning, _, .start, ?_, ?_, ?_⟩
  · decide +kernel
  · rw [← Bool.not_eq_true, answers.delete]
    exact fun done => done.2 embedded
  · exact answers.deleted.mpr embedded

end LiveRules.Collect
