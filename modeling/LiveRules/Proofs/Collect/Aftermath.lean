import LiveRules.Proofs.Collect.Acting
import LiveRules.Proofs.Collect.Rewriting

/-!
# What collecting leaves behind

The file of a store that has shut down, and the domain set that is compiled of it.
Nothing is known of the moves between the calls. A file that was there, or that has been
made since, holds the entries that the actions have left; any other is as it was.
-/
namespace LiveRules.Collect

/-- The calls that collect names have been made on a store that was opened before, and the
store has shut down without refusing or dropping a write. Between the calls it may have made
any moves. -/
structure Collected (r₀ : Running) (names : List (Action × String)) (r : Running)
    (h : History) : Prop where
  opened : r₀.Opened
  made : ∃ ms, follow r₀ {} ms = some (r, h) ∧ ms.filter Move.isCall = callsOf names
  ended : r.store.writerEnded = true
  kept : ∀ x ∈ h.submissions, x.fate ≠ .refused ∧ x.fate ≠ .dropped

/-- Nothing has been written yet, or there is a file to read. -/
def UntouchedOrMade (r₀ r : Running) (h : History) : Prop :=
  writtenEntries h.submissions = [] ∧ r.files = r₀.files ∨
    writtenEntries h.submissions ≠ [] ∧ ∃ content, r.files.Holds r.store.path content

theorem UntouchedOrMade.congr {r₀ r r' : Running} {h h' : History}
    (either : UntouchedOrMade r₀ r h) (files : r'.files = r.files)
    (path : r'.store.path = r.store.path)
    (written : writtenEntries h'.submissions = writtenEntries h.submissions) :
    UntouchedOrMade r₀ r' h' := by
  unfold UntouchedOrMade
  rw [files, path, written]
  exact either

/-- A write that is carried out makes a file. -/
theorem InOrder.made {r₀ r r' : Running} {h h' : History} {op : WriteOp} {content : String}
    (ordered : InOrder r.store h) (busy : r.store.writer.ops = [op])
    (holds : r'.files.Holds r'.store.path content)
    (submissions : h'.submissions = advanceFirst .held (·.become .written) h.submissions) :
    UntouchedOrMade r₀ r' h' := by
  obtain ⟨x, -, last⟩ := ordered.written busy
  refine .inr ⟨?_, content, holds⟩
  rw [writtenEntries, submissions, last]
  simp

/-- Whoever reads the file finds a text, at any time. -/
theorem UntouchedOrMade.reads {r₀ r : Running} {h : History} {s : String}
    (either : UntouchedOrMade r₀ r h) (reads : r₀.files.Reads r.store.path s) :
    ∃ content, r.files.Reads r.store.path content := by
  rcases either with ⟨-, untouched⟩ | ⟨-, content, holds⟩
  · exact ⟨s, untouched ▸ reads⟩
  · exact ⟨content, holds.reads⟩

theorem untouchedOrMade_step {r₀ r r' : Running} {h h' : History} {s : String}
    (reads : r₀.files.Reads r.store.path s) (ordered : InOrder r.store h)
    (either : UntouchedOrMade r₀ r h) (step : Step r h r' h') : UntouchedOrMade r₀ r' h' := by
  obtain ⟨content, now⟩ := either.reads reads
  cases step with
  | silent | close | clear | snapshot => exact either.congr rfl rfl rfl
  | refused | queued | postponed | rejected =>
      exact either.congr rfl rfl (writtenEntries_enter _ nofun)
  | pop | send | retry | giveUp | take | failed =>
      refine either.congr rfl rfl (writtenEntries_advance ?_ ?_ _) <;> simp [Submission.become]
  | appended holding done =>
      exact ordered.made (by rw [holding]; rfl) (now.holds_append done) rfl
  | replaced replacing done =>
      exact ordered.made (by rw [replacing]; rfl) (now.holds_replace done) rfl

theorem Run.untouchedOrMade {r₀ r : Running} {h : History} {s : String} (opened : r₀.Opened)
    (reads : r₀.files.Reads r₀.store.path s) (run : Run r₀ r h) : UntouchedOrMade r₀ r h := by
  induction run with
  | start => exact .inl ⟨rfl, rfl⟩
  | @move _ _ h _ before moved ih =>
      exact untouchedOrMade_step (before.place.1 ▸ reads) (before.inOrder opened) ih
        (step_of_move h moved)

/-- The store cannot write to its file and has left it alone, or the file is behind by
what is not finished. -/
def UntouchedOrShown (r₀ r : Running) (h : History) : Prop :=
  ¬ r₀.files.Writable r₀.store.path ∧ r.files = r₀.files ∨
    r.files.Writable r.store.path ∧ ∃ content, Shows Fate.Unfinished r h content

theorem untouchedOrShown_step {start : List String} {r₀ r r' : Running} {h h' : History}
    {s : String} (reads : r₀.files.Reads r₀.store.path s) (place : r.store.path = r₀.store.path)
    (told : Told start r h) (behind : ReadBehind r h) (either : UntouchedOrShown r₀ r h)
    (step : Step r h r' h') : UntouchedOrShown r₀ r' h' := by
  rcases either with ⟨unwritable, untouched⟩ | ⟨writable, content, shows⟩
  · have now : r.files.Reads r.store.path s := by rwa [untouched, place]
    cases step with
    | appended holding done =>
        have writable := now.writable done
        rw [untouched, place] at writable
        exact absurd writable unwritable
    | replaced replacing done =>
        -- All entries are in the file now, also those whose lines have failed.
        exact .inr ⟨(now.holds_replace done).writable, _,
          behind.replaced (fun _ => id) now replacing done rfl rfl rfl rfl⟩
    | _ => exact .inl ⟨unwritable, untouched⟩
  · refine .inr ⟨?_, shows_step (fun _ => id) shows told behind step (.inr writable)⟩
    cases step with
    | appended holding done => exact (shows.reads.holds_append done).writable
    | replaced replacing done => exact (shows.reads.holds_replace done).writable
    | _ => exact writable

theorem Run.untouchedOrShown {r₀ r : Running} {h : History} {s : String} (opened : r₀.Opened)
    (reads : r₀.files.Reads r₀.store.path s) (ended : Ended s) (run : Run r₀ r h) :
    UntouchedOrShown r₀ r h := by
  induction run with
  | start =>
      by_cases writable : r₀.files.Writable r₀.store.path
      · refine .inr ⟨writable, s, reads, ended, .of_same fun e => ?_⟩
        rw [opened.store reads]
      · exact .inl ⟨writable, rfl⟩
  | @move _ _ h _ before moved ih =>
      exact untouchedOrShown_step reads before.place.1 (before.told opened reads)
        (before.readBehind opened reads) ih (step_of_move h moved)

/-- No write fails where a file can be written. -/
theorem sound_step {r r' : Running} {h h' : History}
    (writable : r.files.Writable r.store.path) (sound : Sound h.submissions)
    (step : Step r h r' h') : Sound h'.submissions := by
  have entered {x : Submission} (fine : x.fate ≠ .failed) : Sound (h.enter x).submissions :=
    Lists.forall_append sound fine
  have advanced {fate : Fate} {f : Submission → Submission}
      (fine : ∀ x, (f x).fate ≠ .failed) : Sound (h.advance fate f).submissions := by
    intro x hx
    rcases mem_advanceFirst hx with old | ⟨y, -, -, rfl⟩
    · exact sound x old
    · exact fine y
  cases step with
  | silent | close | clear | snapshot => exact sound
  | refused | queued | postponed | rejected => exact entered nofun
  | pop | send | retry | giveUp | take | appended | replaced => exact advanced fun _ => nofun
  | failed _ _ broken => exact absurd broken (Running.write?_ne_error writable _ _)

/-- A store that can write its file always can, and none of its writes fails. -/
theorem Run.sound {r₀ r : Running} {h : History} {s : String} (opened : r₀.Opened)
    (reads : r₀.files.Reads r₀.store.path s) (writable : r₀.files.Writable r₀.store.path)
    (run : Run r₀ r h) : Sound h.submissions := by
  induction run with
  | start => exact nofun
  | @move r _ h _ before moved ih =>
      have now : r.files.Writable r.store.path := by
        rcases before.untouchedOrMade opened reads with ⟨-, untouched⟩ | ⟨-, content, holds⟩
        · rwa [untouched, before.place.1]
        · exact holds.writable
      exact sound_step now ih (step_of_move h moved)

namespace Collected
variable {r₀ r : Running} {names : List (Action × String)} {h : History} {s : String}

theorem run (collected : Collected r₀ names r h) : Run r₀ r h :=
  Run.start.follow collected.made.choose_spec.1

theorem path (collected : Collected r₀ names r h) : r.store.path = r₀.store.path :=
  collected.run.place.1

theorem entries (collected : Collected r₀ names r h) :
    r.store.entries = collectAll r₀.store.entries names := by
  obtain ⟨ms, followed, calls⟩ := collected.made
  rw [entries_follow followed, calls, foldl_callsOf]

theorem edits (collected : Collected r₀ names r h) :
    h.submissions.map (·.edit) = editsOf r₀.store.entries (callsOf names) := by
  obtain ⟨ms, followed, calls⟩ := collected.made
  rw [edits_follow followed, calls]
  rfl

/-- The writer has come to every write. -/
theorem settled (collected : Collected r₀ names r h) :
    ∀ x ∈ h.submissions, ¬ x.fate.Unfinished := by
  intro x hx
  have ended := ((collected.run.inOrder collected.opened).ended collected.ended).2.2.2 x hx
  have kept := collected.kept x hx
  revert ended kept
  cases x.fate <;> simp [Fate.pending, Fate.Unfinished, Fate.finished]

theorem written (collected : Collected r₀ names r h) (sound : Sound h.submissions) :
    ∀ x ∈ h.submissions, x.fate = .written := by
  intro x hx
  have settled := collected.settled x hx
  have done := sound x hx
  revert settled done
  cases x.fate <;> simp [Fate.Unfinished, Fate.finished]

theorem writtenEntries_eq_nil (collected : Collected r₀ names r h) (sound : Sound h.submissions) :
    writtenEntries h.submissions = [] ↔ h.submissions = [] := by
  have all : h.submissions.filter (·.fate = .written) = h.submissions :=
    List.filter_eq_self.mpr fun x hx => decide_eq_true (collected.written sound x hx)
  rw [writtenEntries, all, List.map_eq_nil_iff]

/-- A file that the store can write to holds what the actions have left of its entries. -/
theorem shown (collected : Collected r₀ names r h) (reads : r₀.files.Reads r₀.store.path s)
    (ended : Ended s) :
    ¬ r₀.files.Writable r₀.store.path ∧ r.files = r₀.files ∨
      ∃ content, r.files.Reads r₀.store.path content ∧
        ∀ e, e ∈ entriesOf content ↔ e ∈ collectAll (entriesOf s) names := by
  refine (collected.run.untouchedOrShown collected.opened reads ended).imp_right ?_
  intro ⟨_, content, shows⟩
  refine ⟨content, collected.path ▸ shows.reads, fun e => ?_⟩
  have start : r₀.store.entries = entriesOf s := by rw [collected.opened.store reads]
  rw [shows.same collected.settled, collected.entries, start]

/-- A file that was there can still be read, and holds what the actions have left of its
entries. -/
theorem content (collected : Collected r₀ names r h) (file : r₀.files.Holds r₀.store.path s)
    (ended : Ended s) :
    ∃ content, r.files.readText r₀.store.path = .ok content ∧
      ∀ e, e ∈ entriesOf content ↔ e ∈ collectAll (entriesOf s) names := by
  rcases collected.shown file.reads ended with ⟨unwritable, -⟩ | ⟨content, reads, same⟩
  · exact absurd file.writable unwritable
  refine ⟨content, ?_, same⟩
  rcases collected.run.untouchedOrMade collected.opened file.reads with ⟨-, untouched⟩ | made
  · rw [untouched] at reads ⊢
    rw [file.readText, file.reads.unique reads]
  · obtain ⟨-, content', holds⟩ := made
    rw [collected.path] at holds
    rw [holds.readText, holds.reads.unique reads]

end Collected

/-- The records of one file. -/
def ofFile (path : String) : RuleSource := { files := [path] }

theorem compile_ofFile [PatternLanguage] {files : Files.Tree} {path : String} :
    (Dialect.compileDomains (ofFile path) files).isOk = true ↔
      ∃ content, files.readText path = .ok content ∧
        ∀ e ∈ entriesOf content, ∀ rule, record e = some rule → Recipe.domains.Accepts rule := by
  have compiles := Recipe.domains.compile_isOk (ofFile path) files
  rw [compiles]
  simp only [ofFile, List.not_mem_nil, false_implies, implies_true, true_and,
    List.mem_singleton, forall_eq, Recipe.acceptsFile_iff, mem_rulesOf_iff]
  refine exists_congr fun content => and_congr_right fun _ => ?_
  constructor
  · exact fun all e he rule said => all rule ⟨e, he, said⟩
  · exact fun all rule ⟨e, he, said⟩ => all e he rule said

/-- A file compiles as a domain set if its entries do. -/
theorem compile_ofFile_iff [PatternLanguage] {files : Files.Tree} {path content : String}
    (read : files.readText path = .ok content) :
    (Dialect.compileDomains (ofFile path) files).isOk = true ↔
      ∀ e ∈ entriesOf content, ∀ rule, record e = some rule → Recipe.domains.Accepts rule := by
  rw [compile_ofFile, read]
  constructor
  · intro ⟨_, same, all⟩
    rwa [← Except.ok.inj same] at all
  · exact fun all => ⟨content, rfl, all⟩

/-- A name is found by a rule that an entry of the file says. -/
def EntryHits [PatternLanguage] (e key : String) : Prop :=
  ∃ rule, record e = some rule ∧ normalize key ≠ "" ∧
    RuleKind.RuleHits .domain rule (normalize key)

theorem find_ofFile [PatternLanguage] {files : Files.Tree} {path content : String}
    {m : DomainMatcher Unit}
    (read : files.readText path = .ok content)
    (compiled : Dialect.compileDomains (ofFile path) files = .ok m) (key : String) :
    (m.find? key).isSome = true ↔ ∃ e ∈ entriesOf content, EntryHits e key := by
  have found := Recipe.Lookup.domains.probe_compile compiled key
  have rules : (ofFile path).rules files = rulesOf content := by
    simp [RuleSource.rules, ofFile, RuleSource.rulesIn, read]
  simp only [rules, Recipe.Lookup.domains, mem_rulesOf_iff] at found
  rw [found]
  constructor
  · intro some
    obtain ⟨rule, ⟨e, he, said⟩, hits⟩ := some
    exact ⟨e, he, rule, said, hits⟩
  · intro some
    obtain ⟨e, he, rule, said, hits⟩ := some
    exact ⟨rule, ⟨e, he, said⟩, hits⟩

end LiveRules.Collect
