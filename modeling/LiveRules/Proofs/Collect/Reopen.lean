import LiveRules.Proofs.Collect.Mirror

/-!
# Opening a store again

What a store that has shut down leaves behind for the next one. As long as the file
is only appended to, the lines come after whatever the file held when the store was
opened. If that did not end with a line, the first new line is joined to the rest of
the last one, and only replacing the file mends it.
-/
namespace LiveRules.Collect

/-- The entries of the lines that were appended, oldest first. -/
def writtenEntries (l : List Submission) : List String :=
  (l.filter (·.fate = .written)).map (·.edit.entry)

/-- The file has only been appended to. -/
structure Appended (s : String) (r : Running) (h : History) : Prop where
  reads : r.files.Reads r.store.path (s ++ fileOf (writtenEntries h.submissions))
  only : ∀ x ∈ h.submissions, x.fate = .written → x.op ≠ .replaceAll

/-- The line that is written comes last among the written ones. -/
theorem InOrder.written {s : Store} {h : History} {op : WriteOp} (ordered : InOrder s h)
    (busy : s.writer.ops = [op]) :
    ∃ x : Submission, x.op = op ∧
      (advanceFirst .held (·.become .written) h.submissions).filter (·.fate = .written) =
        h.submissions.filter (·.fate = .written) ++ [x.become .written] := by
  obtain ⟨y, hy, held_y, -⟩ := ordered.held busy
  obtain ⟨before, x, after, split, held, changed⟩ := exists_first ⟨y, hy, held_y⟩
  have op : x.op = op := by
    have ops := ordered.held_op (x := x) (by simp [split]) held
    rw [busy] at ops
    exact (List.singleton_inj.mp ops).symm
  have order := ordered.finished_first
  rw [split, List.pairwise_append, List.pairwise_cons] at order
  -- Writes are carried out in order, so none after the held one is written.
  have none : after.filter (·.fate = .written) = [] := by
    rw [List.filter_eq_nil_iff]
    intro z hz written
    have done := order.2.1.1 z hz (by rw [held]; rfl) (by rw [of_decide_eq_true written]; rfl)
    simp [held, Fate.finished] at done
  refine ⟨x, op, ?_⟩
  rw [changed, split, List.filter_append, List.filter_append,
    List.filter_cons_of_pos (by simp [Submission.become]), List.filter_cons_of_neg (by simp [held]),
    none, List.append_nil]

theorem writtenEntries_enter (l : List Submission) {x : Submission} (fresh : x.fate ≠ .written) :
    writtenEntries (l ++ [x]) = writtenEntries l := by
  simp [writtenEntries, fresh]

theorem writtenEntries_advance {fate : Fate} {f : Submission → Submission}
    (before : fate ≠ .written) (after : ∀ x, (f x).fate ≠ .written) (l : List Submission) :
    writtenEntries (advanceFirst fate f l) = writtenEntries l := by
  rw [writtenEntries, filter_advanceFirst before after, writtenEntries]

namespace Appended
variable {start : List String} {s : String} {r r' : Running} {h h' : History}

/-- Whatever writes nothing leaves the file as it is. -/
theorem congr (appended : Appended s r h) (files : r'.files = r.files)
    (path : r'.store.path = r.store.path)
    (written : writtenEntries h'.submissions = writtenEntries h.submissions)
    (old : ∀ x ∈ h'.submissions, x.fate = .written → x ∈ h.submissions) : Appended s r' h' where
  reads := by rw [files, path, written]; exact appended.reads
  only := fun x hx done => appended.only x (old x hx done) done

theorem enter (appended : Appended s r h) {x : Submission} (fresh : x.fate ≠ .written)
    (files : r'.files = r.files) (path : r'.store.path = r.store.path) :
    Appended s r' (h.enter x) := by
  refine appended.congr files path (writtenEntries_enter _ fresh) ?_
  intro y hy written
  rcases List.mem_append.mp hy with old | last
  · exact old
  · rw [List.mem_singleton.mp last] at written
    exact absurd written fresh

theorem advance (appended : Appended s r h) {fate : Fate} {f : Submission → Submission}
    (before : fate ≠ .written) (after : ∀ x, (f x).fate ≠ .written)
    (files : r'.files = r.files) (path : r'.store.path = r.store.path)
    (submissions : h'.submissions = advanceFirst fate f h.submissions) :
    Appended s r' h' := by
  refine appended.congr files path ?_ ?_
  · rw [submissions]
    exact writtenEntries_advance before after _
  · intro x hx written
    rw [submissions] at hx
    rcases mem_advanceFirst hx with old | ⟨y, -, -, rfl⟩
    · exact old
    · exact absurd written (after y)

/-- One line more in the file. -/
theorem line (appended : Appended s r h) (ordered : InOrder r.store h) {e : String}
    {files : Files.Tree} {changes : List Files.Change}
    (holding : r.store.writer = .holding (.append e))
    (done : r.files.append r.store.path (e ++ "\n") = .ok (files, changes))
    (files' : r'.files = files) (path : r'.store.path = r.store.path)
    (submissions : h'.submissions = advanceFirst .held (·.become .written) h.submissions) :
    Appended s r' h' := by
  have busy : r.store.writer.ops = [.append e] := by rw [holding]; rfl
  obtain ⟨x, op, written⟩ := ordered.written busy
  have entry : x.edit.entry = e := by rw [Edit.eq_added op, Edit.entry]
  constructor
  · have lines : fileOf (writtenEntries h'.submissions) =
        fileOf (writtenEntries h.submissions) ++ (e ++ "\n") := by
      rw [writtenEntries, submissions, written, List.map_append, ← writtenEntries]
      simp [fileOf, String.join_append, Submission.become, entry]
    rw [files', path, lines, ← String.append_assoc]
    exact appended.reads.append done
  · intro y hy fate
    have listed : y ∈ h'.submissions.filter (·.fate = .written) :=
      List.mem_filter.mpr ⟨hy, by simpa using fate⟩
    rw [submissions, written] at listed
    rcases List.mem_append.mp listed with old | last
    · exact appended.only y (List.mem_filter.mp old).1 fate
    · rw [List.mem_singleton.mp last]
      change x.op ≠ .replaceAll
      simp [op]

end Appended

/-- The file has only been appended to, or it was replaced at some time and is a
mirror of the entries since. -/
def AppendedOrMirror (s : String) (r : Running) (h : History) : Prop :=
  Appended s r h ∨
    (∃ content, Mirror r h content) ∧ .replaceAll ∈ h.submissions.map (·.op)

theorem ops_recorded {r r' : Running} {l l' : List Submission} {op : WriteOp}
    (recorded : Recorded r r' l l') (old : op ∈ l.map (·.op)) : op ∈ l'.map (·.op) := by
  cases recorded with
  | same => exact old
  | entered => simp only [List.map_append, List.mem_append, old, true_or]
  | advanced _ _ _ edit =>
      rwa [map_advanceFirst fun x _ => congrArg Edit.op (edit x)]

theorem appendedOrMirror_step {start : List String} {s : String} {r r' : Running}
    {h h' : History} (either : AppendedOrMirror s r h) (told : Told start r h)
    (behind : ReadBehind r h) (step : Step r h r' h') (sound : Sound h'.submissions) :
    AppendedOrMirror s r' h' := by
  have kept := @ops_recorded _ _ _ _ .replaceAll (step_recorded step)
  rcases either with appended | ⟨⟨content, mirror⟩, replaced⟩
  · cases step with
    | silent | close | clear | snapshot =>
        exact .inl (appended.congr rfl rfl rfl fun _ hx _ => hx)
    | refused | queued | postponed | rejected => exact .inl (appended.enter nofun rfl rfl)
    | pop | send | retry | giveUp | take =>
        refine .inl (appended.advance ?_ ?_ rfl rfl rfl) <;> simp [Submission.become]
    | appended holding done =>
        exact .inl (appended.line told.ordered holding done rfl rfl rfl)
    | replaced replacing done =>
        refine .inr ⟨⟨_, behind.replaced (fun _ => Fate.unwritten) appended.reads replacing
          done rfl rfl rfl rfl⟩, ?_⟩
        obtain ⟨x, hx, -, op⟩ := told.ordered.held (by rw [replacing]; rfl)
        exact kept (op ▸ List.mem_map_of_mem hx)
    | failed busy => exact absurd sound (told.ordered.not_sound busy)
  · exact .inr ⟨shows_step (fun _ => Fate.unwritten) mirror told behind step (.inl sound),
      kept replaced⟩

theorem Run.appendedOrMirror {r₀ r : Running} {h : History} {s : String} (opened : r₀.Opened)
    (reads : r₀.files.Reads r₀.store.path s) (run : Run r₀ r h) (sound : Sound h.submissions) :
    AppendedOrMirror s r h := by
  induction run with
  | start => exact .inl ⟨by simpa [writtenEntries, fileOf] using reads, by simp⟩
  | @move _ _ h _ before moved ih =>
      have step := step_of_move h moved
      exact appendedOrMirror_step (ih (sound.recorded (step_recorded step)))
        (before.told opened reads) (before.readBehind opened reads) step sound

/-- Entries that were only added come after the first ones. -/
theorem replay_added {l : List Submission} (entries : List String)
    (added : ∀ x ∈ l, x.op ≠ .replaceAll) :
    replay entries l = entries ++ l.map (·.edit.entry) := by
  induction l generalizing entries with
  | nil => simp [replay]
  | cons x xs ih =>
      have hx := added x (by simp)
      cases edit : x.edit with
      | removed e => simp [Submission.op, edit, Edit.op] at hx
      | added e =>
          have rest := ih (entries ++ [e]) fun y hy => added y (by simp [hy])
          simp only [replay, List.map_cons, List.foldl_cons, edit, Edit.apply] at rest ⊢
          simpa [Edit.entry] using rest

/-- The first entry that is appended to an open line cannot be found again. -/
theorem Appended.lost {s : String} {r : Running} {h : History} (appended : Appended s r h)
    (told : Told (entriesOf s) r h) (written : ∀ x ∈ h.submissions, x.fate = .written)
    (unended : ¬ Ended s) (some : h.submissions ≠ []) :
    ∃ e ∈ r.store.entries, e ∉ entriesOf (s ++ fileOf (writtenEntries h.submissions)) := by
  have added := replay_added (entriesOf s) fun x hx => appended.only x hx (written x hx)
  have nodup := told.tidy.nodup
  rw [← told.replayed, added] at nodup ⊢
  have all : writtenEntries h.submissions = h.submissions.map (·.edit.entry) := by
    rw [writtenEntries, List.filter_eq_self.mpr fun x hx => by simpa using written x hx]
  have lines := told.lines
  obtain ⟨x, xs, hl⟩ := List.exists_cons_of_ne_nil some
  rw [all]
  rw [hl] at lines nodup ⊢
  rw [List.map_cons] at nodup ⊢
  refine ⟨x.edit.entry, by simp, ?_⟩
  have new : x.edit.entry ∉ entriesOf s ∧ x.edit.entry ∉ xs.map (·.edit.entry) := by
    rw [List.nodup_append, List.nodup_cons] at nodup
    exact ⟨fun old => nodup.2.2 _ old _ (by simp) rfl, nodup.2.1.1⟩
  have first : x.edit.entry ∉ entriesOf (s ++ (x.edit.entry ++ "\n")) :=
    not_mem_entriesOf_line unended (lines x (by simp)) new.1
  have whole : s ++ fileOf (x.edit.entry :: xs.map (·.edit.entry)) =
      s ++ (x.edit.entry ++ "\n") ++ fileOf (xs.map (·.edit.entry)) := by
    simp [fileOf, String.append_assoc]
  have rest : ∀ e ∈ xs.map (·.edit.entry), IsEntry e := by
    intro e he
    obtain ⟨y, hy, rfl⟩ := List.mem_map.mp he
    exact lines y (by simp [hy])
  rw [whole, mem_entriesOf_lines (by rw [← String.append_assoc]; exact ended_line _) rest]
  exact not_or.mpr ⟨first, new.2⟩

/-- A store that is opened on the file that a store leaves behind. -/
theorem load_reads {files : Files.Tree} {path content : String} (config : Config)
    (reads : files.Reads path content) :
    ∃ event, Store.load files config path =
      .ok ({ path, config, entries := entriesOf content }, event) := by
  cases reads with
  | file found =>
      simp [Store.load, Files.Tree.readText, Files.Tree.readContent, found,
        Store.load.withEntries]
  | none missing => exact ⟨_, by simp only [Store.load, missing]; rfl⟩

/-- A store that has shut down, all of whose writes are carried out, can be opened
again. It has the same entries then, exactly if the file ended with a line in the
first place, or there was nothing to write, or the file was replaced once. -/
theorem reopened_same_iff {r₀ r : Running} {h : History} {s : String} (opened : r₀.Opened)
    (reads : r₀.files.Reads r₀.store.path s) (run : Run r₀ r h)
    (ended : r.store.writerEnded = true)
    (fine : ∀ x ∈ h.submissions, x.fate ≠ .refused ∧ x.fate ≠ .dropped ∧ x.fate ≠ .failed) :
    ∃ reopened event,
      Store.load r.files r.store.config r.store.path = .ok (reopened, event) ∧
      ((∀ e, e ∈ reopened.entries ↔ e ∈ r.store.entries) ↔
        Ended s ∨ h.submissions = [] ∨ ∃ x ∈ h.submissions, x.op = .replaceAll) := by
  have told := run.told opened reads
  have start : r₀.store.entries = entriesOf s := by rw [opened.store reads]
  rw [start] at told
  have sound : Sound h.submissions := fun x hx => (fine x hx).2.2
  have written : ∀ x ∈ h.submissions, x.fate = .written := by
    intro x hx
    have settled := (told.ordered.ended ended).2.2.2 x hx
    have kept := fine x hx
    revert settled kept
    cases x.fate <;> simp [Fate.pending]
  rcases run.appendedOrMirror opened reads sound with appended | ⟨⟨content, mirror⟩, replaced⟩
  · obtain ⟨event, loaded⟩ := load_reads r.store.config appended.reads
    refine ⟨_, event, loaded, ?_⟩
    constructor
    · intro same
      by_contra not
      obtain ⟨unended, some, -⟩ := by simpa only [not_or] using not
      obtain ⟨e, memory, file⟩ := appended.lost told written unended some
      exact file ((same e).mpr memory)
    · rintro (full | none | ⟨x, hx, op⟩)
      · obtain ⟨content, mirror⟩ := run.mirror opened reads full sound
        rw [appended.reads.unique mirror.reads]
        exact mirror.same written
      · intro e
        rw [none, ← told.replayed, none]
        simp [writtenEntries, fileOf, replay]
      · exact absurd op (appended.only x hx (written x hx))
  · obtain ⟨event, loaded⟩ := load_reads r.store.config mirror.reads
    refine ⟨_, event, loaded, iff_of_true (mirror.same written) (.inr (.inr ?_))⟩
    obtain ⟨x, hx, op⟩ := List.mem_map.mp replaced
    exact ⟨x, hx, op⟩

theorem unended_text : ¬ Ended "a.com" := by
  intro full
  have letter : 'm' ∈ Text.lastPiece '\n' "a.com".toList := by
    simp [Text.lastPiece, Text.pieces]
  exact absurd (full _ letter) (by decide)

/-- A store on a file that does not end with a line. -/
def unended : Running where
  store := { path := "/c", config := {}, entries := ["a.com"] }
  files := { nodes := [(["c"], .file (.text "a.com"))] }

theorem unended_reads : unended.files.Reads unended.store.path "a.com" :=
  .file (found_name rfl)

theorem unended_opened : unended.Opened := by
  have entries : entriesOf "a.com" = ["a.com"] := by decide +kernel
  obtain ⟨event, loaded⟩ := load_reads {} unended_reads
  exact ⟨event, by rw [entries] at loaded; exact loaded⟩

/-- The new entry is joined to the old one, so the store that is opened again has
neither. -/
theorem reopened_joined :
    unended.Opened ∧ unended.files.Reads unended.store.path "a.com" ∧
    ∃ r h, Run unended r h ∧ r.store.writerEnded = true ∧
      (∀ x ∈ h.submissions, x.fate ≠ .refused ∧ x.fate ≠ .dropped ∧ x.fate ≠ .failed) ∧
      r.store.entries = ["a.com", "b.com"] ∧
      ∃ reopened event, Store.load r.files r.store.config r.store.path = .ok (reopened, event) ∧
        ¬ ∀ e, e ∈ reopened.entries ↔ e ∈ r.store.entries := by
  have started : (follow unended {} [.add "b.com", .take, .close]).any (fun out =>
      out.1.files = unended.files && out.1.store = { unended.store with
        entries := ["a.com", "b.com"], writer := .holding (.append "b.com"), closed := true } &&
      out.2.submissions = [⟨.added "b.com", 0, .held⟩]) = true := by
    decide +kernel
  obtain ⟨⟨r, h⟩, followed, facts⟩ := (Option.any_eq_true _ _).mp started
  simp only [Bool.and_eq_true, decide_eq_true_eq] at facts
  obtain ⟨⟨files, store⟩, submissions⟩ := facts
  have path : r.store.path = "/c" := by rw [store]; rfl
  have found : unended.files.reach true "/c" = .found ["c"] (.file (.text "a.com")) :=
    found_name rfl
  obtain ⟨r', moved, store', -, noted⟩ := @line_written r "b.com"
    (unended.files.set ["c"] (.file (.text "a.comb.com\n"))) [.modified ["c"]]
    (by rw [store]) (by simp [files, path, Files.Tree.appendWaits, found])
    (by simp [files, path, Files.Tree.append, found, Files.Content.append])
  have run := (Run.start.follow followed).move moved
  have after : (h.note r .apply r').submissions = [⟨.added "b.com", 0, .written⟩] := by
    rw [noted, History.advance, submissions]
    rfl
  have ended : r'.store.writerEnded = true := by rw [store', store]; rfl
  have fine : ∀ x ∈ (h.note r .apply r').submissions,
      x.fate ≠ .refused ∧ x.fate ≠ .dropped ∧ x.fate ≠ .failed := by
    rw [after]
    decide
  obtain ⟨reopened, event, loaded, same⟩ :=
    reopened_same_iff unended_opened unended_reads run ended fine
  refine ⟨unended_opened, unended_reads, r', _, run, ended, fine, by rw [store', store],
    reopened, event, loaded, ?_⟩
  rw [same, after]
  rintro (full | none | ⟨x, hx, op⟩)
  · exact unended_text full
  · cases none
  · rw [List.mem_singleton.mp hx] at op
    cases op

end LiveRules.Collect
