import LiveRules.Proofs.Collect.Outstanding

/-!
# The file as a mirror of the entries

The writer replaces the file by the entries as they are when it reads them, which
may be long after the write was handed in. The file is behind the entries all the
same: what makes the difference are changes whose writes are outstanding. For the
entries that the writer has read, no outstanding write has been taken yet.
-/
namespace LiveRules.Collect

/-- The entries in memory are entries of lines and differ from each other. -/
structure Tidy (entries : List String) : Prop where
  nodup : entries.Nodup
  entry : ∀ e ∈ entries, IsEntry e

theorem tidy_entriesOf (s : String) : Tidy (entriesOf s) where
  nodup := nodup_eraseDups _
  entry := fun _ he => isEntry_of_mem he

theorem Tidy.valid {entries : List String} {edit : Edit} (tidy : Tidy entries)
    (valid : edit.Valid entries) : IsEntry edit.entry := by
  cases edit with
  | added e => exact isEntry_of_storable valid.1.choose_spec
  | removed e => exact tidy.entry e valid

theorem Tidy.apply {entries : List String} {edit : Edit} (tidy : Tidy entries)
    (valid : edit.Valid entries) : Tidy (edit.apply entries) := by
  have line := tidy.valid valid
  cases edit with
  | added e =>
      constructor
      · exact List.nodup_append.mpr ⟨tidy.nodup, by simp, by
          rintro a ha b hb rfl
          exact valid.2 (List.mem_singleton.mp hb ▸ ha)⟩
      · intro e' he'
        rcases List.mem_append.mp he' with old | last
        · exact tidy.entry e' old
        · rw [List.mem_singleton.mp last]
          exact line
  | removed e =>
      exact ⟨tidy.nodup.erase e, fun e' he' => tidy.entry e' (List.mem_of_mem_erase he')⟩

theorem tidy_recorded {r r' : Running} {l l' : List Submission} (tidy : Tidy r.store.entries)
    (lines : ∀ x ∈ l, IsEntry x.edit.entry) (recorded : Recorded r r' l l') :
    Tidy r'.store.entries ∧ ∀ x ∈ l', IsEntry x.edit.entry := by
  cases recorded with
  | same entries => exact ⟨by rwa [entries], lines⟩
  | entered valid entries =>
      refine ⟨by rw [entries]; exact tidy.apply valid, ?_⟩
      intro x hx
      rcases List.mem_append.mp hx with old | last
      · exact lines x old
      · rw [List.mem_singleton.mp last]
        exact tidy.valid valid
  | advanced entries _ _ edit =>
      refine ⟨by rwa [entries], ?_⟩
      intro x hx
      rcases mem_advanceFirst hx with old | ⟨y, hy, -, rfl⟩
      · exact lines x old
      · rw [edit]
        exact lines y hy

/-- An opened store has the entries of its file and nothing to do. -/
theorem Running.Opened.store {r : Running} {s : String} (opened : r.Opened)
    (reads : r.files.Reads r.store.path s) :
    r.store = { path := r.store.path, config := r.store.config, entries := entriesOf s } := by
  obtain ⟨event, loaded⟩ := opened
  cases reads with
  | file found =>
      simp only [Store.load, Files.Tree.readText, Files.Tree.readContent, found,
        Except.ok.injEq, Store.load.withEntries, Prod.mk.injEq] at loaded
      exact loaded.1.symm
  | none missing =>
      simp only [Store.load, missing, Except.ok.injEq, Store.load.withEntries,
        Prod.mk.injEq] at loaded
      exact loaded.1.symm

/-- Not taken by the writer. -/
def Fate.Untaken (fate : Fate) : Prop := fate ≠ .held ∧ fate.finished = false

/-- The entries that the writer has read are behind those in memory. -/
def ReadBehind (r : Running) (h : History) : Prop :=
  ∀ shown, r.store.writer = .replacing shown →
    (∀ e ∈ shown, IsEntry e) ∧ Behind Fate.Untaken h.submissions r.store.entries shown

theorem readBehind_step {r r' : Running} {h h' : History} (behind : ReadBehind r h)
    (tidy : Tidy r.store.entries) (step : Step r h r' h') : ReadBehind r' h' := by
  intro shown replacing
  cases step with
  | silent | close | clear => exact behind shown replacing
  | refused | queued | postponed | rejected =>
      obtain ⟨entries, behind⟩ := behind shown replacing
      refine ⟨entries, behind.enter tidy.nodup ?_⟩
      exact ⟨nofun, rfl⟩
  | pop | send | retry | giveUp =>
      obtain ⟨entries, behind⟩ := behind shown replacing
      refine ⟨entries, behind.advance (fun _ => rfl) (fun _ old => old) ?_⟩
      exact fun _ _ _ => ⟨nofun, rfl⟩
  | take => cases replacing
  | snapshot =>
      obtain rfl : r.store.sorted = shown := by simpa using replacing
      have same : ∀ e, e ∈ r.store.sorted ↔ e ∈ r.store.entries := fun e => by
        simp [Store.sorted]
      exact ⟨fun e he => tidy.entry e ((same e).mp he), .of_same same⟩
  | appended | replaced | failed => cases replacing

/-- Not carried out. -/
def Fate.Unwritten (fate : Fate) : Prop := fate ≠ .written

/-- The writer has not come to it, or still holds it. -/
def Fate.Unfinished (fate : Fate) : Prop := fate.finished = false

theorem Fate.unwritten {fate : Fate} (unfinished : fate.Unfinished) : fate.Unwritten := by
  rintro rfl
  cases unfinished

/-- The file can be read, ends with a line, and is behind the entries in memory by
changes whose writes have a fate with `p`. -/
structure Shows (p : Fate → Prop) (r : Running) (h : History) (content : String) : Prop where
  reads : r.files.Reads r.store.path content
  ended : Ended content
  behind : Behind p h.submissions r.store.entries (entriesOf content)

/-- The file is behind by what has not been written, failed or not. -/
abbrev Mirror := Shows Fate.Unwritten

/-- What the writer holds is the write of an accepted submission. -/
theorem InOrder.held {s : Store} {h : History} {op : WriteOp} (ordered : InOrder s h)
    (busy : s.writer.ops = [op]) :
    ∃ x ∈ h.submissions, x.fate = .held ∧ x.op = op := by
  obtain ⟨finished, held, queued, sent, waiting, p⟩ := ordered
  have ops := p.writer
  rw [busy, List.map_eq_singleton_iff] at ops
  obtain ⟨x, rfl, hop⟩ := ops
  refine ⟨x, ?_, p.held_fate x (by simp), hop⟩
  have line : x ∈ h.kept := by rw [p.line]; simp
  exact (List.mem_filter.mp line).1

theorem InOrder.held_op {s : Store} {h : History} {x : Submission} (ordered : InOrder s h)
    (hx : x ∈ h.submissions) (held_fate : x.fate = .held) : s.writer.ops = [x.op] := by
  obtain ⟨finished, held, queued, sent, waiting, p⟩ := ordered
  have line : x ∈ h.kept := List.mem_filter.mpr ⟨hx, by simp [held_fate, Fate.kept]⟩
  have inside : x ∈ held := by
    simp only [p.line, List.mem_append] at line
    rcases line with other | inside | other | other | other
    · simpa [held_fate, Fate.stage] using p.finished_fate x other
    · exact inside
    · simpa [held_fate] using p.queued_fate x other
    · simpa [held_fate] using p.sent_fate x other
    · simpa [held_fate] using p.waiting_fate x other
  have op : x.op ∈ s.writer.ops := p.writer ▸ List.mem_map_of_mem inside
  revert op
  cases s.writer <;> simp +contextual [Writer.ops]

/-- Accepted writes are carried out in order. -/
theorem InOrder.finished_first {s : Store} {h : History} (ordered : InOrder s h) :
    h.submissions.Pairwise fun x y =>
      x.fate.kept = true → y.fate.finished = true → x.fate.finished = true := by
  obtain ⟨finished, held, queued, sent, waiting, p⟩ := ordered
  have allDone : ∀ x ∈ finished, x.fate.finished = true := by
    intro x hx
    have stage := p.finished_fate x hx
    revert stage
    cases x.fate <;> simp [Fate.stage, Fate.finished]
  have left : ∀ x ∈ held ++ (queued ++ (sent ++ waiting)), x.fate.finished = false := by
    intro x hx
    simp only [List.mem_append] at hx
    rcases hx with hx | hx | hx | hx
    · rw [p.held_fate x hx]; rfl
    · rw [p.queued_fate x hx]; rfl
    · rw [p.sent_fate x hx]; rfl
    · rw [p.waiting_fate x hx]; rfl
  have line : h.kept.Pairwise fun x y => y.fate.finished = true → x.fate.finished = true := by
    rw [p.line, List.pairwise_append]
    refine ⟨List.pairwise_of_forall_mem_list fun x hx _ _ _ => allDone x hx, ?_,
      fun x hx _ _ _ => allDone x hx⟩
    exact List.pairwise_of_forall_mem_list fun _ _ y hy done => by simp [left y hy] at done
  rw [History.kept, List.pairwise_filter] at line
  refine line.imp fun {x y} first keptx done => first keptx ?_ done
  revert done
  cases y.fate <;> simp [Fate.finished, Fate.kept]

/-- The history of a store tells how its entries came about. -/
structure Told (start : List String) (r : Running) (h : History) : Prop where
  tidy : Tidy r.store.entries
  lines : ∀ x ∈ h.submissions, IsEntry x.edit.entry
  ordered : InOrder r.store h
  replayed : replay start h.submissions = r.store.entries

theorem Told.step {start : List String} {r r' : Running} {h h' : History}
    (told : Told start r h) (step : Step r h r' h') : Told start r' h' := by
  have recorded := step_recorded step
  have replayed := replay_recorded told.replayed recorded
  have ordered := inOrder_step told.ordered step
  obtain ⟨tidy, lines⟩ := tidy_recorded told.tidy told.lines recorded
  exact ⟨tidy, lines, ordered, replayed⟩

theorem Run.told {r₀ r : Running} {h : History} {s : String} (opened : r₀.Opened)
    (reads : r₀.files.Reads r₀.store.path s) (run : Run r₀ r h) :
    Told r₀.store.entries r h :=
  run.induct
    ⟨by rw [opened.store reads]; exact tidy_entriesOf s, by simp, inOrder_opened opened, rfl⟩
    Told.step

section
variable {p : Fate → Prop} (unfinished : ∀ fate : Fate, fate.Unfinished → p fate)
include unfinished

/-- A line that comes late, when its entry is removed already, is followed by the
write of the removal. -/
theorem Told.removed_later {start : List String} {r : Running} {h : History} {e : String}
    (told : Told start r h) (busy : r.store.writer.ops = [.append e])
    (absent : e ∉ r.store.entries) : Outstanding p h.submissions (.removed e) := by
  obtain ⟨x, hx, held, op⟩ := told.ordered.held busy
  have added : x.edit = .added e := Edit.eq_added op
  have entry : x.edit.entry = e := by rw [added]; rfl
  obtain ⟨y, later, latest⟩ := exists_latest ⟨x, hx, entry⟩
  have removed := latest.removed (told.replayed ▸ absent)
  refine ⟨y, later, latest, removed, ?_⟩
  intro z hz _
  obtain ⟨before, split⟩ := latest.place
  have earlier : x ∈ before := by
    rw [← split] at hx
    rcases List.mem_append.mp hx with earlier | after
    · exact earlier
    rcases List.mem_cons.mp after with rfl | after
    · rw [added] at removed
      cases removed
    · exact absurd entry (latest.last x after)
  -- The line is not carried out yet, so nothing after it is.
  have order := told.ordered.finished_first
  rw [← split, List.pairwise_append] at order
  refine unfinished z.fate (Bool.eq_false_iff.mpr fun finished => ?_)
  have done := order.2.2 x earlier z hz (by rw [held]; rfl) finished
  simp [held, Fate.finished] at done

/-- One line more in the file. -/
theorem Shows.appended {start : List String} {r r' : Running} {h h' : History}
    {content e : String} {files : Files.Tree} {changes : List Files.Change}
    (shows : Shows p r h content) (told : Told start r h)
    (holding : r.store.writer = .holding (.append e))
    (done : r.files.append r.store.path (e ++ "\n") = .ok (files, changes))
    (files' : r'.files = files) (path : r'.store.path = r.store.path)
    (entries : r'.store.entries = r.store.entries)
    (submissions : h'.submissions = advanceFirst .held (·.become .written) h.submissions) :
    Shows p r' h' (content ++ (e ++ "\n")) := by
  have busy : r.store.writer.ops = [.append e] := by rw [holding]; rfl
  obtain ⟨x, hx, -, op⟩ := told.ordered.held busy
  have line : IsEntry e := by
    have entry := told.lines x hx
    rwa [Edit.eq_added op] at entry
  have more := fun e' => @mem_entriesOf_line content e e' shows.ended line
  have other : ∀ {edit : Edit}, edit.op ≠ .append e →
      Outstanding p h.submissions edit →
      Outstanding p h'.submissions edit := by
    intro edit different outstanding
    rw [submissions]
    refine outstanding.advance (fun _ => rfl) (fun _ old => old) ?_
    intro y hy held same _
    have this_one := told.ordered.held_op hy held
    rw [busy, same] at this_one
    exact absurd (List.singleton_inj.mp this_one).symm different
  refine ⟨by rw [files', path]; exact shows.reads.append done, ?_, ⟨?_, ?_⟩⟩
  · rw [← String.append_assoc]
    exact ended_line _
  · intro e' he' absent
    rw [entries] at he'
    have both : e' ∉ entriesOf content ∧ e' ≠ e := by simpa [more] using absent
    exact other (by simpa [Edit.op] using both.2) (shows.behind.lacking e' he' both.1)
  · intro e' he' absent
    rw [entries] at absent
    refine other (by simp [Edit.op]) ?_
    rcases (more e').mp he' with old | rfl
    · exact shows.behind.surplus e' old absent
    · exact told.removed_later unfinished busy absent

/-- The file is replaced by the entries that the writer has read. -/
theorem ReadBehind.replaced {r r' : Running} {h h' : History} {content : String}
    {shown : List String} {files : Files.Tree} {changes : List Files.Change}
    (behind : ReadBehind r h) (reads : r.files.Reads r.store.path content)
    (replacing : r.store.writer = .replacing shown)
    (done : r.files.replace r.store.path (fileOf shown) = .ok (files, changes))
    (files' : r'.files = files) (path : r'.store.path = r.store.path)
    (entries : r'.store.entries = r.store.entries)
    (submissions : h'.submissions = advanceFirst .held (·.become .written) h.submissions) :
    Shows p r' h' (fileOf shown) := by
  obtain ⟨lines, behind⟩ := behind shown replacing
  have same := mem_entriesOf_fileOf lines
  have after : Behind p h'.submissions r'.store.entries shown := by
    rw [submissions, entries]
    exact behind.advance (fun _ => rfl) (fun φ old => unfinished φ old.2) fun _ _ old => absurd rfl old.1
  exact ⟨by rw [files', path]; exact reads.replace done, ended_fileOf shown,
    fun e he absent => after.lacking e he (by rwa [same] at absent),
    fun e he absent => after.surplus e ((same e).mp he) absent⟩

end

/-- No write has failed. -/
def Sound (l : List Submission) : Prop := ∀ x ∈ l, x.fate ≠ .failed

theorem Sound.recorded {r r' : Running} {l l' : List Submission} (sound : Sound l')
    (recorded : Recorded r r' l l') : Sound l := by
  cases recorded with
  | same => exact sound
  | entered => exact fun x hx => sound x (List.mem_append_left _ hx)
  | advanced _ _ pending =>
      intro x hx failed
      refine sound x (mem_advanceFirst_of_ne _ hx ?_) failed
      rw [failed]
      rintro rfl
      cases pending

/-- A failed write leaves a trace. -/
theorem InOrder.not_sound {s : Store} {h : History} (ordered : InOrder s h)
    (busy : s.writer ≠ .idle) :
    ¬ Sound (advanceFirst .held (·.become .failed) h.submissions) := by
  obtain ⟨op, holds⟩ : ∃ op, s.writer.ops = [op] := by
    cases hw : s.writer with
    | idle => exact absurd hw busy
    | holding op => exact ⟨op, rfl⟩
    | replacing => exact ⟨.replaceAll, rfl⟩
  obtain ⟨x, hx, held, -⟩ := ordered.held holds
  obtain ⟨before, y, after, -, -, changed⟩ := exists_first ⟨x, hx, held⟩
  intro sound
  rw [changed] at sound
  exact sound (y.become .failed) (by simp) rfl

/-- No write fails where a file can be written. -/
theorem Running.write?_ne_error {r : Running} (writable : r.files.Writable r.store.path)
    (op : WriteOp) (cause : Files.ReadError) : r.write? ≠ some (op, .error cause) := by
  unfold Running.write?
  split
  · rename_i entry _
    obtain ⟨out, done⟩ := writable.append (entry ++ "\n")
    split
    · nofun
    · simp [done]
  · rename_i shown _
    obtain ⟨out, done⟩ := writable.replace (fileOf shown)
    simp [done]
  · nofun

theorem shows_step {p : Fate → Prop} {start : List String} {r r' : Running} {h h' : History}
    {content : String} (unfinished : ∀ fate : Fate, fate.Unfinished → p fate)
    (shows : Shows p r h content) (told : Told start r h) (behind : ReadBehind r h)
    (step : Step r h r' h') (fine : Sound h'.submissions ∨ r.files.Writable r.store.path) :
    ∃ content', Shows p r' h' content' := by
  cases step with
  | silent | close | clear | snapshot =>
      exact ⟨content, shows.reads, shows.ended, shows.behind⟩
  | refused | queued | postponed | rejected =>
      exact ⟨content, shows.reads, shows.ended,
        shows.behind.enter told.tidy.nodup (unfinished _ rfl)⟩
  | pop | send | retry | giveUp | take =>
      exact ⟨content, shows.reads, shows.ended,
        shows.behind.advance (fun _ => rfl) (fun _ old => old) fun _ _ _ => unfinished _ rfl⟩
  | appended holding done =>
      exact ⟨_, shows.appended unfinished told holding done rfl rfl rfl rfl⟩
  | replaced replacing done =>
      exact ⟨_, behind.replaced unfinished shows.reads replacing done rfl rfl rfl rfl⟩
  | failed busy _ broken =>
      rcases fine with sound | writable
      · exact absurd sound (told.ordered.not_sound busy)
      · exact absurd broken (Running.write?_ne_error writable _ _)

theorem Run.readBehind {r₀ r : Running} {h : History} {s : String} (opened : r₀.Opened)
    (reads : r₀.files.Reads r₀.store.path s) (run : Run r₀ r h) : ReadBehind r h := by
  have both := run.induct (P := fun r h => ReadBehind r h ∧ Told r₀.store.entries r h)
    ⟨by intro shown; rw [opened.store reads]; exact nofun,
      Run.start.told opened reads⟩
    fun ih step => ⟨readBehind_step ih.1 ih.2.tidy step, ih.2.step step⟩
  exact both.1

theorem Run.mirror {r₀ r : Running} {h : History} {s : String} (opened : r₀.Opened)
    (reads : r₀.files.Reads r₀.store.path s) (ended : Ended s) (run : Run r₀ r h)
    (sound : Sound h.submissions) : ∃ content, Mirror r h content := by
  induction run with
  | start =>
      refine ⟨s, reads, ended, .of_same fun e => ?_⟩
      rw [opened.store reads]
  | @move _ _ h _ before moved ih =>
      have step := step_of_move h moved
      obtain ⟨content, mirror⟩ := ih (sound.recorded (step_recorded step))
      exact shows_step (fun _ => Fate.unwritten) mirror (before.told opened reads)
        (before.readBehind opened reads) step (.inl sound)

/-- A file that is behind by nothing holds the entries in memory. -/
theorem Shows.same {p : Fate → Prop} {r : Running} {h : History} {content : String}
    (shows : Shows p r h content) (settled : ∀ x ∈ h.submissions, ¬ p x.fate) (e : String) :
    e ∈ entriesOf content ↔ e ∈ r.store.entries := by
  have none : ∀ edit, ¬ Outstanding p h.submissions edit := by
    rintro edit ⟨x, later, latest, hx, all⟩
    have listed : x ∈ h.submissions := latest.place.subset (by simp)
    exact settled x listed (all x (by simp) (congrArg Edit.op hx))
  constructor
  · intro file
    by_contra memory
    exact none _ (shows.behind.surplus e file memory)
  · intro memory
    by_contra file
    exact none _ (shows.behind.lacking e memory file)

theorem Mirror.same {r : Running} {h : History} {content : String} (mirror : Mirror r h content)
    (written : ∀ x ∈ h.submissions, x.fate = .written) (e : String) :
    e ∈ entriesOf content ↔ e ∈ r.store.entries :=
  Shows.same mirror (fun x hx unwritten => unwritten (written x hx)) e

/-- On its way, dropped or refused. -/
def Fate.outstanding : Fate → Bool
  | .written | .failed => false
  | _ => true

/-- What the file of a store lacks and what it has too much, after any run of the
store in which no write fails. An entry that the file lacks was added last, and
that line is outstanding. One that it has too much was removed last, and the write
of that removal and all later ones that replace the file are outstanding. -/
theorem differences_outstanding {r₀ r : Running} {h : History} {s : String}
    (opened : r₀.Opened) (reads : r₀.files.Reads r₀.store.path s)
    (terminated : s = "" ∨ ∃ t, s = t ++ "\n") (run : Run r₀ r h)
    (sound : ∀ x ∈ h.submissions, x.fate ≠ .failed) :
    ∃ content, r.files.Reads r.store.path content ∧
      (∀ e ∈ r.store.entries, e ∉ entriesOf content → ∃ x later,
        Latest h.submissions e x later ∧ x.edit = .added e ∧ x.fate.outstanding = true) ∧
      (∀ e ∈ entriesOf content, e ∉ r.store.entries → ∃ x later,
        Latest h.submissions e x later ∧ x.edit = .removed e ∧
        ∀ y ∈ x :: later, y.op = .replaceAll → y.fate.outstanding = true) ∧
      ((∀ x ∈ h.submissions, x.fate.outstanding = false) →
        ∀ e, e ∈ entriesOf content ↔ e ∈ r.store.entries) := by
  obtain ⟨content, mirror⟩ := run.mirror opened reads (ended_of_terminated terminated) sound
  have outstanding : ∀ x ∈ h.submissions, x.fate.Unwritten → x.fate.outstanding = true := by
    intro x hx unwritten
    have fine := sound x hx
    revert fine unwritten
    cases x.fate <;> simp [Fate.Unwritten, Fate.outstanding]
  have lacking : ∀ e ∈ r.store.entries, e ∉ entriesOf content → ∃ x later,
      Latest h.submissions e x later ∧ x.edit = .added e ∧ x.fate.outstanding = true := by
    intro e he absent
    obtain ⟨x, later, latest, added, all⟩ := mirror.behind.lacking e he absent
    refine ⟨x, later, latest, added, outstanding x (latest.place.subset (by simp)) ?_⟩
    exact all x (by simp) (congrArg Edit.op added)
  have surplus : ∀ e ∈ entriesOf content, e ∉ r.store.entries → ∃ x later,
      Latest h.submissions e x later ∧ x.edit = .removed e ∧
        ∀ y ∈ x :: later, y.op = .replaceAll → y.fate.outstanding = true := by
    intro e he absent
    obtain ⟨x, later, latest, removed, all⟩ := mirror.behind.surplus e he absent
    exact ⟨x, later, latest, removed, fun y hy op =>
      outstanding y (latest.place.subset hy) (all y hy op)⟩
  refine ⟨content, mirror.reads, lacking, surplus, fun settled => mirror.same ?_⟩
  intro x hx
  by_contra unwritten
  have still := outstanding x hx unwritten
  rw [settled x hx] at still
  cases still

/-- The second entry is dropped. The first one is in the file, but removed from
memory by then. -/
theorem differences_outstanding_crowded :
    crowded.Opened ∧ crowded.files.Reads crowded.store.path "" ∧
    ∃ r h, Run crowded r h ∧ (∀ x ∈ h.submissions, x.fate ≠ .failed) ∧
      r.store.entries = ["b"] ∧ r.files.Reads r.store.path "a\n" ∧
      (∃ x later, Latest h.submissions "b" x later ∧ x.edit = .added "b" ∧
        x.fate.outstanding = true) ∧
      ∃ x later, Latest h.submissions "a" x later ∧ x.edit = .removed "a" ∧
        ∀ y ∈ x :: later, y.op = .replaceAll → y.fate.outstanding = true := by
  have started : (follow crowded {} [.add "a", .take, .delete "a", .add "b"]).any
      (fun out => out.1.files = {} && out.1.store = { crowded.store with
        entries := ["b"], queue := [.replaceAll], writer := .holding (.append "a") } &&
      out.2.submissions = [⟨.added "a", 0, .held⟩, ⟨.removed "a", 0, .queued⟩,
        ⟨.added "b", 1, .dropped⟩]) = true := by
    decide +kernel
  obtain ⟨⟨r, h⟩, followed, facts⟩ := (Option.any_eq_true _ _).mp started
  simp only [Bool.and_eq_true, decide_eq_true_eq] at facts
  obtain ⟨⟨files, store⟩, submissions⟩ := facts
  obtain ⟨r', moved, store', files', noted⟩ :=
    first_line_written files (by rw [store]; rfl) (by rw [store])
  have run := (Run.start.follow followed).move moved
  have sound : ∀ x ∈ (h.note r .apply r').submissions, x.fate ≠ .failed := by
    have after : (h.note r .apply r').submissions =
        [⟨.added "a", 0, .written⟩, ⟨.removed "a", 0, .queued⟩, ⟨.added "b", 1, .dropped⟩] := by
      rw [noted, History.advance, submissions]
      rfl
    rw [after]
    decide
  obtain ⟨content, reads', lacking, surplus, -⟩ :=
    differences_outstanding crowded_opened crowded_reads (.inl rfl) run sound
  have entries : r'.store.entries = ["b"] := by rw [store', store]
  have line : content = "a\n" := by
    rw [files', store', store] at reads'
    exact reads'.unique (.file (found_name rfl))
  have shown (e : String) : e ∈ entriesOf "a\n" ↔ e = "a" := by
    have entry : IsEntry "a" := @isEntry_of_storable "a" "a" (by decide +kernel)
    have one := @mem_entriesOf_line "" "a" e ended_empty entry
    simpa [show entriesOf "" = [] from rfl] using one
  subst line
  refine ⟨crowded_opened, crowded_reads, r', _, run, sound, entries, reads', ?_, ?_⟩
  · exact lacking "b" (by simp [entries]) (by simp [shown])
  · exact surplus "a" (by simp [shown]) (by simp [entries])

end LiveRules.Collect
