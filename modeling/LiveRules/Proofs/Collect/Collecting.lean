import LiveRules.Pattern.Parser
import LiveRules.Proofs.Collect.Executing

/-!
# Collected names in a watching set

A domain set that reads the file of a store finds the names that are collected into it.
What it finds, when it can no longer be compiled, and what deleting a name leaves.
-/
namespace LiveRules.Collect

theorem EntryFormat.Covers.ne_empty {f : EntryFormat} {name key : String} (named : name ≠ "")
    (covers : f.Covers name key) : key ≠ "" := by
  have chars : name.toList ≠ [] := mt String.toList_eq_nil_iff.mp named
  rintro rfl
  cases f with
  | full => exact named covers.symm
  | domain =>
      rcases covers with same | below
      · exact named same.symm
      · cases List.suffix_nil.mp below
  | keyword => exact chars (List.infix_nil.mp covers)

theorem PlainName.lower_ne_empty {name : String} (plain : PlainName name) :
    Text.lower (stem name) ≠ "" := by
  rw [Ne, ← String.toList_inj, Text.toList_lower, String.toList_empty, List.map_eq_nil_iff]
  exact mt String.toList_eq_nil_iff.mp plain.named

theorem PlainName.entryHits [PatternLanguage] {name : String} (plain : PlainName name)
    (f : EntryFormat) (key : String) : EntryHits (f.entry (stem name).toList) key ↔
      f.Covers (Text.lower (stem name)) (normalize key) := by
  simp only [EntryHits, plain.record_entry, Option.some.injEq, exists_eq_left']
  constructor
  · exact fun ⟨named, hits⟩ => (plain.hits_entry f .domain named).mp hits
  · intro covers
    have named := covers.ne_empty plain.lower_ne_empty
    exact ⟨named, (plain.hits_entry f .domain named).mpr covers⟩

/-- All entries of a file were collected from plain names, in full. -/
def PlainEntries (content : String) : Prop :=
  ∀ e ∈ entriesOf content, ∃ name, PlainName name ∧ EntryFormat.full.entry (stem name).toList = e

theorem PlainEntries.compiles [PatternLanguage] {files : Files.Tree} {path content : String}
    (plain : PlainEntries content) (read : files.readText path = .ok content) :
    (Dialect.compileDomains (ofFile path) files).isOk = true := by
  refine (compile_ofFile_iff read).mpr fun e he rule said => ?_
  obtain ⟨name, plain, rfl⟩ := plain e he
  rw [plain.record_entry, Option.some_inj] at said
  rw [← said]
  exact plain.accepts_entry .full

/-- The set finds the spellings that the file holds, in upper and lower case. -/
theorem PlainEntries.find [PatternLanguage] {files : Files.Tree} {path content : String}
    {m : DomainMatcher Unit}
    (plain : PlainEntries content) (read : files.readText path = .ok content)
    (compiled : Dialect.compileDomains (ofFile path) files = .ok m) (key : String) :
    (m.find? key).isSome = true ↔ ∃ other : String,
      EntryFormat.full.entry other.toList ∈ entriesOf content ∧
      normalize key = Text.lower other := by
  rw [find_ofFile read compiled]
  constructor
  · intro ⟨e, he, hits⟩
    obtain ⟨name, plain, rfl⟩ := plain e he
    exact ⟨stem name, he, (plain.entryHits .full key).mp hits⟩
  · intro ⟨other, he, same⟩
    obtain ⟨name, plain, kept⟩ := plain _ he
    rw [EntryFormat.entry_inj, String.toList_inj] at kept
    subst kept
    exact ⟨_, he, (plain.entryHits .full key).mpr same⟩

section
variable {r₀ r : Running} {h : History} {s : String} {a : Action} {name : String}
  {names : List (Action × String)}

/-- Of one name that is collected the file holds the entry or not, as the action says. All
other entries stay. -/
theorem Collected.one (collected : Collected r₀ [(a, name)] r h)
    (file : r₀.files.Holds r₀.store.path s) (terminated : s = "" ∨ ∃ t, s = t ++ "\n") :
    ∃ content, r.files.readText r₀.store.path = .ok content ∧
      ∀ e, e ∈ entriesOf content ↔
        if stored? a.format name = some e then a.operation = .add else e ∈ entriesOf s := by
  obtain ⟨content, read, same⟩ := collected.content file (ended_of_terminated terminated)
  exact ⟨content, read, fun e =>
    (same e).trans (Action.mem_collect (tidy_entriesOf s).nodup a name e)⟩

/-- The store makes of a missing file, if it makes any, one with the entries that were added
last. -/
theorem Collected.from_missing (collected : Collected r₀ names r h)
    (missing : r₀.files.readText r₀.store.path = .error .notFound) {content : String}
    (read : r.files.readText r₀.store.path = .ok content) (e : String) :
    e ∈ entriesOf content ↔ lastOn names e = some .add := by
  rcases collected.shown (.none missing) ended_empty with ⟨-, untouched⟩ | ⟨_, reads, same⟩
  · rw [untouched, missing] at read
    cases read
  · rw [← reads.eq_of_readText read, same, mem_collectAll (tidy_entriesOf "").nodup]
    cases lastOn names e with
    | none => exact iff_of_false List.not_mem_nil nofun
    | some op => exact Option.some_inj.symm

/-- As long as names are only deleted, a store on a missing file hands in no write. -/
theorem Collected.submissions_eq_nil (collected : Collected r₀ names r h)
    (missing : r₀.files.readText r₀.store.path = .error .notFound)
    (stored : ∀ c ∈ names, ∃ e, stored? c.1.format c.2 = some e) :
    h.submissions = [] ↔ ∀ c ∈ names, c.1.operation ≠ .add := by
  have start : r₀.store.entries = [] := by
    rw [collected.opened.store (.none missing)]
    rfl
  rw [← editsOf_empty stored, ← start, ← collected.edits, List.map_eq_nil_iff]

/-- The first name that is added makes the file, where it can be written. -/
theorem Collected.readable (collected : Collected r₀ names r h)
    (missing : r₀.files.readText r₀.store.path = .error .notFound)
    (stored : ∀ c ∈ names, ∃ e, stored? c.1.format c.2 = some e)
    (writable : r₀.files.Writable r₀.store.path) (adds : ∃ c ∈ names, c.1.operation = .add) :
    ∃ content, r.files.readText r₀.store.path = .ok content := by
  have sound := collected.run.sound collected.opened (.none missing) writable
  rcases collected.run.untouchedOrMade collected.opened (.none missing) with
    ⟨none, -⟩ | ⟨-, content, holds⟩
  · rw [collected.writtenEntries_eq_nil sound, collected.submissions_eq_nil missing stored] at none
    obtain ⟨c, hc, add⟩ := adds
    exact absurd add (none c hc)
  · rw [collected.path] at holds
    exact ⟨content, holds.readText⟩

/-- No file is made unless a name is added. -/
theorem Collected.adds_of_readable (collected : Collected r₀ names r h)
    (missing : r₀.files.readText r₀.store.path = .error .notFound)
    (stored : ∀ c ∈ names, ∃ e, stored? c.1.format c.2 = some e) {content : String}
    (read : r.files.readText r₀.store.path = .ok content) :
    ∃ c ∈ names, c.1.operation = .add := by
  by_contra none
  have silent : h.submissions = [] := (collected.submissions_eq_nil missing stored).mpr
    fun c hc add => none ⟨c, hc, add⟩
  rcases collected.run.untouchedOrMade collected.opened (.none missing) with
    ⟨-, untouched⟩ | ⟨some, -⟩
  · rw [untouched, missing] at read
    cases read
  · rw [silent] at some
    exact some rfl

end

section
variable [PatternLanguage] {d between after : Desk} {id : Nat} {store : Store} {s : String}
  {a : Action} {name : String} {names : List (Action × String)}

/-- The exact effect of collecting a name. The file of the store, whatever it held, still
compiles after the shutdown, and the set finds what it found before and the names that the
new entry covers. -/
theorem collecting_adds {old : DomainMatcher Unit}
    (there : d.registry.stores[id]? = some store) (opened : (d.running store).Opened)
    (file : d.files.Holds store.path s) (terminated : s = "" ∨ ∃ t, s = t ++ "\n")
    (compiled : Dialect.compileDomains (ofFile store.path) d.files = .ok old)
    (adds : a.operation = .add) (plain : PlainName name)
    (executes : Desk.Executes id d [(a, name)] between) (shuts : Desk.Shuts id between after)
    (undropped : dropReports after.events = dropReports d.events) :
    ∃ new, Dialect.compileDomains (ofFile store.path) after.files = .ok new ∧
      ∀ key, (new.find? key).isSome = true ↔ (old.find? key).isSome = true ∨
        a.format.Covers (Text.lower (stem name)) (normalize key) := by
  obtain ⟨r, h, collected, files⟩ :=
    executes.collected shuts there opened file.reads undropped
  obtain ⟨content, read, decided⟩ := collected.one file terminated
  rw [files]
  let entry := a.format.entry (stem name).toList
  have members : ∀ e, e ∈ entriesOf content ↔ e = entry ∨ e ∈ entriesOf s := by
    intro e
    simp only [decided, plain.stored, Option.some_inj]
    split
    · rename_i same
      exact iff_of_true adds (.inl same.symm)
    · rename_i other
      exact (or_iff_right (Ne.symm other)).symm
  have accepted := (compile_ofFile_iff file.readText).mp (by rw [compiled]; rfl)
  have fine : (Dialect.compileDomains (ofFile store.path) r.files).isOk = true := by
    refine (compile_ofFile_iff read).mpr fun e he rule said => ?_
    rcases (members e).mp he with rfl | held
    · rw [plain.record_entry, Option.some_inj] at said
      rw [← said]
      exact plain.accepts_entry a.format
    · exact accepted e held rule said
  obtain ⟨new, compiles⟩ := exists_ok_of_isOk fine
  refine ⟨new, compiles, fun key => ?_⟩
  rw [find_ofFile read compiles, find_ofFile file.readText compiled, ← plain.entryHits]
  simp only [members, or_and_right, exists_or, exists_eq_left, or_comm]
  rfl

/-- Collecting a name breaks the sets that read the file exactly if the name is added, the
store takes it, and its entry says nothing before a comment. -/
theorem collecting_compiles_iff
    (there : d.registry.stores[id]? = some store) (opened : (d.running store).Opened)
    (file : d.files.Holds store.path s) (terminated : s = "" ∨ ∃ t, s = t ++ "\n")
    (compiled : (Dialect.compileDomains (ofFile store.path) d.files).isOk = true)
    (executes : Desk.Executes id d [(a, name)] between) (shuts : Desk.Shuts id between after)
    (undropped : dropReports after.events = dropReports d.events) :
    (Dialect.compileDomains (ofFile store.path) after.files).isOk = true ↔
      ¬ (a.operation = .add ∧ Patternless name) := by
  obtain ⟨r, h, collected, files⟩ :=
    executes.collected shuts there opened file.reads undropped
  obtain ⟨content, read, decided⟩ := collected.one file terminated
  have accepted := (compile_ofFile_iff file.readText).mp compiled
  rw [files]
  refine (compile_ofFile_iff read).trans ?_
  constructor
  · intro all ⟨adds, patternless⟩
    obtain ⟨e, stored⟩ := stored?_patternless patternless a.format
    obtain ⟨rule, said, accepts⟩ := record_stored stored
    have held : e ∈ entriesOf content := (decided e).mpr (by rw [if_pos stored]; exact adds)
    exact accepts.mp (all e held rule said) patternless
  · intro harmless e he rule said
    have held := (decided e).mp he
    split at held
    · rename_i stored
      obtain ⟨rule', said', accepts⟩ := record_stored stored
      obtain rfl : rule' = rule := Option.some_inj.mp (said'.symm.trans said)
      exact accepts.mpr fun patternless => harmless ⟨held, patternless⟩
    · exact accepted e held rule said

/-- A plain name that has been deleted last is still found if, and only if, it is held in
another spelling: the store tells spellings apart that the set does not. -/
theorem deleting_keeps_other_spellings
    (there : d.registry.stores[id]? = some store) (opened : (d.running store).Opened)
    (missing : d.files.readText store.path = .error .notFound)
    (plain : ∀ c ∈ names ++ [(a, name)], c.1.format = .full ∧ PlainName c.2)
    (deletes : a.operation = .delete)
    (executes : Desk.Executes id d (names ++ [(a, name)]) between)
    (shuts : Desk.Shuts id between after)
    (undropped : dropReports after.events = dropReports d.events) :
    (∀ m, Dialect.compileDomains (ofFile store.path) after.files = .ok m →
      ((m.find? name).isSome = true ↔ ∃ other, other ≠ stem name ∧
        Text.lower other = Text.lower (stem name) ∧
        lastOn names (EntryFormat.full.entry other.toList) = some .add)) ∧
    ((Dialect.compileDomains (ofFile store.path) after.files).isOk = true →
      ∃ c ∈ names, c.1.operation = .add) ∧
    (d.files.Writable store.path → (∃ c ∈ names, c.1.operation = .add) →
      (Dialect.compileDomains (ofFile store.path) after.files).isOk = true) := by
  obtain ⟨r, h, collected, files⟩ :=
    executes.collected shuts there opened (.none missing) undropped
  rw [files]
  have stored : ∀ c ∈ names ++ [(a, name)],
      stored? c.1.format c.2 = some (EntryFormat.full.entry (stem c.2).toList) := by
    intro c hc
    rw [(plain c hc).1, (plain c hc).2.stored]
  have taken : ∀ c ∈ names ++ [(a, name)], ∃ e, stored? c.1.format c.2 = some e :=
    fun c hc => ⟨_, stored c hc⟩
  have spelled : ∀ content, r.files.readText store.path = .ok content →
      PlainEntries content := by
    intro content read e he
    obtain ⟨c, hc, kept, -⟩ := exists_of_lastOn ((collected.from_missing missing read e).mp he)
    rw [stored c hc, Option.some_inj] at kept
    exact ⟨c.2, (plain c hc).2, kept⟩
  refine ⟨fun m compiled => ?_, fun compiled => ?_, fun writable ⟨c, hc, adds⟩ => ?_⟩
  · obtain ⟨content, read, -⟩ := compile_ofFile.mp (by rw [compiled]; rfl)
    rw [(spelled content read).find read compiled, (plain (a, name) (by simp)).2.normalize_name]
    refine exists_congr fun other => ?_
    -- The last action decides about its own spelling and about no other.
    have decided : EntryFormat.full.entry other.toList ∈ entriesOf content ↔
        other ≠ stem name ∧ lastOn names (EntryFormat.full.entry other.toList) = some .add := by
      rw [collected.from_missing missing read, lastOn_concat, stored (a, name) (by simp)]
      simp only [Option.some_inj, EntryFormat.entry_inj, String.toList_inj, deletes]
      split
      · rename_i same
        exact iff_of_false nofun fun both => both.1 same.symm
      · rename_i different
        exact (and_iff_right (Ne.symm different)).symm
    rw [decided]
    constructor
    · exact fun ⟨⟨different, last⟩, same⟩ => ⟨different, same.symm, last⟩
    · exact fun ⟨different, same, last⟩ => ⟨⟨different, last⟩, same.symm⟩
  · obtain ⟨content, read, -⟩ := compile_ofFile.mp compiled
    obtain ⟨c, hc, adds⟩ := collected.adds_of_readable missing taken read
    rcases List.mem_append.mp hc with before | last
    · exact ⟨c, before, adds⟩
    · rw [List.mem_singleton.mp last, deletes] at adds
      cases adds
  · obtain ⟨content, read⟩ := collected.readable missing taken writable
      ⟨c, List.mem_append_left _ hc, adds⟩
    exact (spelled content read).compiles read

end

/-! ## Names on their way into a set -/

/-- A desk with a running store and a handle of it. -/
def Running.desk (r : Running) : Desk where
  registry := { stores := [r.store], handles := [{ store := 0 }] }
  files := r.files

/-- A store opened on a file that reads `s`. -/
def onFile (s : String) : Running where
  store := { path := "/c", config := {}, entries := entriesOf s }
  files := { nodes := [(["c"], .file (.text s))] }

theorem onFile_holds (s : String) : (onFile s).files.Holds (onFile s).store.path s :=
  ⟨["c"], found_name rfl⟩

theorem onFile_opened (s : String) : (onFile s).Opened :=
  load_reads {} (onFile_holds s).reads

theorem Running.Opened.desk {r : Running} (opened : r.Opened) :
    r.desk.registry.stores[0]? = some r.store ∧ (r.desk.running r.store).Opened := ⟨rfl, opened⟩

/-- An action of a format and an operation. -/
def collector (f : EntryFormat) (operation : Operation) : Action := ⟨"c", 0, f, operation⟩

theorem Running.moves_append (r : Running) (ms ms' : List Move) :
    r.moves (ms ++ ms') = (r.moves ms).bind (moves · ms') := by
  induction ms generalizing r with
  | nil => rfl
  | cons m ms ih =>
      rw [List.cons_append, moves, moves, Option.bind_assoc]
      exact congrArg _ (funext fun after => ih after)

/-- A store whose writer has one line left to append shuts down when it has done so. -/
theorem shuts_line {d : Desk} {id : Nat} {s : Store} {r : Running} {ms : List Move} {e : String}
    {files : Files.Tree} {changes : List Files.Change} (there : d.registry.stores[id]? = some s)
    (background : ∀ m ∈ ms, m.isCall = false)
    (moved : (d.running s).moves (.close :: ms) = some r)
    (holding : r.store.writer = .holding (.append e))
    (last : ({ r.store with writer := .idle } : Store).writerEnded = true)
    (ready : r.files.appendWaits r.store.path = false)
    (done : r.files.append r.store.path (e ++ "\n") = .ok (files, changes)) :
    ∃ after, Desk.Shuts id d after ∧ after.files = files ∧
      dropReports after.events = dropReports r.events := by
  have write : r.write? = some (.append e, .ok (files, changes)) := by
    simp [Running.write?, holding, ready, done]
  obtain ⟨r', applied, store, files', events⟩ : ∃ r', r.move .apply = some r' ∧
      r'.store = { r.store with writer := .idle } ∧ r'.files = files ∧
      dropReports r'.events = dropReports r.events := by
    simp [Running.move, Running.apply, write, Running.tell, dropReports,
      Running.inBackground, reportsDrop_inBackground, reportsDrop_tell, List.isPrefixOf]
  have all : (d.running s).moves (.close :: (ms ++ [.apply])) = some r' := by
    rw [← List.cons_append, Running.moves_append, moved]
    simp [Running.moves, applied]
  refine ⟨_, .slowly there ?_ all (by rw [store, last]), files', ?_⟩
  · exact List.forall_mem_append.mpr ⟨background, List.forall_mem_singleton.mpr rfl⟩
  · rw [← events]
    simp [Desk.put, Running.tell, dropReports, reportsDrop_tell, List.isPrefixOf]


/-- A store on a file of one rule, whose next line is on its way to the writer. -/
theorem one_more {d : Desk} {e : String}
    (started : (d.registry.stores[0]?.any fun s =>
      ((d.running s).moves [.close, .take]).any fun r =>
        r.files = (onFile "full:old.test\n").files && r.events.isEmpty &&
        r.store = { (onFile "full:old.test\n").store with
          entries := ["full:old.test", e], writer := .holding (.append e), closed := true }) = true) :
    ∃ after, Desk.Shuts 0 d after ∧ dropReports after.events = [] := by
  obtain ⟨s, there, started⟩ := (Option.any_eq_true _ _).mp started
  obtain ⟨r, moved, facts⟩ := (Option.any_eq_true _ _).mp started
  simp only [Bool.and_eq_true, decide_eq_true_eq, List.isEmpty_iff] at facts
  obtain ⟨⟨files, silent⟩, store⟩ := facts
  have found : (onFile "full:old.test\n").files.reach true "/c" =
      .found ["c"] (.file (.text "full:old.test\n")) := found_name rfl
  have path : r.store.path = "/c" := by rw [store]; rfl
  obtain ⟨after, shuts, -, told⟩ := @shuts_line d 0 s r [.take] e
    ((onFile "full:old.test\n").files.set ["c"] (.file (.text ("full:old.test\n" ++ (e ++ "\n")))))
    [.modified ["c"]] there (by decide) moved (by rw [store]) (by rw [store]; rfl)
    (by simp [files, path, Files.Tree.appendWaits, found])
    (by simp [files, path, Files.Tree.append, found, Files.Content.append])
  exact ⟨after, shuts, by rw [told, silent]; rfl⟩

theorem old_plain : PlainEntries "full:old.test\n" := by
  have entries : entriesOf "full:old.test\n" = ["full:old.test"] := by decide +kernel
  intro e he
  rw [entries, List.mem_singleton] at he
  exact ⟨"old.test", by decide +kernel, by rw [he]; decide +kernel⟩

theorem old_compiles [PatternLanguage] :
    (Dialect.compileDomains (ofFile "/c") (onFile "full:old.test\n").files).isOk = true :=
  old_plain.compiles (onFile_holds "full:old.test\n").readText

open scoped Pattern

/-- A name below the collected one is found from then on, in whatever letters. -/
theorem collecting_adds_below :
    let d := (onFile "full:old.test\n").desk
    ∃ after old new,
      Desk.Shuts 0 ((collector .domain .add).exec d "New.test.").2 after ∧
      Dialect.compileDomains (ofFile "/c") d.files = .ok old ∧
      Dialect.compileDomains (ofFile "/c") after.files = .ok new ∧
      ¬ (old.find? "WWW.new.test").isSome = true ∧ (new.find? "WWW.new.test").isSome = true := by
  intro d
  obtain ⟨after, shuts, undropped⟩ :=
    @one_more ((collector .domain .add).exec d "New.test.").2 "domain:New.test" (by decide +kernel)
  obtain ⟨old, compiled⟩ := exists_ok_of_isOk old_compiles
  have plain : PlainName "New.test." := by decide +kernel
  obtain ⟨there, opened⟩ := (onFile_opened "full:old.test\n").desk
  have executes : Desk.Executes 0 d [(collector .domain .add, "New.test.")] _ :=
    .exec "New.test." rfl rfl (.done _)
  obtain ⟨new, compiles, finds⟩ := collecting_adds there opened
    (onFile_holds "full:old.test\n") (.inr ⟨"full:old.test", by decide +kernel⟩) compiled rfl plain
    executes shuts undropped
  refine ⟨after, old, new, shuts, compiled, compiles, ?_, (finds _).mpr (.inr (.inr ?_))⟩
  · rw [old_plain.find (onFile_holds "full:old.test\n").readText compiled]
    rintro ⟨other, held, same⟩
    have entries : entriesOf "full:old.test\n" = ["full:old.test"] := by decide +kernel
    rw [entries, List.mem_singleton] at held
    obtain rfl : other = "old.test" := by
      rw [← String.toList_inj]
      exact EntryFormat.entry_inj.mp (held.trans (by decide +kernel))
    exact absurd same (by decide +kernel)
  · decide +kernel

/-- The entry says nothing before its comment, and the set cannot be loaded again. -/
theorem collecting_comment :
    let d := (onFile "full:old.test\n").desk
    ∃ after, Desk.Shuts 0 ((collector .full .add).exec d "#bad.test").2 after ∧
      (Dialect.compileDomains (ofFile "/c") d.files).isOk = true ∧
      ¬ (Dialect.compileDomains (ofFile "/c") after.files).isOk = true := by
  intro d
  obtain ⟨after, shuts, undropped⟩ :=
    @one_more ((collector .full .add).exec d "#bad.test").2 "full:#bad.test" (by decide +kernel)
  have patternless : Patternless "#bad.test" := by decide +kernel
  obtain ⟨there, opened⟩ := (onFile_opened "full:old.test\n").desk
  have executes : Desk.Executes 0 d [(collector .full .add, "#bad.test")] _ :=
    .exec "#bad.test" rfl rfl (.done _)
  have breaks := collecting_compiles_iff there opened
    (onFile_holds "full:old.test\n") (.inr ⟨"full:old.test", by decide +kernel⟩) old_compiles
    executes shuts undropped
  exact ⟨after, shuts, old_compiles, fun fine => breaks.mp fine ⟨rfl, patternless⟩⟩

/-- The capital spelling is left in the file, and the set still finds the name. -/
theorem deleting_keeps_capital :
    let added := ((collector .full .add).exec crowded.desk "Bad.example.").2
    let deleted := ((collector .full .delete).exec added "bad.example.").2
    ∃ after m, Desk.Shuts 0 deleted after ∧
      Dialect.compileDomains (ofFile "/c") after.files = .ok m ∧
      (m.find? "bad.example.").isSome = true := by
  intro added deleted
  have started : (deleted.registry.stores[0]?.any fun s =>
      ((deleted.running s).moves [.close, .take]).any fun r =>
        r.files = {} && r.events.isEmpty && r.store = { crowded.store with
          entries := ["full:Bad.example"], writer := .holding (.append "full:Bad.example"),
          closed := true }) = true := by
    decide +kernel
  obtain ⟨s, there, started⟩ := (Option.any_eq_true _ _).mp started
  obtain ⟨r, moved, facts⟩ := (Option.any_eq_true _ _).mp started
  simp only [Bool.and_eq_true, decide_eq_true_eq, List.isEmpty_iff] at facts
  obtain ⟨⟨files, silent⟩, store⟩ := facts
  have path : r.store.path = "/c" := by rw [store]; rfl
  obtain ⟨after, shuts, -, told⟩ := @shuts_line deleted 0 s r [.take] "full:Bad.example"
    (({} : Files.Tree).set ["c"] (.file (.text "full:Bad.example\n")))
    [.created ["c"], .modified ["c"]] there (by decide) moved (by rw [store])
    (by rw [store]; rfl) (by simp [files, path, Files.Tree.appendWaits, missing_name])
    (by simp [files, path, Files.Tree.append, missing_name])
  have plain : ∀ c ∈ [(collector .full .add, "Bad.example.")] ++
      [(collector .full .delete, "bad.example.")], c.1.format = .full ∧ PlainName c.2 := by
    decide +kernel
  obtain ⟨there, opened⟩ := crowded_opened.desk
  have executes : Desk.Executes 0 crowded.desk ([(collector .full .add, "Bad.example.")] ++
      [(collector .full .delete, "bad.example.")]) deleted :=
    .exec "Bad.example." rfl rfl (.exec "bad.example." rfl rfl (.done _))
  obtain ⟨finds, -, compiles⟩ := deleting_keeps_other_spellings there opened missing_text
    plain rfl executes shuts (by rw [told, silent]; rfl)
  have writable : crowded.files.Writable "/c" := ⟨["c"], .inl missing_name⟩
  obtain ⟨m, compiled⟩ :=
    exists_ok_of_isOk (compiles writable ⟨_, List.mem_singleton_self _, rfl⟩)
  refine ⟨after, m, shuts, compiled, (finds m compiled).mpr ⟨"Bad.example", ?_⟩⟩
  decide +kernel

end LiveRules.Collect
