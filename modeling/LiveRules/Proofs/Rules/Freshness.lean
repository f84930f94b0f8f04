import LiveRules.Proofs.Lists
import LiveRules.Proofs.Rules.Handing
import LiveRules.Proofs.Rules.Rebuilding

/-!
# Rebuilds that run at the same time

The lock covers the reading of the files as well as the publication, so what one
attempt reads is never older than what was published before it took the lock. That
holds for any number of attempts and changes of the files, and for whatever else
happens between two steps. It follows that no publication takes a file back to an
older version, and that an attempt that was called for after the last change of the
files leaves their last version in place, whoever publishes after it.
-/
namespace LiveRules
variable {D : Dialect}

namespace RuleSource
variable {σ : Type}

theorem takeFiles_append {files : Files.Tree} {take : σ → String → σ × Option RuleError}
    {s s' s'' : σ} {index : Nat} {before : List String} {path : String}
    (first : takeFiles files take s index before = (s', none))
    (last : takeFile files take s' path = (s'', none)) :
    takeFiles files take s index (before ++ [path]) = (s'', none) := by
  rw [takeFiles_eq] at first ⊢
  rw [untilRefused_append first, untilRefused, handFile, last]
  rfl

end RuleSource

/-- The state after the expressions and some files, each in the version in which it was
read. -/
inductive ReadFrom (R : Recipe D) (source : RuleSource) (filesAt : Nat → Option Files.Tree) :
    List String → List Nat → R.State → Prop
  | expressions {state : R.State} :
      RuleSource.takeExpressions R.take R.start 0 source.expressions = (state, none) →
      ReadFrom R source filesAt [] [] state
  | file {before : List String} {reads : List Nat} {state state' : R.State} {path : String}
      {m : Nat} {files : Files.Tree} :
      ReadFrom R source filesAt before reads state → filesAt m = some files →
      RuleSource.takeFile files R.take state path = (state', none) →
      ReadFrom R source filesAt (before ++ [path]) (reads ++ [m]) state'

namespace ReadFrom
variable {R : Recipe D} {source : RuleSource} {filesAt filesAt' : Nat → Option Files.Tree}
  {before : List String} {reads : List Nat} {state : R.State}

theorem mono (read : ReadFrom R source filesAt before reads state)
    (same : ∀ {m files}, filesAt m = some files → filesAt' m = some files) :
    ReadFrom R source filesAt' before reads state := by
  induction read with
  | expressions taken => exact .expressions taken
  | file _ at_ taken ih => exact .file ih (same at_) taken

theorem length (read : ReadFrom R source filesAt before reads state) :
    before.length = reads.length := by
  induction read with
  | expressions => rfl
  | file _ _ _ ih => simp [ih]

/-- What is read from several versions is what is read from files that agree with each
of them where it counts. -/
theorem takeFiles (read : ReadFrom R source filesAt before reads state) {files : Files.Tree}
    (agree : ∀ x ∈ before.zip reads, ∀ then_, filesAt x.2 = some then_ →
      files.readText x.1 = then_.readText x.1) :
    ∃ first, RuleSource.takeExpressions R.take R.start 0 source.expressions = (first, none) ∧
      RuleSource.takeFiles files R.take first 0 before = (state, none) := by
  induction read with
  | expressions taken => exact ⟨_, taken, rfl⟩
  | @file before reads state state' path m then_ read at_ taken ih =>
      rw [List.zip_append read.length] at agree
      obtain ⟨first, expressions, others⟩ :=
        ih fun x member => agree x (List.mem_append_left _ member)
      have same := agree (path, m) (List.mem_append_right _ (by simp)) then_ at_
      refine ⟨first, expressions, RuleSource.takeFiles_append others ?_⟩
      rw [RuleSource.takeFile_congr same, taken]

theorem compile (read : ReadFrom R source filesAt source.files reads state) {files : Files.Tree}
    (agree : ∀ x ∈ source.files.zip reads, ∀ then_, filesAt x.2 = some then_ →
      files.readText x.1 = then_.readText x.1) :
    D.compile source files = .ok (R.finish state) := by
  obtain ⟨first, expressions, others⟩ := read.takeFiles agree
  rw [Recipe.compile_take R, RuleSource.load, expressions]
  simp only [others]

end ReadFrom

/-- The attempt holds the lock. -/
def Phase.inside {R : Recipe D} : Phase R → Bool
  | .reading .. | .resolving .. | .leaving _ => true
  | .waiting | .finished _ => false

namespace Site
variable {R : Recipe D} {c : Composite} {s s' : Site R}

/-- What an attempt can do in one step. -/
inductive Takes (c : Composite) (s : Site R) (i : Nat) (a : Attempt R) : Site R → Prop
  | stays : Takes c s i a s
  | enters : a.phase = .waiting → s.holder = none →
      Takes c s i a { s.become i a (enter R c) with holder := some i }
  | reads {state state' : R.State} {index : Nat} {path : String} {rest : List String}
      {reads : List Nat} : a.phase = .reading state index (path :: rest) reads →
      RuleSource.takeFile s.files.now R.take state path = (state', none) →
      Takes c s i a (s.become i a (.reading state' (index + 1) rest (reads ++ [s.files.version])))
  | compiles {state : R.State} {index : Nat} {reads : List Nat} :
      a.phase = .reading state index [] reads →
      Takes c s i a (s.become i a (.resolving (R.finish state) [] c.sets reads))
  | resolves {table : D.Table} {references : List Nat} {tag : String} {rest : List String}
      {reads : List Nat} {group : Nat} : a.phase = .resolving table references (tag :: rest) reads →
      s.tags tag = .ok group →
      Takes c s i a (s.become i a (.resolving table (references ++ [group]) rest reads))
  | fails {e : Fault} : a.phase.inside = true →
      Takes c s i a (s.become i a (.leaving (.error e)))
  | publishes {table : D.Table} {references reads : List Nat} :
      a.phase = .resolving table references [] reads →
      Takes c s i a { s.become i a (.leaving (.ok ⟨D.size table, c.sets.length⟩)) with
        published := ⟨table, references, reads⟩ :: s.published }
  | leaves {outcome : Except Fault RebuildSummary} : a.phase = .leaving outcome →
      Takes c s i a { s.become i a (.finished outcome) with holder := none }

theorem takes_advance (c : Composite) (s : Site R) (i : Nat) (a : Attempt R) :
    Takes c s i a (s.advance c i a) := by
  unfold advance
  split
  · rename_i waiting
    split
    · exact .stays
    · rename_i free
      exact .enters waiting (by simpa using free)
  · rename_i state index path rest reads phase
    split
    · exact .reads phase ‹_›
    · exact .fails (by rw [phase]; rfl)
  · rename_i state index reads phase
    split
    · exact .fails (by rw [phase]; rfl)
    · exact .compiles phase
  · rename_i table references tag rest reads phase
    split
    · exact .resolves phase ‹_›
    · exact .fails (by rw [phase]; rfl)
  · exact .publishes ‹_›
  · exact .leaves ‹_›
  · exact .stays

/-- The attempt has read each file after it was called for, and not in an older version
than anything that is published. -/
def Recent (s : Site R) (called : Nat) (reads : List Nat) : Prop :=
  ∀ m ∈ reads, called ≤ m ∧ m ≤ s.files.version ∧ ∀ p ∈ s.published, ∀ old ∈ p.reads, old ≤ m

/-- What an attempt has achieved so far. -/
def Progress (c : Composite) (s : Site R) (a : Attempt R) : Prop :=
  match a.phase with
  | .waiting => True
  | .reading state _ rest reads => s.Recent a.called reads ∧
      ∃ before, c.source.files = before ++ rest ∧
        ReadFrom R c.source s.files.at? before reads state
  | .resolving table references rest reads => s.Recent a.called reads ∧
      (∃ state, ReadFrom R c.source s.files.at? c.source.files reads state ∧
        table = R.finish state) ∧
      ∃ before, c.sets = before ++ rest ∧ references.length = before.length
  | .leaving (.ok _) | .finished (.ok _) => ∃ p ∈ s.published, ∀ m ∈ p.reads, a.called ≤ m
  | .leaving (.error _) | .finished (.error _) => True

/-- What holds at all times. -/
structure Sound (c : Composite) (s : Site R) : Prop where
  exclusive : ∀ {i : Nat} {a : Attempt R}, s.attempts[i]? = some a → a.phase.inside = true →
    s.holder = some i
  called : ∀ {i : Nat} {a : Attempt R}, s.attempts[i]? = some a → a.called ≤ s.files.version
  progress : ∀ {i : Nat} {a : Attempt R}, s.attempts[i]? = some a → s.Progress c a
  known : ∀ p ∈ s.published, ∀ m ∈ p.reads, m ≤ s.files.version
  compiled : ∀ p ∈ s.published, ∃ state,
    ReadFrom R c.source s.files.at? c.source.files p.reads state ∧ p.table = R.finish state
  references : ∀ p ∈ s.published, p.references.length = c.sets.length
  forward : s.published.Pairwise fun newer older => ∀ old ∈ older.reads, ∀ m ∈ newer.reads, old ≤ m

/-- The files have only changed since, and nothing was published. -/
structure Later (s s' : Site R) : Prop where
  version : s.files.version ≤ s'.files.version
  filesAt : ∀ {m files}, s.files.at? m = some files → s'.files.at? m = some files
  published : s'.published = s.published

theorem Recent.later {called : Nat} {reads : List Nat} (recent : s.Recent called reads)
    (later : Later s s') : s'.Recent called reads := by
  intro m member
  obtain ⟨after, before, newer⟩ := recent m member
  exact ⟨after, before.trans later.version, by rwa [later.published]⟩

theorem Progress.later {a : Attempt R} (progress : s.Progress c a) (later : Later s s') :
    s'.Progress c a := by
  unfold Progress at *
  split at progress
  · trivial
  · obtain ⟨recent, before, split, read⟩ := progress
    exact ⟨recent.later later, before, split, read.mono later.filesAt⟩
  · obtain ⟨recent, ⟨state, read, finished⟩, tags⟩ := progress
    exact ⟨recent.later later, ⟨state, read.mono later.filesAt, finished⟩, tags⟩
  · rwa [later.published]
  · rwa [later.published]
  · trivial
  · trivial

/-- What an attempt has achieved outside of the lock it keeps whatever is published. -/
theorem Progress.outside {a : Attempt R} (progress : s.Progress c a)
    (outside : a.phase.inside = false) (kept : ∀ p ∈ s.published, p ∈ s'.published) :
    s'.Progress c a := by
  have succeeded (success : ∃ p ∈ s.published, ∀ m ∈ p.reads, a.called ≤ m) :
      ∃ p ∈ s'.published, ∀ m ∈ p.reads, a.called ≤ m := by
    obtain ⟨p, member, after⟩ := success
    exact ⟨p, kept p member, after⟩
  unfold Progress at *
  split at progress
  · trivial
  · simp_all [Phase.inside]
  · simp_all [Phase.inside]
  · exact succeeded progress
  · exact succeeded progress
  · trivial
  · trivial

namespace Sound

theorem opened (c : Composite) (files : Files.Tree) (tags : String → Except ProviderError Nat) :
    Sound c (initial R files tags) where
  exclusive := nofun
  called := nofun
  progress := nofun
  known := nofun
  compiled := nofun
  references := nofun
  forward := .nil

theorem later (sound : Sound c s) (later : Later s s') (attempts : s'.attempts = s.attempts)
    (holder : s'.holder = s.holder) : Sound c s' where
  exclusive := by
    rw [attempts, holder]
    exact sound.exclusive
  called := by
    rw [attempts]
    exact fun here => (sound.called here).trans later.version
  progress := by
    rw [attempts]
    exact fun here => (sound.progress here).later later
  known := by
    rw [later.published]
    exact fun p member m read => (sound.known p member m read).trans later.version
  compiled := by
    rw [later.published]
    intro p member
    obtain ⟨state, read, finished⟩ := sound.compiled p member
    exact ⟨state, read.mono later.filesAt, finished⟩
  references := by
    rw [later.published]
    exact sound.references
  forward := by
    rw [later.published]
    exact sound.forward

theorem call (sound : Sound c s) (reloading : Bool) :
    Sound c (s.move c (.call reloading)) := by
  refine ⟨fun here inside => ?_, fun here => ?_, fun here => ?_, sound.known, sound.compiled,
    sound.references, sound.forward⟩
  · rcases Lists.getElem?_append_cases here with here | rfl
    · exact sound.exclusive here inside
    · cases inside
  · rcases Lists.getElem?_append_cases here with here | rfl
    · exact sound.called here
    · exact le_refl _
  · rcases Lists.getElem?_append_cases here with here | rfl
    · exact sound.progress here
    · trivial

/-- An attempt gets on, and may take the lock or let go of it. -/
theorem become (sound : Sound c s) {i : Nat} {a : Attempt R} (here : s.attempts[i]? = some a)
    {phase : Phase R} {holder : Option Nat} (own : phase.inside = true → holder = some i)
    (others : ∀ j, j ≠ i → s.holder = some j → holder = some j)
    (progress : s.Progress c { a with phase }) :
    Sound c { s.become i a phase with holder } := by
  have calledBefore := sound.called here
  refine ⟨fun there inside => ?_, fun there => ?_, fun there => ?_, sound.known, sound.compiled,
    sound.references, sound.forward⟩
  · rcases Lists.getElem?_set_cases there with ⟨rfl, rfl⟩ | ⟨other, there⟩
    · exact own inside
    · exact others _ other (sound.exclusive there inside)
  · rcases Lists.getElem?_set_cases there with ⟨-, rfl⟩ | ⟨other, there⟩
    · exact calledBefore
    · exact sound.called there
  · rcases Lists.getElem?_set_cases there with ⟨rfl, rfl⟩ | ⟨other, there⟩
    · exact progress
    · exact sound.progress there

theorem become_inside (sound : Sound c s) {i : Nat} {a : Attempt R}
    (here : s.attempts[i]? = some a) (inside : a.phase.inside = true) {phase : Phase R}
    (progress : s.Progress c { a with phase }) : Sound c (s.become i a phase) :=
  sound.become here (fun _ => sound.exclusive here inside) (fun _ _ held => held) progress

/-- While an attempt publishes all others are outside, and what those have achieved
stays. -/
theorem publish (sound : Sound c s) {i : Nat} {a : Attempt R} (here : s.attempts[i]? = some a)
    {table : D.Table} {references reads : List Nat}
    (phase : a.phase = .resolving table references [] reads) (summary : RebuildSummary) :
    Sound c { s.become i a (.leaving (.ok summary)) with
      published := ⟨table, references, reads⟩ :: s.published } := by
  have inside : a.phase.inside = true := by rw [phase]; rfl
  have held := sound.exclusive here inside
  have calledBefore := sound.called here
  have achieved := sound.progress here
  rw [Progress, phase] at achieved
  obtain ⟨recent, ⟨state, read, finished⟩, before, split, length⟩ := achieved
  constructor
  · intro j b there inside'
    rcases Lists.getElem?_set_cases there with ⟨rfl, rfl⟩ | ⟨-, there⟩
    · exact held
    · exact sound.exclusive there inside'
  · intro j b there
    rcases Lists.getElem?_set_cases there with ⟨-, rfl⟩ | ⟨-, there⟩
    · exact calledBefore
    · exact sound.called there
  · intro j b there
    rcases Lists.getElem?_set_cases there with ⟨rfl, rfl⟩ | ⟨other, there⟩
    · exact ⟨_, List.mem_cons_self, fun m member => (recent m member).1⟩
    · have outside : b.phase.inside = false := by
        by_contra inside'
        have held' := sound.exclusive there (by simpa using inside')
        exact other (Option.some.inj (held'.symm.trans held))
      exact (sound.progress there).outside outside fun p member => List.mem_cons_of_mem _ member
  · intro p member m listed
    rcases List.mem_cons.mp member with rfl | member
    · exact (recent m listed).2.1
    · exact sound.known p member m listed
  · intro p member
    rcases List.mem_cons.mp member with rfl | member
    · exact ⟨state, read, finished⟩
    · exact sound.compiled p member
  · intro p member
    rcases List.mem_cons.mp member with rfl | member
    · rw [length, split, List.append_nil]
    · exact sound.references p member
  · refine List.pairwise_cons.mpr ⟨fun p member old listed m listed' => ?_, sound.forward⟩
    exact (recent m listed').2.2 p member old listed

theorem progress_enter (c : Composite) (s : Site R) (a : Attempt R) :
    s.Progress c { a with phase := enter R c } := by
  unfold enter
  rcases taken : RuleSource.takeExpressions R.take R.start 0 c.source.expressions with
    ⟨state, refusal⟩
  cases refusal with
  | none => exact ⟨nofun, [], rfl, .expressions taken⟩
  | some cause => trivial

/-- Whatever is read now is recent. -/
theorem recent_now (sound : Sound c s) {i : Nat} {a : Attempt R} (here : s.attempts[i]? = some a)
    {reads : List Nat} (recent : s.Recent a.called reads) :
    s.Recent a.called (reads ++ [s.files.version]) := by
  intro m member
  rcases List.mem_append.mp member with old | new
  · exact recent m old
  · obtain rfl := List.mem_singleton.mp new
    exact ⟨sound.called here, le_refl _, fun p published old listed =>
      sound.known p published old listed⟩

theorem step (sound : Sound c s) {i : Nat} {a : Attempt R} (here : s.attempts[i]? = some a)
    (takes : Takes c s i a s') : Sound c s' := by
  have achieved := sound.progress here
  cases takes with
  | stays => exact sound
  | enters waiting free =>
      refine sound.become here (fun _ => rfl) (fun j _ held => ?_) ?_
      · rw [free] at held
        cases held
      · exact progress_enter c s a
  | @reads state state' index path rest reads phase taken =>
      rw [Progress, phase] at achieved
      obtain ⟨recent, before, split, read⟩ := achieved
      exact sound.become_inside here (by rw [phase]; rfl) ⟨sound.recent_now here recent,
        before ++ [path], by simp [split], read.file s.files.at?_version taken⟩
  | compiles phase =>
      rw [Progress, phase] at achieved
      obtain ⟨recent, before, split, read⟩ := achieved
      obtain rfl : c.source.files = before := by simpa using split
      exact sound.become_inside here (by rw [phase]; rfl) ⟨recent, ⟨_, read, rfl⟩, [], rfl, rfl⟩
  | @resolves table references tag rest reads group phase found =>
      rw [Progress, phase] at achieved
      obtain ⟨recent, compiled, before, split, length⟩ := achieved
      exact sound.become_inside here (by rw [phase]; rfl) ⟨recent, compiled, before ++ [tag],
        by simp [split], by simp [length]⟩
  | fails inside => exact sound.become_inside here inside trivial
  | publishes phase => exact sound.publish here phase _
  | @leaves outcome phase =>
      have held := sound.exclusive here (by rw [phase]; rfl)
      refine sound.become here nofun (fun j other held' => ?_) ?_
      · exact absurd (Option.some.inj (held'.symm.trans held)) other
      · rw [Progress, phase] at achieved
        cases outcome with
        | error e => trivial
        | ok summary => exact achieved

theorem edit (sound : Sound c s) (files : Files.Tree) : Sound c (s.move c (.edit files)) := by
  refine sound.later ⟨?_, fun before => Files.History.at?_change before files, rfl⟩ rfl rfl
  exact (Nat.le_succ _).trans_eq (s.files.version_change files).symm

theorem move (sound : Sound c s) (m : Move D) : Sound c (s.move c m) := by
  have unchanged {s' : Site R} (files : s'.files = s.files)
      (published : s'.published = s.published) : Later s s' := by
    refine ⟨by rw [files], fun at_ => ?_, published⟩
    rwa [files]
  cases m with
  | call reloading => exact sound.call reloading
  | advance i =>
      unfold Site.move
      dsimp only
      split
      · exact sound.step ‹_› (takes_advance ..)
      · exact sound
  | edit files => exact sound.edit files
  | retag tags => exact sound.later (unchanged rfl rfl) rfl rfl
  | look key => exact sound.later (unchanged rfl rfl) rfl rfl
  | probe i deeper => exact sound.later (unchanged rfl rfl) rfl rfl

theorem play (sound : Sound c s) (moves : List (Move D)) : Sound c (s.play c moves) := by
  induction moves generalizing s with
  | nil => exact sound
  | cons m moves ih => exact ih (sound.move m)

end Sound

end Site
end LiveRules
