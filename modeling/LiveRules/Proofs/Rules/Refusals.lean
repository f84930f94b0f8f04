import LiveRules.Proofs.Rules.Snapshots

/-!
# Why attempts fail

An attempt fails because it has read something that a rebuild refuses, or because a tag
refers to no set. If the files have not changed since it was called for, a rebuild of
the files as they are is refused for the same reason, though the attempt has read them
one by one.
-/
namespace LiveRules
variable {D : Dialect}

namespace RuleSource
variable {σ : Type}

theorem takeFiles_append_refused {files : Files.Tree}
    {take : σ → String → σ × Option RuleError} {s s' s'' : σ} {index : Nat}
    {before : List String} {path : String} {cause : RuleError}
    (first : takeFiles files take s index before = (s', none))
    (last : takeFile files take s' path = (s'', some cause)) (rest : List String) :
    takeFiles files take s index (before ++ path :: rest) =
      (s'', some (.file (index + before.length) path cause)) := by
  rw [takeFiles_eq] at first ⊢
  refine untilRefused_append_refused first ?_ rest
  rw [handFile, last]
  rfl

end RuleSource

namespace Site
variable {R : Recipe D} {c : Composite} {s : Site R}

/-- The files have the texts that those of the composite have had since. -/
def Agrees (s : Site R) (c : Composite) (since : Nat) (files : Files.Tree) : Prop :=
  ∀ path ∈ c.source.files, ∀ m then_, since ≤ m → s.files.at? m = some then_ →
    files.readText path = then_.readText path

/-- The files that an attempt has counted are those that it has read, and if it fails,
then for what a rebuild refuses, or for a tag. -/
def Blamed (c : Composite) (s : Site R) (a : Attempt R) : Prop :=
  match a.phase with
  | .reading _ index _ reads => index = reads.length
  | .leaving (.error e) | .finished (.error e) => (∃ cause, e = .provider cause) ∨
      ∀ files, s.Agrees c a.called files → Family.compile (D := D) c files a.reloading = .error e
  | _ => True

theorem Blamed.mono {s' : Site R} {a : Attempt R} (blamed : s.Blamed c a)
    (filesAt : ∀ {m files}, s.files.at? m = some files → s'.files.at? m = some files) :
    s'.Blamed c a := by
  have agrees {files : Files.Tree} (agrees : s'.Agrees c a.called files) :
      s.Agrees c a.called files :=
    fun path listed m then_ le at_ => agrees path listed m then_ le (filesAt at_)
  unfold Blamed at *
  split at blamed
  · exact blamed
  · exact blamed.imp_right fun refused files same => refused files (agrees same)
  · exact blamed.imp_right fun refused files same => refused files (agrees same)
  · trivial

/-- An expression that is refused is refused whatever the files are. -/
theorem blamed_enter (c : Composite) (s : Site R) (a : Attempt R) :
    s.Blamed c { a with phase := enter R c } := by
  unfold enter
  rcases taken : RuleSource.takeExpressions R.take R.start 0 c.source.expressions with
    ⟨state, refusal⟩
  cases refusal with
  | none => exact rfl
  | some cause =>
      refine .inr fun files _ => ?_
      rw [Family.compile, Recipe.compile_take R, RuleSource.load, taken]

/-- What the attempt has read so far, files that agree with it read as well. -/
theorem read_agrees {called : Nat} {reads : List Nat} {before : List String}
    (recent : s.Recent called reads)
    (listed : ∀ path ∈ before, path ∈ c.source.files) {files : Files.Tree}
    (agrees : s.Agrees c called files) :
    ∀ x ∈ before.zip reads, ∀ then_, s.files.at? x.2 = some then_ →
      files.readText x.1 = then_.readText x.1 := by
  intro x member then_ at_
  obtain ⟨path, version⟩ := List.of_mem_zip member
  exact agrees x.1 (listed x.1 path) x.2 then_ (recent x.2 version).1 at_

/-- A file that was refused just now is refused by a rebuild of what the files say since
the attempt was called for. -/
theorem refused_file (sound : Sound c s) {i : Nat} {a : Attempt R}
    (here : s.attempts[i]? = some a) {state last : R.State} {path : String} {rest : List String}
    {reads : List Nat} (phase : a.phase = .reading state reads.length (path :: rest) reads)
    {cause : RuleError}
    (taken : RuleSource.takeFile s.files.now R.take state path = (last, some cause))
    {files : Files.Tree} (agrees : s.Agrees c a.called files) :
    Family.compile (D := D) c files a.reloading =
      .error (.rule (.file reads.length path cause)) := by
  have achieved := sound.progress here
  rw [Progress, phase] at achieved
  obtain ⟨recent, before, split, read⟩ := achieved
  have listed : ∀ p ∈ before, p ∈ c.source.files := fun p member => by
    rw [split]
    exact List.mem_append_left _ member
  obtain ⟨first, expressions, others⟩ := read.takeFiles (read_agrees recent listed agrees)
  have now : files.readText path = s.files.now.readText path := by
    refine agrees path ?_ s.files.version _ (sound.called here) s.files.at?_version
    rw [split]
    exact List.mem_append_right _ List.mem_cons_self
  rw [← RuleSource.takeFile_congr now] at taken
  have refused := RuleSource.takeFiles_append_refused others taken rest
  rw [← split, Nat.zero_add, read.length] at refused
  rw [Family.compile, Recipe.compile_take R, RuleSource.load, expressions]
  simp only [refused]

/-- A reload that ended up without rules is refused by a rebuild as well. -/
theorem refused_reload (sound : Sound c s) {i : Nat} {a : Attempt R}
    (here : s.attempts[i]? = some a) {state : R.State} {index : Nat} {reads : List Nat}
    (phase : a.phase = .reading state index [] reads)
    (refused : (a.reloading && !D.acceptsReload (R.finish state)) = true)
    {files : Files.Tree} (agrees : s.Agrees c a.called files) :
    Family.compile (D := D) c files a.reloading = .error (.config c.tag .emptyReload) := by
  have achieved := sound.progress here
  rw [Progress, phase] at achieved
  obtain ⟨recent, before, split, read⟩ := achieved
  obtain rfl : c.source.files = before := by simpa using split
  have compiled := read.compile (read_agrees recent (fun _ => id) agrees)
  rw [Family.compile, compiled]
  simp only [refused, if_true]

theorem blamed_advance (sound : Sound c s) {i : Nat} {a : Attempt R}
    (here : s.attempts[i]? = some a) (all : ∀ b ∈ s.attempts, s.Blamed c b) :
    ∀ b ∈ (s.advance c i a).attempts, (s.advance c i a).Blamed c b := by
  have blamed := all a (List.mem_of_getElem? here)
  have become {phase : Phase R} (new : s.Blamed c { a with phase }) :
      ∀ b ∈ (s.become i a phase).attempts, (s.become i a phase).Blamed c b :=
    Lists.forall_set all new
  unfold advance
  split
  · split
    · exact all
    · exact become (blamed_enter c s a)
  · rename_i state index path rest reads phase
    rw [Blamed, phase] at blamed
    obtain rfl : index = reads.length := blamed
    refine become ?_
    split
    · change reads.length + 1 = (reads ++ [s.files.version]).length
      rw [List.length_append, List.length_singleton]
    · rename_i last cause taken
      exact .inr fun files agrees => refused_file sound here phase taken agrees
  · rename_i state index reads phase
    refine become ?_
    split
    · rename_i refused
      exact .inr fun files agrees => refused_reload sound here phase refused agrees
    · trivial
  · rename_i table references tag rest reads phase
    refine become ?_
    split
    · trivial
    · exact .inl ⟨_, rfl⟩
  · exact become trivial
  · rename_i outcome phase
    rw [Blamed, phase] at blamed
    refine become ?_
    cases outcome with
    | ok summary => trivial
    | error e => exact blamed
  · exact all

theorem blamed_move (sound : Sound c s) (all : ∀ a ∈ s.attempts, s.Blamed c a) (m : Move D) :
    ∀ a ∈ (s.move c m).attempts, (s.move c m).Blamed c a := by
  cases m with
  | call reloading => exact Lists.forall_append all trivial
  | advance i =>
      unfold move
      dsimp only
      split
      · exact blamed_advance sound ‹_› all
      · exact all
  | edit files =>
      exact fun a member => (all a member).mono fun before => Files.History.at?_change before files
  | retag | look | probe => exact all

theorem blamed_play (sound : Sound c s) (all : ∀ a ∈ s.attempts, s.Blamed c a)
    (moves : List (Move D)) : ∀ a ∈ (s.play c moves).attempts, (s.play c moves).Blamed c a := by
  induction moves generalizing s with
  | nil => exact all
  | cons m moves ih => exact ih (sound.move m) (blamed_move sound all m)

/-- An attempt that failed since the last change was refused, or a tag was. -/
theorem refused_now {a : Attempt R} (blamed : s.Blamed c a) {e : Fault}
    (failed : a.phase = .finished (.error e)) (unchanged : s.Unchanged c a.called) :
    (∃ cause, e = .provider cause) ∨
      Family.compile (D := D) c s.files.now a.reloading = .error e := by
  rw [Blamed, failed] at blamed
  exact blamed.imp_right fun refused => refused s.files.now unchanged

end Site
end LiveRules
