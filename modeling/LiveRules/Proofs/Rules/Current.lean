import LiveRules.Proofs.Rules.Refusals

/-!
# Rules that are current

What is published is current if the files that it was made of have not changed since they
were read. As long as nothing is published, that is asked of what the attempts have read
so far. No step of an attempt makes current rules outdated, and neither does a change of
texts that nobody has read yet. Only another change does, and what takes care of it is a
reload that is called for after it.
-/
namespace LiveRules
variable {D : Dialect}

/-- The versions of the files that an attempt goes by. -/
def Phase.reads {R : Recipe D} : Phase R → List Nat
  | .reading _ _ _ reads | .resolving _ _ _ reads => reads
  | .waiting | .leaving _ | .finished _ => []

namespace Site
variable {R : Recipe D} {c : Composite} {s s' : Site R}

/-- These versions are those of the files as they are. -/
def UpToDate (s : Site R) (c : Composite) (reads : List Nat) : Prop :=
  ∀ x ∈ c.source.files.zip reads, s.files.Steady x.1 x.2

structure Current (c : Composite) (s : Site R) : Prop where
  last : ∀ p, s.published.head? = some p → s.UpToDate c p.reads
  first : s.published = [] → ∀ a ∈ s.attempts, s.UpToDate c a.phase.reads

/-- No rules are made of what the file says now. -/
def Unread (c : Composite) (s : Site R) (path : String) : Prop :=
  s.published = [] ∧ ∀ a ∈ s.attempts, path ∉ c.source.files.take a.phase.reads.length

/-- Each file says what it says now, or nobody has read it. -/
def Harmless (c : Composite) (s : Site R) (files : Files.Tree) : Prop :=
  ∀ path ∈ c.source.files,
    files.readText path = s.files.now.readText path ∨ s.Unread c path

theorem upToDate_nil (s : Site R) (c : Composite) : s.UpToDate c [] := by
  intro x member
  rw [List.zip_nil_right] at member
  cases member

theorem reads_enter (R : Recipe D) (c : Composite) : (enter R c).reads = [] := by
  unfold enter
  split <;> rfl

theorem UpToDate.read {reads : List Nat} (current : s.UpToDate c reads) :
    s.UpToDate c (reads ++ [s.files.version]) := by
  intro x member
  rcases Lists.mem_zip_append member with before | last
  · exact current x before
  · rw [last]
    exact s.files.steady_version x.1

/-- What is newer is as current. -/
theorem UpToDate.mono {older newer : List Nat} (current : s.UpToDate c older)
    (lengths : c.source.files.length = older.length)
    (forward : ∀ old ∈ older, ∀ m ∈ newer, old ≤ m) : s.UpToDate c newer := by
  intro x member
  obtain ⟨path, m⟩ := x
  obtain ⟨listed, new⟩ := List.of_mem_zip member
  obtain ⟨i, inside, rfl⟩ := List.mem_iff_getElem.mp listed
  have before : (c.source.files[i], older[i]) ∈ c.source.files.zip older := by
    refine List.mem_iff_getElem.mpr ⟨i, by simp; omega, ?_⟩
    rw [List.getElem_zip]
  exact (current _ before).mono (forward _ (List.getElem_mem _) m new)

namespace Current

theorem opened (c : Composite) (files : Files.Tree) (tags : String → Except ProviderError Nat) :
    Current c (initial R files tags) where
  last := nofun
  first := nofun

theorem call (current : Current c s) (reloading : Bool) :
    Current c (s.move c (.call reloading)) where
  last := current.last
  first none := Lists.forall_append (current.first none) (s.upToDate_nil c)

theorem calls {α : Type} (current : Current c s) (ready : List α) :
    Current c (s.play c (ready.map fun _ => .call true)) := by
  induction ready generalizing s with
  | nil => exact current
  | cons _ ready ih => exact ih (current.call true)

/-- An attempt gets on without publishing. -/
theorem become (current : Current c s) {i : Nat} {a : Attempt R} {phase : Phase R}
    {holder : Option Nat} (new : s.published = [] → s.UpToDate c phase.reads) :
    Current c { s.become i a phase with holder } where
  last := current.last
  first none := Lists.forall_set (current.first none) (new none)

theorem step (current : Current c s) (sound : Sound c s) {i : Nat} {a : Attempt R}
    (here : s.attempts[i]? = some a) (takes : Takes c s i a s') : Current c s' := by
  have sound' := sound.step here takes
  have own (none : s.published = []) : s.UpToDate c a.phase.reads :=
    current.first none a (List.mem_of_getElem? here)
  cases takes with
  | stays => exact current
  | enters waiting free =>
      refine current.become fun _ => ?_
      rw [reads_enter]
      exact s.upToDate_nil c
  | reads phase taken =>
      rw [phase] at own
      exact current.become fun none => (own none).read
  | compiles phase | resolves phase found =>
      rw [phase] at own
      exact current.become own
  | fails inside | leaves phase => exact current.become fun _ => s.upToDate_nil c
  | @publishes table references reads phase =>
      rw [phase] at own
      refine ⟨fun p head => ?_, nofun⟩
      obtain rfl := Option.some.inj head
      -- The new rules are current if the ones before are, for they are newer than these.
      cases before : s.published with
      | nil => exact own before
      | cons q older =>
          have head : s.published.head? = some q := by rw [before]; rfl
          have member : q ∈ s.published := List.mem_of_mem_head? head
          have forward := (List.pairwise_cons.mp sound'.forward).1 q member
          exact (current.last q head).mono (sound.length_reads member) forward

theorem advance (current : Current c s) (sound : Sound c s) (i : Nat) :
    Current c (s.move c (.advance i)) := by
  unfold Site.move
  dsimp only
  split
  · exact current.step sound ‹_› (takes_advance ..)
  · exact current

theorem edit (current : Current c s) {files : Files.Tree} (harmless : s.Harmless c files) :
    Current c (s.move c (.edit files)) := by
  constructor
  · intro p head x member
    have steady := current.last p head x member
    rcases harmless x.1 (List.of_mem_zip member).1 with same | ⟨none, -⟩
    · exact steady.change same
    · have head : s.published.head? = some p := head
      rw [none] at head
      cases head
  · intro none a listed x member
    have steady := current.first none a listed x member
    rcases harmless x.1 (List.of_mem_zip member).1 with same | ⟨-, unread⟩
    · exact steady.change same
    · exact absurd (Lists.mem_take_of_mem_zip member) (unread a listed)

end Current

theorem Takes.frame {i : Nat} {a : Attempt R} (takes : Takes c s i a s') :
    s'.files = s.files ∧ s.published <:+ s'.published ∧
      (s'.attempts = s.attempts ∨ ∃ phase, s'.attempts = s.attempts.set i { a with phase }) := by
  cases takes with
  | stays => exact ⟨rfl, List.suffix_refl _, .inl rfl⟩
  | publishes phase => exact ⟨rfl, List.suffix_cons _ _, .inr ⟨_, rfl⟩⟩
  | _ => exact ⟨rfl, List.suffix_refl _, .inr ⟨_, rfl⟩⟩

theorem files_advance (c : Composite) (s : Site R) (i : Nat) :
    (s.move c (.advance i)).files = s.files := by
  unfold move
  dsimp only
  split
  · exact (takes_advance ..).frame.1
  · rfl

/-- Attempts never disappear. -/
theorem mem_advance {a : Attempt R} (member : a ∈ s.attempts) (c : Composite) (i : Nat) :
    ∃ a' ∈ (s.move c (.advance i)).attempts,
      a'.reloading = a.reloading ∧ a'.called = a.called := by
  unfold move
  dsimp only
  split
  · rename_i b here
    rcases (takes_advance c s i b).frame.2.2 with same | ⟨phase, same⟩
    · rw [same]
      exact ⟨a, member, rfl, rfl⟩
    · rw [same]
      by_cases own : a = b
      · have inside := (List.getElem?_eq_some_iff.mp here).1
        rw [own]
        exact ⟨{ b with phase }, List.mem_set inside _, rfl, rfl⟩
      · exact ⟨a, Lists.mem_set_of_ne here member own _, rfl, rfl⟩
  · exact ⟨a, member, rfl, rfl⟩

/-- What is published stays in the list of all publications. -/
theorem published_play (c : Composite) (s : Site R) (moves : List (Move D)) :
    s.published <:+ (s.play c moves).published := by
  induction moves generalizing s with
  | nil => exact List.suffix_refl _
  | cons m moves ih =>
      refine List.IsSuffix.trans ?_ (ih (s.move c m))
      cases m with
      | advance i =>
          unfold move
          dsimp only
          split
          · exact (takes_advance ..).frame.2.1
          · exact List.suffix_refl _
      | _ => exact List.suffix_refl _

/-- Some reload was called for after the last change. -/
def Reloads (c : Composite) (s : Site R) : Prop :=
  ∃ a ∈ s.attempts, a.reloading = true ∧ s.Unchanged c a.called

theorem Reloads.advance (reloads : s.Reloads c) (i : Nat) :
    (s.move c (.advance i)).Reloads c := by
  obtain ⟨a, member, reloading, unchanged⟩ := reloads
  obtain ⟨a', member', reloading', called⟩ := mem_advance member c i
  refine ⟨a', member', reloading'.trans reloading, ?_⟩
  rw [called, Unchanged, files_advance]
  exact unchanged

/-- A harmless change changes nothing for whoever has seen the files. -/
theorem Reloads.edit (reloads : s.Reloads c) (shown : s.published ≠ []) {files : Files.Tree}
    (harmless : s.Harmless c files) : (s.move c (.edit files)).Reloads c := by
  obtain ⟨a, member, reloading, unchanged⟩ := reloads
  refine ⟨a, member, reloading, fun path listed => ?_⟩
  have steady : s.files.Steady path a.called := unchanged path listed
  rcases harmless path listed with same | ⟨none, -⟩
  · exact steady.change same
  · exact absurd none shown

/-- Calls are all that a site knows of the event loop. -/
theorem play_calls {α : Type} (c : Composite) (s : Site R) (ready : List α) :
    s.play c (ready.map fun _ => .call true) =
      { s with attempts :=
          s.attempts ++ ready.map fun _ => ⟨true, s.files.version, .waiting⟩ } := by
  induction ready generalizing s with
  | nil =>
      rw [List.map_nil, List.map_nil, List.append_nil]
      rfl
  | cons _ ready ih =>
      refine (ih (s.move c (.call true))).trans ?_
      rw [List.map_cons, List.append_cons]
      rfl

theorem Reloads.calls {α : Type} (reloads : s.Reloads c) (ready : List α) :
    (s.play c (ready.map fun _ => .call true)).Reloads c := by
  obtain ⟨a, member, called⟩ := reloads
  rw [play_calls]
  exact ⟨a, List.mem_append_left _ member, called⟩

theorem reloads_called {α : Type} (c : Composite) (s : Site R) {ready : List α}
    (some : ready ≠ []) : (s.play c (ready.map fun _ => .call true)).Reloads c := by
  obtain ⟨x, member⟩ := List.exists_mem_of_ne_nil _ some
  rw [play_calls]
  refine ⟨⟨true, s.files.version, .waiting⟩, ?_, rfl, fun path _ => ?_⟩
  · exact List.mem_append_right _ (List.mem_map.mpr ⟨x, member, rfl⟩)
  · exact s.files.steady_version path

/-- The rules are those of the files as they are, or a reload has read these files since
they changed last and was refused. -/
def Follows (c : Composite) (s : Site R) : Prop :=
  (∃ table references, D.compile c.source s.files.now = .ok table ∧
    s.members = Family.members table references) ∨
  ∃ a ∈ s.attempts, a.reloading = true ∧ s.Unchanged c a.called ∧
    ∃ e, a.phase = .finished (.error e) ∧ ((∃ cause, e = .provider cause) ∨
      Family.compile (D := D) c s.files.now true = .error e)

/-- Rules that are made of the files as they are. -/
theorem follows_of_upToDate (sound : Sound c s) {p : Publication D}
    (head : s.published.head? = some p) (current : s.UpToDate c p.reads) : s.Follows c := by
  refine .inl ⟨p.table, p.references, ?_, ?_⟩
  · refine sound.compile (List.mem_of_mem_head? head) fun x member then_ at_ => ?_
    exact current x member x.2 then_ le_rfl at_
  · rw [members, head]
    rfl

/-- A reload that is over has brought the rules up to date, or it was refused. -/
theorem follows_of_reload (sound : Sound c s) {a : Attempt R} (member : a ∈ s.attempts)
    (blamed : s.Blamed c a) (reloading : a.reloading = true)
    (unchanged : s.Unchanged c a.called) {outcome : Except Fault RebuildSummary}
    (ended : a.phase = .finished outcome) : s.Follows c := by
  cases outcome with
  | error e =>
      have refused := refused_now blamed ended unchanged
      rw [reloading] at refused
      exact .inr ⟨a, member, reloading, unchanged, e, ended, refused⟩
  | ok summary =>
      obtain ⟨p, head, after⟩ := sound.recent_last member ended
      refine follows_of_upToDate sound head fun x listed => ?_
      obtain ⟨path, read⟩ := List.of_mem_zip listed
      have steady : s.files.Steady x.1 a.called := unchanged x.1 path
      exact steady.mono (after x.2 read)

end Site
end LiveRules
