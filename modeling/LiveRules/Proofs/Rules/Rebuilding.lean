import LiveRules.Proofs.Files.History
import LiveRules.Proofs.Rules.Composite
import LiveRules.Proofs.Rules.Recipes

/-!
# Rebuilds step by step

Any number of attempts to rebuild a composite can be under way at once. Each takes
the lock, reads its files one after another, resolves its tags, publishes, and lets
go of the lock. Between any two steps files may change, tags may go to other sets,
and others may take their steps. Lookups load what is published and go through it
member by member. An attempt that nothing disturbs does what a rebuild does at once.
-/
namespace LiveRules
variable {D : Dialect}

/-- What was published at one time, with the version of each file that it was made of. -/
structure Publication (D : Dialect) where
  table : D.Table
  references : List Nat
  reads : List Nat

namespace Publication

def members (p : Publication D) : List (Member D.Table) := Family.members p.table p.references

end Publication

/-- How far an attempt is. -/
inductive Phase (R : Recipe D) where
  | waiting
  | reading (state : R.State) (index : Nat) (rest : List String) (reads : List Nat)
  | resolving (table : D.Table) (references : List Nat) (rest : List String) (reads : List Nat)
  /-- All is done, but the lock is still held. -/
  | leaving (outcome : Except Fault RebuildSummary)
  | finished (outcome : Except Fault RebuildSummary)

structure Attempt (R : Recipe D) where
  reloading : Bool
  /-- The version of the files when it was called for. -/
  called : Nat
  phase : Phase R := .waiting

/-- How far a lookup is, with the members that it has loaded. -/
inductive Lookup (D : Dialect) where
  | started (key : D.Key)
  | probing (key : D.Key) (loaded rest : List (Member D.Table))
  | answered (key : D.Key) (loaded : List (Member D.Table)) (answer : Option D.Value)

/-- A composite at work. -/
structure Site (R : Recipe D) where
  files : Files.History
  /-- What the tags stand for now. -/
  tags : String → Except ProviderError Nat
  /-- All that was ever published, the newest first. -/
  published : List (Publication D) := []
  /-- The attempt that holds the lock. -/
  holder : Option Nat := none
  attempts : List (Attempt R) := []
  lookups : List (Lookup D) := []

namespace Site
variable {R : Recipe D}

inductive Move (D : Dialect) where
  | call (reloading : Bool)
  | advance (attempt : Nat)
  | edit (files : Files.Tree)
  | retag (tags : String → Except ProviderError Nat)
  | look (key : D.Key)
  /-- A lookup gets on; `deeper` is what another group answers if it is asked. -/
  | probe (lookup : Nat) (deeper : Option D.Value)

/-- Nothing has been called for yet. -/
def initial (R : Recipe D) (files : Files.Tree) (tags : String → Except ProviderError Nat) :
    Site R := { files := { now := files }, tags }

/-- What is published now. -/
def members (s : Site R) : List (Member D.Table) := (s.published.head?.map (·.members)).getD []

def become (s : Site R) (i : Nat) (a : Attempt R) (phase : Phase R) : Site R :=
  { s with attempts := s.attempts.set i { a with phase } }

/-- Expressions are compiled as soon as the lock is taken. -/
def enter (R : Recipe D) (c : Composite) : Phase R :=
  match RuleSource.takeExpressions R.take R.start 0 c.source.expressions with
  | (state, none) => .reading state 0 c.source.files []
  | (_, some cause) => .leaving (.error (.rule cause))

def advance (c : Composite) (s : Site R) (i : Nat) (a : Attempt R) : Site R :=
  match a.phase with
  | .waiting =>
      if s.holder.isSome then s else { s.become i a (enter R c) with holder := some i }
  | .reading state index (path :: rest) reads =>
      s.become i a <| match RuleSource.takeFile s.files.now R.take state path with
        | (state, none) => .reading state (index + 1) rest (reads ++ [s.files.version])
        | (_, some cause) => .leaving (.error (.rule (.file index path cause)))
  | .reading state _ [] reads =>
      s.become i a <|
        if a.reloading && !D.acceptsReload (R.finish state) then
          .leaving (.error (.config c.tag .emptyReload))
        else .resolving (R.finish state) [] c.sets reads
  | .resolving table references (tag :: rest) reads =>
      s.become i a <| match s.tags tag with
        | .ok group => .resolving table (references ++ [group]) rest reads
        | .error e => .leaving (.error (.provider e))
  | .resolving table references [] reads =>
      { s.become i a (.leaving (.ok ⟨D.size table, c.sets.length⟩)) with
        published := ⟨table, references, reads⟩ :: s.published }
  | .leaving outcome => { s.become i a (.finished outcome) with holder := none }
  | .finished _ => s

def probe (s : Site R) (deeper : Option D.Value) : Lookup D → Lookup D
  | .started key => .probing key s.members s.members
  | .probing key loaded [] => .answered key loaded none
  | .probing key loaded (.table table :: rest) =>
      match D.probe key table with
      | some v => .answered key loaded (some v)
      | none => .probing key loaded rest
  | .probing key loaded (.group _ :: rest) =>
      match deeper with
      | some v => .answered key loaded (some v)
      | none => .probing key loaded rest
  | .answered key loaded answer => .answered key loaded answer

def move (c : Composite) (s : Site R) : Move D → Site R
  | .call reloading => { s with attempts := s.attempts ++ [⟨reloading, s.files.version, .waiting⟩] }
  | .advance i =>
      match s.attempts[i]? with
      | some a => s.advance c i a
      | none => s
  | .edit files => { s with files := s.files.change files }
  | .retag tags => { s with tags }
  | .look key => { s with lookups := s.lookups ++ [.started key] }
  | .probe i deeper => { s with lookups := s.lookups.modify i (s.probe deeper) }

def play (c : Composite) (s : Site R) (moves : List (Move D)) : Site R := moves.foldl (move c) s

theorem play_append (c : Composite) (s : Site R) (moves moves' : List (Move D)) :
    s.play c (moves ++ moves') = (s.play c moves).play c moves' := List.foldl_append

end Site

/-! ## Attempts that nothing disturbs -/

namespace Site
variable {R : Recipe D} {c : Composite} {s : Site R} {i : Nat} {a : Attempt R}
  {phase phase' : Phase R}

theorem become_become (s : Site R) (i : Nat) (a : Attempt R) (phase phase' : Phase R) :
    (s.become i a phase).become i { a with phase } phase' = s.become i a phase' := by
  simp only [become, List.set_set]

theorem move_become (inside : i < s.attempts.length) :
    (s.become i a phase).move c (.advance i) =
      (s.become i a phase).advance c i { a with phase } := by
  have here : (s.become i a phase).attempts[i]? = some { a with phase } :=
    List.getElem?_set_self inside
  unfold move
  dsimp only
  rw [here]

/-- The attempt comes from one phase to another one by itself, and publishes nothing. -/
def Gets (c : Composite) (s : Site R) (i : Nat) (a : Attempt R) (phase phase' : Phase R) : Prop :=
  ∃ n, (s.become i a phase).play c (List.replicate n (.advance i)) = s.become i a phase'

theorem Gets.refl (phase : Phase R) : Gets c s i a phase phase := ⟨0, rfl⟩

theorem Gets.trans {phase'' : Phase R} (gets : Gets c s i a phase phase')
    (gets' : Gets c s i a phase' phase'') : Gets c s i a phase phase'' := by
  obtain ⟨n, played⟩ := gets
  obtain ⟨m, played'⟩ := gets'
  exact ⟨n + m, by rw [List.replicate_add, play_append, played, played']⟩

theorem gets_step (inside : i < s.attempts.length)
    (one : (s.become i a phase).advance c i { a with phase } =
      (s.become i a phase).become i { a with phase } phase') : Gets c s i a phase phase' := by
  refine ⟨1, ?_⟩
  rw [become_become] at one
  exact (move_become inside).trans one

/-- The files are read one after another as they are at once. -/
theorem gets_read (inside : i < s.attempts.length) (rest : List String) (state : R.State)
    (index : Nat) (reads : List Nat) :
    match RuleSource.takeFiles s.files.now R.take state index rest with
    | (state', none) => ∃ index' reads',
        Gets c s i a (.reading state index rest reads) (.reading state' index' [] reads')
    | (_, some cause) =>
        Gets c s i a (.reading state index rest reads) (.leaving (.error (.rule cause))) := by
  induction rest generalizing state index reads with
  | nil => exact ⟨index, reads, .refl _⟩
  | cons path rest ih =>
      have one : Gets c s i a (.reading state index (path :: rest) reads)
          (match RuleSource.takeFile s.files.now R.take state path with
            | (state, none) => .reading state (index + 1) rest (reads ++ [s.files.version])
            | (_, some cause) => .leaving (.error (.rule (.file index path cause)))) :=
        gets_step inside rfl
      unfold RuleSource.takeFiles
      rcases taken : RuleSource.takeFile s.files.now R.take state path with ⟨state', refusal⟩
      rw [taken] at one
      cases refusal with
      | some cause => exact one
      | none =>
          have others := ih state' (index + 1) (reads ++ [s.files.version])
          dsimp only at one ⊢
          split
          · rename_i last read
            rw [read] at others
            obtain ⟨index', reads', others⟩ := others
            exact ⟨index', reads', one.trans others⟩
          · rename_i cause read
            rw [read] at others
            exact one.trans others

/-- The tags are resolved one after another as they are at once. -/
theorem gets_resolved (inside : i < s.attempts.length) (rest : List String) (table : D.Table)
    (references reads : List Nat) :
    match Family.resolve s.tags rest with
    | .ok more => Gets c s i a (.resolving table references rest reads)
        (.resolving table (references ++ more) [] reads)
    | .error e =>
        Gets c s i a (.resolving table references rest reads) (.leaving (.error e)) := by
  induction rest generalizing references with
  | nil =>
      rw [Family.resolve]
      dsimp only
      rw [List.append_nil]
      exact .refl _
  | cons tag rest ih =>
      have one : Gets c s i a (.resolving table references (tag :: rest) reads)
          (match s.tags tag with
            | .ok group => .resolving table (references ++ [group]) rest reads
            | .error e => .leaving (.error (.provider e))) :=
        gets_step inside rfl
      unfold Family.resolve
      cases found : s.tags tag with
      | error e =>
          rw [found] at one
          exact one
      | ok group =>
          rw [found] at one
          have others := ih (references ++ [group])
          cases resolved : Family.resolve s.tags rest with
          | error e =>
              rw [resolved] at others
              exact one.trans others
          | ok more =>
              simp only [resolved, List.append_assoc, List.singleton_append] at others
              exact one.trans others

/-- The last file is followed by the check of the table. -/
theorem gets_checked (inside : i < s.attempts.length) (state : R.State) (index : Nat)
    (reads : List Nat) : Gets c s i a (.reading state index [] reads)
      (if a.reloading && !D.acceptsReload (R.finish state) then
        .leaving (.error (.config c.tag .emptyReload))
      else .resolving (R.finish state) [] c.sets reads) :=
  gets_step inside rfl

/-- Reading and compiling step by step is compiling at once. -/
theorem gets_compiled (inside : i < s.attempts.length) :
    match Family.compile (D := D) c s.files.now a.reloading with
    | .ok table => ∃ reads, Gets c s i a (enter R c) (.resolving table [] c.sets reads)
    | .error e => Gets c s i a (enter R c) (.leaving (.error e)) := by
  unfold Family.compile enter
  rw [Recipe.compile_take R]
  unfold RuleSource.load
  rcases RuleSource.takeExpressions R.take R.start 0 c.source.expressions with ⟨state, refusal⟩
  cases refusal with
  | some cause => exact .refl _
  | none =>
      have read := gets_read (c := c) (a := a) inside c.source.files state 0 []
      rcases taken : RuleSource.takeFiles s.files.now R.take state 0 c.source.files with
        ⟨state', refusal⟩
      rw [taken] at read
      cases refusal with
      | some cause =>
          simp only [taken]
          exact read
      | none =>
          obtain ⟨index, reads, read⟩ := read
          have last := gets_checked (c := c) (a := a) inside state' index reads
          simp only [taken]
          split at last
          · rename_i refused
            simp only [refused, if_true]
            exact read.trans last
          · rename_i accepted
            simp only [accepted]
            exact ⟨reads, read.trans last⟩

/-- An attempt that gets to the end lets go of the lock. -/
theorem play_leaving (inside : i < s.attempts.length) {outcome : Except Fault RebuildSummary}
    (gets : Gets c s i a phase (.leaving outcome)) :
    ∃ n, (s.become i a phase).play c (List.replicate n (.advance i)) =
      { s.become i a (.finished outcome) with holder := none } := by
  obtain ⟨n, played⟩ := gets
  refine ⟨n + 1, ?_⟩
  rw [List.replicate_succ', play_append, played]
  have last := become_become s i a (.leaving outcome) (.finished outcome)
  exact (move_become inside).trans (congrArg (fun t => { t with holder := none }) last)

/-- An attempt that gets to its table and all references publishes, and lets go of the lock. -/
theorem play_resolving (inside : i < s.attempts.length) {table : D.Table}
    {references reads : List Nat}
    (gets : Gets c s i a phase (.resolving table references [] reads)) :
    ∃ n, (s.become i a phase).play c (List.replicate n (.advance i)) =
      { s.become i a (.finished (.ok ⟨D.size table, c.sets.length⟩)) with
        holder := none, published := ⟨table, references, reads⟩ :: s.published } := by
  obtain ⟨n, played⟩ := gets
  -- The last two steps are those from the publication on.
  let after : Site R := { s with published := ⟨table, references, reads⟩ :: s.published }
  obtain ⟨m, left⟩ := play_leaving (s := after) (c := c) (a := a) inside (.refl _)
  refine ⟨n + (1 + m), ?_⟩
  rw [List.replicate_add, play_append, played, List.replicate_add, play_append]
  refine .trans (congrArg (play c · _) ?_) left
  have published := become_become s i a (.resolving table references [] reads)
    (.leaving (.ok ⟨D.size table, c.sets.length⟩))
  exact (move_become inside).trans
    (congrArg (fun t => { t with published := ⟨table, references, reads⟩ :: s.published })
      published)

/-- An attempt that takes the lock. -/
theorem play_enter (waiting : s.attempts[i]? = some a) (phase : a.phase = .waiting)
    (free : s.holder = none) (moves : List (Move D)) :
    s.play c (.advance i :: moves) =
      (({ s with holder := some i } : Site R).become i a (enter R c)).play c moves := by
  refine congrArg (play c · moves) ?_
  unfold move
  dsimp only
  rw [waiting]
  simp only [advance, phase, free]
  rfl

end Site

open Site in
/-- An attempt that finds the lock free and that nothing disturbs ends as a rebuild does, and
publishes the same. -/
theorem rebuild_eq_play {f : Family D} {id : Nat} {c : Composite}
    (composite : f.composites[id]? = some c) {R : Recipe D} {s : Site R} (free : s.holder = none)
    (reloading : Bool) :
    ∃ n,
      let later := s.play c (.call reloading :: List.replicate n (.advance s.attempts.length))
      later.holder = none ∧
      match f.rebuild id s.files.now (fun _ => s.tags) reloading with
      | .error e => later.published = s.published ∧
          later.attempts = s.attempts ++ [⟨reloading, s.files.version, .finished (.error e)⟩]
      | .ok (summary, _, f') => f' = { f with groups := f.groups.publish id later.members } ∧
          later.attempts =
            s.attempts ++ [⟨reloading, s.files.version, .finished (.ok summary)⟩] := by
  let a : Attempt R := ⟨reloading, s.files.version, .waiting⟩
  let called : Site R := { s with attempts := s.attempts ++ [a] }
  let held : Site R := { called with holder := some s.attempts.length }
  have inside : s.attempts.length < held.attempts.length := by simp [held, called]
  have waiting : called.attempts[s.attempts.length]? = some a := List.getElem?_concat_length
  have become (phase : Phase R) : (held.become s.attempts.length a phase).attempts =
      s.attempts ++ [{ a with phase }] := by
    simp [Site.become, held, called]
  have play (n : Nat) :
      s.play c (.call reloading :: List.replicate (n + 1) (.advance s.attempts.length)) =
        (held.become s.attempts.length a (enter R c)).play c
          (List.replicate n (.advance s.attempts.length)) := by
    rw [List.replicate_succ]
    exact play_enter (s := called) waiting rfl free _
  have compiled := gets_compiled (R := R) (c := c) (a := a) inside
  have fails {e : Fault}
      (gets : Gets c held s.attempts.length a (enter R c) (.leaving (.error e))) :
      ∃ n,
        let later := s.play c (.call reloading :: List.replicate n (.advance s.attempts.length))
        later.holder = none ∧ later.published = s.published ∧
          later.attempts = s.attempts ++ [⟨reloading, s.files.version, .finished (.error e)⟩] := by
    obtain ⟨n, played⟩ := play_leaving inside gets
    refine ⟨n + 1, ?_⟩
    rw [play n, played]
    exact ⟨rfl, rfl, become _⟩
  unfold Family.rebuild
  simp only [composite]
  cases built : Family.compile (D := D) c s.files.now reloading with
  | error e =>
      rw [built] at compiled
      exact fails compiled
  | ok table =>
      rw [built] at compiled
      obtain ⟨reads, compiled⟩ := compiled
      have resolved := gets_resolved (R := R) (c := c) (a := a) inside c.sets table [] reads
      cases found : Family.resolve s.tags c.sets with
      | error e =>
          rw [found] at resolved
          exact fails (compiled.trans resolved)
      | ok references =>
          rw [found] at resolved
          obtain ⟨n, played⟩ := play_resolving inside (compiled.trans resolved)
          refine ⟨n + 1, ?_⟩
          rw [play n, played]
          exact ⟨rfl, rfl, become _⟩

end LiveRules
