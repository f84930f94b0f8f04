import LiveRules.Proofs.Rules.Rebuilding
import LiveRules.Proofs.Watch.Events

/-!
# Sets that are kept up to date

A set that follows its files is constructed step by step. It is rebuilt, then the
canonical places of its files are found, and then the notifier is asked to listen to one
directory after another. From then on the event loop takes what the notifier has told,
and every path that has settled calls for a reload. The files may change at any time,
also between two steps of the construction, and so may what the tags stand for. The
notifier tells of what happens in a directory as soon as it listens to it.
-/
namespace LiveRules
variable {D : Dialect}

namespace Watch.Watcher
variable {w : Watcher}

/-- What is told of a change; nothing if it is in no directory that is listened to. -/
def tellings (w : Watcher) (change : Files.Change) : List Notice :=
  if (w.tells change).paths.isEmpty then [] else [.event (w.tells change)]

/-- What is told of changes that follow each other, and the watcher after them. -/
def hear (w : Watcher) : List Files.Change → List Notice × Watcher
  | [] => ([], w)
  | change :: changes =>
      let (later, w') := (w.follow change).hear changes
      (w.tellings change ++ later, w')

/-- Some change of a watched path is told. -/
def Noticed (w : Watcher) (changes : List Files.Change) : Prop :=
  ∃ n ∈ (w.hear changes).1, w.hits n ≠ []

/-- The names under which directories are listened to. -/
def names (w : Watcher) : List String := w.listening.map (·.name)

/-- To listen changes nothing but where the directories are. -/
theorem hear_eq (w : Watcher) (changes : List Files.Change) :
    ∃ listening, (w.hear changes).2 = { w with listening } ∧
      listening.map (·.name) = w.names := by
  induction changes generalizing w with
  | nil => exact ⟨w.listening, rfl, rfl⟩
  | cons change changes ih =>
      obtain ⟨listening, heard, names⟩ := ih (w.follow change)
      refine ⟨listening, heard, names.trans ?_⟩
      rw [Watcher.names, follow, List.map_map]
      rfl

theorem hits_hear (w : Watcher) (changes : List Files.Change) (n : Notice) :
    (w.hear changes).2.hits n = w.hits n := by
  obtain ⟨listening, heard, -⟩ := w.hear_eq changes
  rw [heard]
  rfl

/-- Without directories nothing is told. -/
theorem hear_deaf (deaf : w.listening = []) (changes : List Files.Change) :
    w.hear changes = ([], w) := by
  have reports (loc : Files.Location) : w.reportsOf loc = [] := by
    unfold reportsOf
    split
    · rfl
    · rw [deaf]
      rfl
  induction changes with
  | nil => rfl
  | cons change changes ih =>
      have silent : w.tellings change = [] := by
        cases change <;> simp [tellings, tells, reports]
      have still : w.follow change = w := by
        rw [follow, deaf, List.map_nil, ← deaf]
      rw [hear, still, ih, silent]
      rfl

theorem not_noticed_deaf (deaf : w.listening = []) (changes : List Files.Change) :
    ¬ w.Noticed changes := by
  rintro ⟨n, told, -⟩
  rw [hear_deaf deaf] at told
  cases told

theorem hear_handle (w : Watcher) (now : Nat) (n : Notice) (changes : List Files.Change) :
    (w.handle now n).hear changes = ((w.hear changes).1, (w.hear changes).2.handle now n) := by
  induction changes generalizing w with
  | nil => rfl
  | cons change changes ih =>
      have first : (w.handle now n).tellings change = w.tellings change := by
        cases change <;> rfl
      have later : ((w.handle now n).follow change).hear changes =
          (((w.follow change).hear changes).1,
            ((w.follow change).hear changes).2.handle now n) := ih (w.follow change)
      rw [hear, first, later]
      rfl

/-- An event without paths does nothing, so it does not matter that it is not told. -/
theorem handle_tellings (w w' : Watcher) (now : Nat) (change : Files.Change) :
    (w.tellings change).foldl (·.handle now) w' = w'.handle now (.event (w.tells change)) := by
  unfold tellings
  split
  · rename_i none
    have misses : w'.hits (.event (w.tells change)) = [] := by
      simp [hits, List.isEmpty_iff.mp none]
    rw [handle, misses]
    rfl
  · rfl

/-- To take at once what is told of changes is to observe them. -/
theorem handle_heard (opened : w.closed = false) (now : Nat) (changes : List Files.Change) :
    (w.hear changes).1.foldl (·.handle now) (w.hear changes).2 =
      changes.foldl (·.observe now) w := by
  induction changes generalizing w with
  | nil => rfl
  | cons change changes ih =>
      let n : Notice := .event (w.tells change)
      have observed : w.observe now change = (w.follow change).handle now n :=
        observe_eq opened now change
      have heard := hear_handle (w.follow change) now n changes
      have others := ih (w := (w.follow change).handle now n) opened
      rw [heard] at others
      rw [List.foldl_cons, observed, ← others, hear]
      dsimp only
      rw [List.foldl_append, handle_tellings]

end Watch.Watcher

/-- How far the construction of a set is. -/
inductive Stage where
  /-- The first rebuild is under way. -/
  | rebuilding
  /-- The places of these files are still to be found. -/
  | placing (files : List String)
  /-- These directories are still to be listened to. -/
  | listening (dirs : List String)
  | watching
  /-- There will be no set. -/
  | failed
  deriving DecidableEq, Repr

/-- A set that follows its files, and all that works for it. -/
structure Upkeep (R : Recipe D) where
  site : Site R
  watcher : Watch.Watcher
  stage : Stage := .rebuilding
  /-- What was told and is not taken yet, the oldest first. -/
  notices : List Watch.Notice := []
  clock : Nat := 0

namespace Upkeep
open Watch (Watcher PathSet)
variable {R : Recipe D} {c : Composite} {u u' u'' : Upkeep R}

inductive Move where
  /-- The construction gets on. -/
  | construct
  /-- A rebuild gets on. -/
  | advance (attempt : Nat)
  /-- Other files, and what happened to get there. -/
  | edit (files : Files.Tree) (changes : List Files.Change)
  | retag (tags : String → Except ProviderError Nat)
  /-- The event loop takes what was told first. -/
  | deliver
  /-- The event loop looks for paths that have settled. -/
  | wake
  | pass (time : Nat)
  /-- Somebody asks for a reload. -/
  | reload

/-- Neither do files change nor does anybody ask for a reload. -/
def Move.Quiet : Move → Prop
  | .edit .. | .reload => False
  | _ => True

/-- A watcher that knows no files yet. -/
def blank (c : Composite) (debounce : Nat) (includeRename : Bool) : Watcher where
  name := c.tag
  paths := {}
  includeRename
  debouncer := ⟨debounce, []⟩

/-- The first rebuild is called for. -/
def initial (R : Recipe D) (c : Composite) (debounce : Nat) (includeRename : Bool)
    (files : Files.Tree) (tags : String → Except ProviderError Nat) : Upkeep R where
  site := (Site.initial R files tags).move c (.call false)
  watcher := blank c debounce includeRename

/-- One step of the construction, if it can take one. -/
def construct (c : Composite) (u : Upkeep R) : Upkeep R :=
  match u.stage with
  | .rebuilding =>
      match u.site.attempts with
      | ⟨_, _, .finished (.ok _)⟩ :: _ => { u with stage := .placing c.source.files }
      | ⟨_, _, .finished (.error _)⟩ :: _ => { u with stage := .failed }
      | _ => u
  | .placing (path :: rest) =>
      match u.site.files.now.canonical path with
      | .ok loc =>
          { u with
            watcher := { u.watcher with paths := u.watcher.paths.insert loc.text }
            stage := .placing rest }
      | .error _ => { u with stage := .failed }
  | .placing [] =>
      if u.watcher.paths.paths.isEmpty then { u with stage := .failed }
      else { u with stage := .listening u.watcher.paths.dirs }
  | .listening (dir :: rest) =>
      match u.site.files.now.resolve dir with
      | .ok loc =>
          { u with
            watcher := { u.watcher with
              listening := u.watcher.listening ++ [⟨dir, some loc⟩] }
            stage := .listening rest }
      | .error _ => { u with stage := .failed }
  | .listening [] => { u with stage := .watching }
  | .watching | .failed => u

def edit (c : Composite) (u : Upkeep R) (files : Files.Tree) (changes : List Files.Change) :
    Upkeep R :=
  { u with
    watcher := (u.watcher.hear changes).2
    site := u.site.move c (.edit files)
    notices := u.notices ++ (u.watcher.hear changes).1 }

/-- Each path that has settled calls for a reload of its own. -/
def wake (c : Composite) (u : Upkeep R) : Upkeep R :=
  { u with
    watcher := (u.watcher.take u.clock).2
    site := u.site.play c ((u.watcher.take u.clock).1.map fun _ => .call true) }

/-- The event loop starts and reloads are possible as soon as the set is there. -/
def move (c : Composite) (u : Upkeep R) : Move → Upkeep R
  | .construct => u.construct c
  | .advance i => { u with site := u.site.move c (.advance i) }
  | .edit files changes => u.edit c files changes
  | .retag tags => { u with site := u.site.move c (.retag tags) }
  | .deliver =>
      match u.stage, u.notices with
      | .watching, n :: rest => { u with watcher := u.watcher.handle u.clock n, notices := rest }
      | _, _ => u
  | .wake => if u.stage = .watching then u.wake c else u
  | .pass time => { u with clock := u.clock + time }
  | .reload => if u.stage = .watching then { u with site := u.site.move c (.call true) } else u

/-- What a move can do. -/
inductive Does (c : Composite) (u : Upkeep R) : Move → Upkeep R → Prop
  | stays {m : Move} : Does c u m u
  | construct : Does c u .construct (u.construct c)
  | advance (i : Nat) : Does c u (.advance i) { u with site := u.site.move c (.advance i) }
  | edit (files : Files.Tree) (changes : List Files.Change) :
      Does c u (.edit files changes) (u.edit c files changes)
  | retag (tags : String → Except ProviderError Nat) :
      Does c u (.retag tags) { u with site := u.site.move c (.retag tags) }
  | deliver {n : Watch.Notice} {rest : List Watch.Notice} : u.notices = n :: rest →
      Does c u .deliver { u with watcher := u.watcher.handle u.clock n, notices := rest }
  | wake : Does c u .wake (u.wake c)
  | pass (time : Nat) : Does c u (.pass time) { u with clock := u.clock + time }
  | reload : Does c u .reload { u with site := u.site.move c (.call true) }

theorem does_move (c : Composite) (u : Upkeep R) (m : Move) : Does c u m (u.move c m) := by
  cases m with
  | construct => exact .construct
  | advance i => exact .advance i
  | edit files changes => exact .edit files changes
  | retag tags => exact .retag tags
  | deliver =>
      dsimp only [move]
      split
      · exact .deliver ‹_›
      · exact .stays
  | wake =>
      dsimp only [move]
      split
      · exact .wake
      · exact .stays
  | pass time => exact .pass time
  | reload =>
      dsimp only [move]
      split
      · exact .reload
      · exact .stays

/-- The event loop leaves the watcher as it is, but for what it waits for. -/
theorem watcher_wake (c : Composite) (u : Upkeep R) :
    ∃ debouncer, (u.wake c).watcher = { u.watcher with debouncer } := by
  unfold wake Watcher.take
  split
  · exact ⟨u.watcher.debouncer, rfl⟩
  · exact ⟨_, rfl⟩

/-- Only the construction gets to another stage, or the watcher to other paths and
directories. -/
theorem Does.frame {m : Move} (does : Does c u m u') (other : m ≠ .construct) :
    u'.stage = u.stage ∧ u'.watcher.paths = u.watcher.paths ∧
      u'.watcher.includeRename = u.watcher.includeRename ∧
        u'.watcher.names = u.watcher.names := by
  cases does with
  | construct => exact absurd rfl other
  | stays | advance | retag | pass | reload | deliver => exact ⟨rfl, rfl, rfl, rfl⟩
  | edit files changes =>
      obtain ⟨listening, heard, names⟩ := u.watcher.hear_eq changes
      rw [Upkeep.edit, heard]
      exact ⟨rfl, rfl, rfl, names⟩
  | wake =>
      obtain ⟨debouncer, same⟩ := watcher_wake c u
      rw [same]
      exact ⟨rfl, rfl, rfl, rfl⟩

def play (c : Composite) (u : Upkeep R) (moves : List Move) : Upkeep R :=
  moves.foldl (move c) u

theorem play_append (c : Composite) (u : Upkeep R) (moves moves' : List Move) :
    u.play c (moves ++ moves') = (u.play c moves).play c moves' := List.foldl_append

theorem site_construct (c : Composite) (u : Upkeep R) : (u.construct c).site = u.site := by
  unfold construct
  repeat' split
  all_goals rfl

/-- A move comes to moves of the site. -/
theorem site_move (c : Composite) (u : Upkeep R) (m : Move) :
    ∃ moves, (u.move c m).site = u.site.play c moves := by
  have does := does_move c u m
  generalize u.move c m = u' at does ⊢
  cases does with
  | stays | deliver | pass => exact ⟨[], rfl⟩
  | construct => exact ⟨[], site_construct c u⟩
  | advance i => exact ⟨[.advance i], rfl⟩
  | edit files => exact ⟨[.edit files], rfl⟩
  | retag tags => exact ⟨[.retag tags], rfl⟩
  | wake => exact ⟨_, rfl⟩
  | reload => exact ⟨[.call true], rfl⟩

/-- The construction comes from one state to another one, and nothing else happens. -/
def Constructs (c : Composite) (u u' : Upkeep R) : Prop :=
  ∃ n, u.play c (List.replicate n .construct) = u'

theorem Constructs.refl (u : Upkeep R) : u.Constructs c u := ⟨0, rfl⟩

theorem Constructs.step (first : u.construct c = u') (rest : u'.Constructs c u'') :
    u.Constructs c u'' := by
  obtain ⟨n, rfl⟩ := rest
  exact ⟨n + 1, by rw [List.replicate_succ, ← first]; rfl⟩

theorem Constructs.trans (first : u.Constructs c u') (rest : u'.Constructs c u'') :
    u.Constructs c u'' := by
  obtain ⟨n, rfl⟩ := first
  obtain ⟨m, rfl⟩ := rest
  exact ⟨n + m, by rw [List.replicate_add, play_append]⟩

/-- The places are found one after another as they are at once. -/
theorem constructs_places (c : Composite) (rest : List String) (placing : u.stage = .placing rest) :
    match u.watcher.paths.addAll u.site.files.now rest with
    | .ok paths =>
        u.Constructs c { u with watcher := { u.watcher with paths }, stage := .placing [] }
    | .error _ => ∃ watcher, u.Constructs c { u with watcher, stage := .failed } := by
  induction rest generalizing u with
  | nil =>
      rw [PathSet.addAll, ← placing]
      exact .refl u
  | cons path rest ih =>
      unfold PathSet.addAll
      cases found : u.site.files.now.canonical path with
      | error cause =>
          have one : u.construct c = { u with stage := .failed } := by
            simp only [construct, placing, found]
          exact ⟨u.watcher, .step one (.refl _)⟩
      | ok loc =>
          let u' : Upkeep R :=
            { u with
              watcher := { u.watcher with paths := u.watcher.paths.insert loc.text }
              stage := .placing rest }
          have one : u.construct c = u' := by
            simp only [construct, placing, found, u']
          have others := ih (u := u') rfl
          dsimp only
          split
          · rename_i paths added
            simp only [u', added] at others
            exact .step one others
          · rename_i refused added
            simp only [u', added] at others
            obtain ⟨watcher, others⟩ := others
            exact ⟨watcher, .step one others⟩

/-- The directories are listened to one after another as they are at once. -/
theorem constructs_listening (c : Composite) (name : String) (rest : List String)
    (listening : u.stage = .listening rest) :
    match (Watcher.listen u.site.files.now name rest).2 with
    | .ok more => u.Constructs c
        { u with
          watcher := { u.watcher with listening := u.watcher.listening ++ more }
          stage := .watching }
    | .error _ => ∃ watcher, u.Constructs c { u with watcher, stage := .failed } := by
  induction rest generalizing u with
  | nil =>
      have one : u.construct c = { u with stage := .watching } := by
        simp only [construct, listening]
      rw [Watcher.listen]
      simp only [List.append_nil]
      exact .step one (.refl _)
  | cons dir rest ih =>
      unfold Watcher.listen
      cases found : u.site.files.now.resolve dir with
      | error cause =>
          have one : u.construct c = { u with stage := .failed } := by
            simp only [construct, listening, found]
          exact ⟨u.watcher, .step one (.refl _)⟩
      | ok loc =>
          let u' : Upkeep R :=
            { u with
              watcher := { u.watcher with listening := u.watcher.listening ++ [⟨dir, some loc⟩] }
              stage := .listening rest }
          have one : u.construct c = u' := by
            simp only [construct, listening, found, u']
          have others := ih (u := u') rfl
          rcases heard : Watcher.listen u.site.files.now name rest with ⟨events, result⟩
          cases result with
          | error e =>
              simp only [u', heard] at others ⊢
              obtain ⟨watcher, others⟩ := others
              exact ⟨watcher, .step one others⟩
          | ok more =>
              simp only [u', heard, List.append_assoc, List.singleton_append] at others ⊢
              exact .step one others

/-- What a new watcher of the files of a composite is asked to do. -/
def request (c : Composite) (debounce : Nat) (includeRename : Bool) : Watch.Request where
  name := c.tag
  paths := c.source.files
  debounce
  includeRename

/-- If nothing disturbs the construction it comes to the watcher that is started at once. -/
theorem constructs_start {debounce : Nat} {includeRename : Bool}
    (placing : u.stage = .placing c.source.files)
    (new : u.watcher = blank c debounce includeRename) :
    match (Watcher.start u.site.files.now (request c debounce includeRename)).2 with
    | .ok watcher => u.Constructs c { u with watcher, stage := .watching }
    | .error _ => ∃ watcher, u.Constructs c { u with watcher, stage := .failed } := by
  have places := constructs_places c c.source.files placing
  rw [new, blank] at places
  unfold Watcher.start request
  cases added : PathSet.addAll u.site.files.now {} c.source.files with
  | error refused =>
      simp only [added] at places ⊢
      exact places
  | ok paths =>
      simp only [added] at places ⊢
      by_cases none : paths.paths.isEmpty = true
      · simp only [none, if_true]
        let watcher : Watcher := { blank c debounce includeRename with paths }
        have one : { u with watcher, stage := .placing [] }.construct c =
            { u with watcher, stage := .failed } := by
          simp only [construct, watcher, none, if_true]
        exact ⟨watcher, places.trans (.step one (.refl _))⟩
      · simp only [none]
        let u' : Upkeep R :=
          { u with
            watcher := { blank c debounce includeRename with paths }
            stage := .listening paths.dirs }
        have one : u.Constructs c u' := by
          refine places.trans (.step ?_ (.refl _))
          simp only [construct, none, u']
          rfl
        have listening := constructs_listening (u := u') c c.tag paths.dirs rfl
        rcases heard : Watcher.listen u.site.files.now c.tag paths.dirs with ⟨events, result⟩
        cases result with
        | error e =>
            simp only [u', heard] at listening ⊢
            obtain ⟨watcher, listening⟩ := listening
            exact ⟨watcher, one.trans listening⟩
        | ok more =>
            simp only [u', heard] at listening ⊢
            exact one.trans listening

end Upkeep
end LiveRules
