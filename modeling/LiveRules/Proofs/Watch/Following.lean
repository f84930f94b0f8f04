import LiveRules.Proofs.Rules.Current
import LiveRules.Proofs.Watch.Upkeep

/-!
# What reaches the rules, and what is lost

A set has begun to follow its files only when the last directory is listened to, and it
hears of those paths only that the files had at that time. Each change that it notices,
and each one that comes before a file is read, ends up in the rules, in whatever order
the construction, the event loop and the reloads take their steps. Every other change is
lost until the next one that is noticed or the next reload that somebody asks for.
-/
namespace LiveRules
variable {D : Dialect}

namespace Stage

/-- The first rebuild has succeeded. -/
def begun : Stage → Bool
  | .placing _ | .listening _ | .watching => true
  | .rebuilding | .failed => false

/-- No directory is listened to yet. -/
def deaf : Stage → Bool
  | .rebuilding | .placing _ => true
  | .listening _ | .watching | .failed => false

end Stage

namespace Upkeep
open Watch (Watcher Debouncer Notice)
variable {R : Recipe D} {c : Composite} {u u' : Upkeep R}

/-- What holds at all times. -/
structure Orderly (c : Composite) (u : Upkeep R) : Prop where
  sound : Site.Sound c u.site
  blamed : ∀ a ∈ u.site.attempts, u.site.Blamed c a
  begun : u.stage.begun = true → u.site.published ≠ []
  deaf : u.stage.deaf = true → u.watcher.listening = [] ∧ u.notices = []
  heard : u.watcher.listening ≠ [] → u.site.published ≠ []

/-- Some reload is yet to come that reads the files as they are. -/
def Due (c : Composite) (u : Upkeep R) : Prop :=
  (∃ n ∈ u.notices, u.watcher.hits n ≠ []) ∨ u.watcher.debouncer.pending ≠ [] ∨
    u.site.Reloads c

/-- The rules are up to date, or they will be. -/
def Kept (c : Composite) (u : Upkeep R) : Prop :=
  u.site.Current c ∨ u.site.published ≠ [] ∧ u.Due c

/-- Nothing is left to do. -/
structure Idle (u : Upkeep R) : Prop where
  told : ∀ n ∈ u.notices, u.watcher.hits n = []
  waits : u.watcher.debouncer.pending = []
  ended : ∀ a ∈ u.site.attempts, ∃ outcome, a.phase = .finished outcome

/-- The move is no change of the files that the set could miss. -/
def Minds (c : Composite) (u : Upkeep R) : Move → Prop
  | .edit files changes => u.site.Harmless c files ∨ u.watcher.Noticed changes
  | _ => True

/-- No change of the files is missed. -/
def Attended (c : Composite) (u : Upkeep R) : List Move → Prop
  | [] => True
  | m :: moves => u.Minds c m ∧ (u.move c m).Attended c moves

theorem published_ne_nil (some : u.site.published ≠ []) (c : Composite) (m : Move) :
    (u.move c m).site.published ≠ [] := by
  obtain ⟨moves, played⟩ := site_move c u m
  rw [played]
  exact fun none => some (List.suffix_nil.mp (none ▸ Site.published_play c u.site moves))

/-- Who listens to nothing is not told anything. -/
theorem Does.silent {m : Move} (does : Does c u m u') (other : m ≠ .construct)
    (deaf : u.watcher.listening = []) (none : u.notices = []) : u'.notices = [] := by
  cases does with
  | construct => exact absurd rfl other
  | stays | advance | retag | pass | reload | wake => exact none
  | deliver next => simp [none] at next
  | edit files changes => rw [Upkeep.edit, Watcher.hear_deaf deaf, none, List.append_nil]

namespace Orderly

theorem opened (c : Composite) (debounce : Nat) (includeRename : Bool) (files : Files.Tree)
    (tags : String → Except ProviderError Nat) :
    Orderly c (initial R c debounce includeRename files tags) where
  sound := (Site.Sound.opened c files tags).move (.call false)
  blamed := Site.blamed_move (.opened c files tags) nofun (.call false)
  begun := nofun
  deaf _ := ⟨rfl, rfl⟩
  heard none := absurd rfl none

theorem construct (orderly : Orderly c u) : Orderly c (u.construct c) := by
  have begun {stage : Stage} (at_ : u.stage = stage) (begun : stage.begun = true) :
      u.site.published ≠ [] := orderly.begun (by rw [at_, begun])
  have deaf {stage : Stage} (at_ : u.stage = stage) (deaf : stage.deaf = true) :
      u.watcher.listening = [] ∧ u.notices = [] := orderly.deaf (by rw [at_, deaf])
  have failed : Orderly c { u with stage := .failed } :=
    ⟨orderly.sound, orderly.blamed, nofun, nofun, orderly.heard⟩
  unfold Upkeep.construct
  split
  · rename_i stage
    split
    · rename_i reloading called summary others attempts
      have here : u.site.attempts[0]? = some ⟨reloading, called, .finished (.ok summary)⟩ := by
        rw [attempts]
        rfl
      obtain ⟨p, published, -⟩ := orderly.sound.progress here
      exact ⟨orderly.sound, orderly.blamed, fun _ => List.ne_nil_of_mem published,
        fun _ => deaf stage rfl, orderly.heard⟩
    · exact failed
    · exact orderly
  · rename_i path rest stage
    split
    · exact ⟨orderly.sound, orderly.blamed, fun _ => begun stage rfl, fun _ => deaf stage rfl,
        orderly.heard⟩
    · exact failed
  · rename_i stage
    split
    · exact failed
    · exact ⟨orderly.sound, orderly.blamed, fun _ => begun stage rfl, nofun, orderly.heard⟩
  · rename_i dir rest stage
    split
    · exact ⟨orderly.sound, orderly.blamed, fun _ => begun stage rfl, nofun,
        fun _ => begun stage rfl⟩
    · exact failed
  · rename_i stage
    exact ⟨orderly.sound, orderly.blamed, fun _ => begun stage rfl, nofun, orderly.heard⟩
  · exact orderly
  · exact orderly

theorem move (orderly : Orderly c u) (m : Move) : Orderly c (u.move c m) := by
  by_cases other : m = .construct
  · rw [other]
    exact orderly.construct
  · have does := does_move c u m
    obtain ⟨stage, -, -, names⟩ := does.frame other
    have listening : (u.move c m).watcher.listening = [] ↔ u.watcher.listening = [] := by
      rw [← List.map_eq_nil_iff, ← List.map_eq_nil_iff (l := u.watcher.listening)]
      exact Eq.congr_left names
    obtain ⟨moves, played⟩ := site_move c u m
    constructor
    · rw [played]
      exact orderly.sound.play moves
    · rw [played]
      exact Site.blamed_play orderly.sound orderly.blamed moves
    · rw [stage]
      exact fun begun => published_ne_nil (orderly.begun begun) c m
    · rw [stage]
      intro deaf
      obtain ⟨none, silent⟩ := orderly.deaf deaf
      exact ⟨listening.mpr none, does.silent other none silent⟩
    · intro some
      exact published_ne_nil (orderly.heard fun none => some (listening.mpr none)) c m

theorem play (orderly : Orderly c u) (moves : List Move) : Orderly c (u.play c moves) := by
  induction moves generalizing u with
  | nil => exact orderly
  | cons m moves ih => exact ih (orderly.move m)

end Orderly

/-- Whoever has notices already knows all the files that are watched. -/
theorem frame_construct (orderly : Orderly c u) :
    (u.construct c).watcher.debouncer = u.watcher.debouncer ∧
      (u.construct c).notices = u.notices ∧
      ∀ n ∈ u.notices, (u.construct c).watcher.hits n = u.watcher.hits n := by
  have silent {rest : List String} (stage : u.stage = .placing rest) : u.notices = [] :=
    (orderly.deaf (by rw [stage]; rfl)).2
  unfold construct
  split
  · split <;> exact ⟨rfl, rfl, fun _ _ => rfl⟩
  · rename_i stage
    rw [silent stage]
    split <;> exact ⟨rfl, rfl, nofun⟩
  · split <;> exact ⟨rfl, rfl, fun _ _ => rfl⟩
  · split <;> exact ⟨rfl, rfl, fun _ _ => rfl⟩
  all_goals exact ⟨rfl, rfl, fun _ _ => rfl⟩

/-- Other steps than changes do not get in the way of a reload that is to come. -/
theorem Due.does {m : Move} (due : u.Due c) (orderly : Orderly c u) (does : Does c u m u')
    (still : ∀ files changes, m ≠ .edit files changes) : u'.Due c := by
  cases does with
  | edit files changes => exact absurd rfl (still files changes)
  | stays | pass | retag => exact due
  | construct =>
      obtain ⟨debouncer, notices, same⟩ := frame_construct orderly
      rw [Due, debouncer, notices, site_construct]
      refine due.imp_left ?_
      rintro ⟨n, listed, hit⟩
      exact ⟨n, listed, by rwa [same n listed]⟩
  | advance i => exact due.imp_right (.imp_right fun reloads => reloads.advance i)
  | deliver next =>
      rcases due with ⟨n, listed, hit⟩ | pending | reloads
      · rw [next] at listed
        rcases List.mem_cons.mp listed with rfl | later
        · exact .inr (.inl (Debouncer.pending_recordAll_ne_nil (.inr hit)))
        · exact .inl ⟨n, later, hit⟩
      · exact .inr (.inl (Debouncer.pending_recordAll_ne_nil (.inl pending)))
      · exact .inr (.inr reloads)
  | wake =>
      rcases due with ⟨n, listed, hit⟩ | pending | reloads
      · refine .inl ⟨n, listed, ?_⟩
        obtain ⟨debouncer, same⟩ := watcher_wake c u
        rwa [same]
      · refine .inr ?_
        unfold wake Watcher.take
        split
        · exact .inl pending
        · rcases Debouncer.take_or_pending pending u.clock with ready | waiting
          · exact .inr (Site.reloads_called c u.site ready)
          · exact .inl waiting
      · exact .inr (.inr (reloads.calls _))
  | reload => exact due.imp_right (.imp_right fun reloads => reloads.calls [()])

/-- A change that is noticed will be read, and one that is harmless is in the rules. -/
theorem Kept.edit (kept : u.Kept c) (orderly : Orderly c u) {files : Files.Tree}
    {changes : List Files.Change} (minds : u.Minds c (.edit files changes)) :
    (u.edit c files changes).Kept c := by
  rcases minds with harmless | noticed
  · refine kept.imp (fun current => current.edit harmless) ?_
    rintro ⟨shown, due⟩
    refine ⟨shown, ?_⟩
    rcases due with ⟨n, listed, hit⟩ | pending | reloads
    · refine .inl ⟨n, List.mem_append_left _ listed, ?_⟩
      rwa [Upkeep.edit, Watcher.hits_hear]
    · obtain ⟨listening, heard, -⟩ := u.watcher.hear_eq changes
      refine .inr (.inl ?_)
      rwa [Upkeep.edit, heard]
    · exact .inr (.inr (reloads.edit shown harmless))
  · have hearing : u.watcher.listening ≠ [] := fun deaf =>
      Watcher.not_noticed_deaf deaf changes noticed
    obtain ⟨n, told, hit⟩ := noticed
    refine .inr ⟨orderly.heard hearing, .inl ⟨n, List.mem_append_right _ told, ?_⟩⟩
    rwa [Upkeep.edit, Watcher.hits_hear]

theorem Kept.move {m : Move} (kept : u.Kept c) (orderly : Orderly c u) (minds : u.Minds c m) :
    (u.move c m).Kept c := by
  by_cases change : ∃ files changes, m = .edit files changes
  · obtain ⟨files, changes, rfl⟩ := change
    exact kept.edit orderly minds
  · have still : ∀ files changes, m ≠ .edit files changes := fun files changes same =>
      change ⟨files, changes, same⟩
    have does := does_move c u m
    refine kept.imp (fun current => ?_) fun ⟨shown, due⟩ =>
      ⟨published_ne_nil shown c m, due.does orderly does still⟩
    generalize u.move c m = u' at does ⊢
    cases does with
    | edit files changes => exact absurd rfl (still files changes)
    | stays | deliver | pass => exact current
    | construct => rwa [site_construct]
    | advance i => exact current.advance orderly.sound i
    | retag tags => exact ⟨current.last, current.first⟩
    | wake => exact current.calls _
    | reload => exact current.call true

theorem Kept.play (kept : u.Kept c) (orderly : Orderly c u) {moves : List Move}
    (attended : u.Attended c moves) : (u.play c moves).Kept c := by
  induction moves generalizing u with
  | nil => exact kept
  | cons m moves ih =>
      obtain ⟨minds, later⟩ := attended
      exact ih (kept.move orderly minds) (orderly.move m) later

/-- When nothing is left to do, what had to be read has been read. -/
theorem follows_of_idle (kept : u.Kept c) (orderly : Orderly c u) (idle : u.Idle)
    (shown : u.site.published ≠ []) : u.site.Follows c := by
  rcases kept with current | ⟨-, ⟨n, listed, hit⟩ | pending | ⟨a, member, reloading, unchanged⟩⟩
  · cases published : u.site.published with
    | nil => exact absurd published shown
    | cons p older =>
        have head : u.site.published.head? = some p := by
          rw [published]
          rfl
        exact Site.follows_of_upToDate orderly.sound head (current.last p head)
  · exact absurd (idle.told n listed) hit
  · exact absurd idle.waits pending
  · obtain ⟨outcome, ended⟩ := idle.ended a member
    exact Site.follows_of_reload orderly.sound member (orderly.blamed a member) reloading
      unchanged ended

/-- Files and rules are as they were. -/
def Same (u u' : Upkeep R) : Prop :=
  u'.site.files = u.site.files ∧ u'.site.published = u.site.published

theorem Idle.advance (idle : u.Idle) (c : Composite) (i : Nat) :
    u.site.move c (.advance i) = u.site := by
  unfold Site.move
  dsimp only
  split
  · rename_i a here
    obtain ⟨outcome, ended⟩ := idle.ended a (List.mem_of_getElem? here)
    rw [Site.advance, ended]
  · rfl

theorem Idle.take (idle : u.Idle) : u.watcher.take u.clock = ([], u.watcher) := by
  unfold Watcher.take
  split
  · rfl
  · rw [Debouncer.take_nil idle.waits]

/-- Without changes and calls nothing begins again. -/
theorem Idle.move {m : Move} (idle : u.Idle) (orderly : Orderly c u) (quiet : m.Quiet) :
    (u.move c m).Idle ∧ u.Same (u.move c m) := by
  have does := does_move c u m
  generalize u.move c m = u' at does ⊢
  cases does with
  | edit | reload => exact absurd quiet id
  | stays | pass => exact ⟨⟨idle.told, idle.waits, idle.ended⟩, rfl, rfl⟩
  | retag => exact ⟨⟨idle.told, idle.waits, idle.ended⟩, rfl, rfl⟩
  | construct =>
      obtain ⟨debouncer, notices, same⟩ := frame_construct orderly
      have site := site_construct c u
      refine ⟨⟨?_, ?_, ?_⟩, ?_⟩
      · rw [notices]
        exact fun n listed => (same n listed).trans (idle.told n listed)
      · rw [debouncer]
        exact idle.waits
      · rw [site]
        exact idle.ended
      · rw [Same, site]
        exact ⟨rfl, rfl⟩
  | advance i =>
      rw [idle.advance]
      exact ⟨⟨idle.told, idle.waits, idle.ended⟩, rfl, rfl⟩
  | @deliver n rest next =>
      have misses := idle.told n (by rw [next]; exact List.mem_cons_self)
      refine ⟨⟨fun n' later => ?_, ?_, idle.ended⟩, rfl, rfl⟩
      · exact idle.told n' (by rw [next]; exact List.mem_cons_of_mem _ later)
      · rw [Watcher.handle, misses]
        exact idle.waits
  | wake =>
      rw [wake, idle.take]
      exact ⟨⟨idle.told, idle.waits, idle.ended⟩, rfl, rfl⟩

theorem Idle.play {moves : List Move} (idle : u.Idle) (orderly : Orderly c u)
    (quiet : ∀ m ∈ moves, m.Quiet) : (u.play c moves).Idle ∧ u.Same (u.play c moves) := by
  induction moves generalizing u with
  | nil => exact ⟨idle, rfl, rfl⟩
  | cons m moves ih =>
      obtain ⟨first, files, published⟩ := idle.move orderly (quiet m List.mem_cons_self)
      obtain ⟨last, files', published'⟩ := ih first (orderly.move m) fun m' later =>
        quiet m' (List.mem_cons_of_mem _ later)
      exact ⟨last, files'.trans files, published'.trans published⟩

/-- A change that is not noticed wakes nobody up. -/
theorem Idle.edit (idle : u.Idle) {changes : List Files.Change}
    (missed : ¬ u.watcher.Noticed changes) (c : Composite) (files : Files.Tree) :
    (u.edit c files changes).Idle := by
  obtain ⟨listening, heard, -⟩ := u.watcher.hear_eq changes
  refine ⟨fun n listed => ?_, ?_, idle.ended⟩
  · rw [Upkeep.edit, Watcher.hits_hear]
    rcases List.mem_append.mp listed with before | told
    · exact idle.told n before
    · by_contra hit
      exact missed ⟨n, told, hit⟩
  · rw [Upkeep.edit, heard]
    exact idle.waits

end Upkeep
end LiveRules
