import LiveRules.Proofs.Engine.Background
import LiveRules.Proofs.Intel.Expiring
import LiveRules.Proofs.Watch.Deadlines

/-!
# What is set for good about time

How long a gate keeps verdicts and how long a watcher waits is set when they are made. The
clock never goes back, and watchers note changes when they happen. Whatever else an engine
does leaves all of this as it is.
-/
namespace LiveRules.Engine
variable [PatternLanguage]

/-- The gates, and how long they keep verdicts. -/
def lifetimes (s : Engine) : List (String × Nat) := s.gates.map Intel.Gate.lifetime

/-- How long the watchers wait after a change. -/
def windows (s : Engine) : List Nat := s.watches.map fun w => w.watcher.debouncer.window

/-- No watcher has noted a change that is yet to come. -/
def Past (s : Engine) : Prop := ∀ w ∈ s.watches, w.watcher.debouncer.Past s.now

/-- What work on an engine leaves as it is while time goes on. -/
structure Ticks (s s' : Engine) : Prop where
  now : s.now ≤ s'.now
  lifetimes : s'.lifetimes = s.lifetimes
  windows : s'.windows = s.windows
  past : s.Past → s'.Past

namespace Ticks
variable {s s' s'' : Engine}

theorem of_eq (now : s.now ≤ s'.now) (gates : s'.gates = s.gates)
    (watches : s'.watches = s.watches) : Ticks s s' where
  now := now
  lifetimes := congrArg (List.map Intel.Gate.lifetime) gates
  windows := congrArg (List.map fun w : Watch => w.watcher.debouncer.window) watches
  past := fun past w listed => (past w (watches ▸ listed)).mono now

theorem refl (s : Engine) : Ticks s s := of_eq (Nat.le_refl _) rfl rfl

theorem trans (first : Ticks s s') (second : Ticks s' s'') : Ticks s s'' where
  now := Nat.le_trans first.now second.now
  lifetimes := second.lifetimes.trans first.lifetimes
  windows := second.windows.trans first.windows
  past := fun past => second.past (first.past past)

theorem tell (s : Engine) (events : List LogEvent) : Ticks s (s.tell events) :=
  of_eq (Nat.le_refl _) rfl rfl

/-- A watcher goes on with the same window. -/
theorem updateWatch {id : Nat} {f : Watch → Watch}
    (window : ∀ w, s.watches[id]? = some w →
      (f w).watcher.debouncer.window = w.watcher.debouncer.window)
    (past : ∀ w, s.watches[id]? = some w → w.watcher.debouncer.Past s.now →
      (f w).watcher.debouncer.Past s.now) : Ticks s (s.updateWatch id f) where
  now := Nat.le_refl _
  lifetimes := rfl
  windows := by
    refine List.ext_getElem? fun i => ?_
    simp only [Engine.windows, Engine.updateWatch, List.getElem?_map, List.getElem?_modify]
    by_cases here : id = i
    · subst here
      cases there : s.watches[id]? with
      | none => rfl
      | some w => simp [window w there]
    · simp [here]
  past := by
    intro old w listed
    obtain ⟨i, there⟩ := List.mem_iff_getElem?.mp listed
    rw [Engine.updateWatch, List.getElem?_modify, Option.map_eq_map,
      Option.map_eq_some_iff] at there
    obtain ⟨w', there, rfl⟩ := there
    have noted := old w' (List.mem_of_getElem? there)
    split
    · rename_i here
      exact past w' (here ▸ there) noted
    · exact noted

theorem observe (s : Engine) (changes : List Files.Change) : Ticks s (s.observe changes) := by
  have each (w : Watch.Watcher) :
      (changes.foldl (fun w c => w.observe s.now c) w).debouncer.window = w.debouncer.window ∧
      (w.debouncer.Past s.now →
        (changes.foldl (fun w c => w.observe s.now c) w).debouncer.Past s.now) := by
    induction changes generalizing w with
    | nil => exact ⟨rfl, id⟩
    | cons c changes ih =>
        have ⟨window, past⟩ := ih (w.observe s.now c)
        exact ⟨window.trans (w.window_observe s.now c),
          fun old => past (Watch.Watcher.past_observe old c)⟩
  constructor
  · exact Nat.le_refl _
  · rfl
  · simp only [Engine.windows, Engine.observe, List.map_map]
    exact List.map_congr_left fun w _ => (each w.watcher).1
  · intro old w listed
    obtain ⟨w', there, rfl⟩ := List.mem_map.mp listed
    exact (each w'.watcher).2 (old w' there)

/-- A gate goes on with the same lifetime. -/
theorem updateGate {id : Nat} {g g' : Intel.Gate} (there : s.gates[id]? = some g)
    (same : g'.lifetime = g.lifetime) : Ticks s (s.updateGate id g') where
  now := Nat.le_refl _
  lifetimes := by
    have kept : s.lifetimes[id]? = some g'.lifetime := by
      rw [Engine.lifetimes, List.getElem?_map, there, Option.map_some, same]
    obtain ⟨inside, kept⟩ := List.getElem?_eq_some_iff.mp kept
    change (s.gates.set id g').map Intel.Gate.lifetime = s.lifetimes
    rw [List.map_set, ← kept]
    exact List.set_getElem_self inside
  windows := rfl
  past := fun past => past

theorem foldl {α : Type} {f : Engine → α → Engine} (each : ∀ s a, Ticks s (f s a)) (l : List α)
    (s : Engine) : Ticks s (l.foldl f s) :=
  List.foldlRecOn l f (refl s) fun s' before a _ => before.trans (each s' a)

end Ticks

/-! ## Work on an engine -/

theorem ticks_changeFiles (s : Engine)
    (change : Files.Tree → Except Files.ReadError (Files.Tree × List Files.Change)) :
    Ticks s (s.changeFiles change).2 := by
  unfold changeFiles
  split
  · rename_i files changes _
    have stored : Ticks s { s with files } := .of_eq (Nat.le_refl _) rfl rfl
    exact stored.trans (.observe _ changes)
  · exact .refl s

theorem ticks_atDesk {α : Type} (s : Engine) (act : Collect.Desk → α × Collect.Desk) :
    Ticks s (s.atDesk act).2 := by
  unfold atDesk
  generalize act { registry := s.collect, files := s.files } = done
  have stored : Ticks s { s with collect := done.2.registry, files := done.2.files } :=
    .of_eq (Nat.le_refl _) rfl rfl
  exact (stored.trans (.observe _ done.2.changes)).trans (.tell _ _)

theorem ticks_rebuild (s : Engine) (k : CompositeKind) (id : Nat) (reloading : Bool) :
    Ticks s (after (rebuild k.access id reloading) s) := by
  rw [after, run_rebuild_eq]
  split
  · exact .refl s
  · rcases k with (_ | _) | _ <;> exact .of_eq (Nat.le_refl _) rfl rfl

theorem ticks_reloadGate (s : Engine) (id : Nat) : Ticks s (after (reloadGate id) s) := by
  rw [reloadGate, after_get_bind]
  split
  · exact .refl s
  · rename_i g there
    split
    · rename_i g' reloaded
      exact .updateGate there (Intel.Gate.lifetime_reload reloaded)
    · exact .refl s

theorem ticks_checkGate (s : Engine) (id : Nat) (lookup : List String → Intel.LookupReply)
    (indicators : List String) : Ticks s (s.checkGate id lookup indicators).2.2 := by
  unfold checkGate
  split
  · exact .refl s
  · rename_i g there
    exact (Ticks.updateGate there (g.lifetime_check s.now lookup indicators)).trans (.tell _ _)

/-- Time brings nothing else. -/
theorem clockwork_ticks : Clockwork Ticks where
  refl := .refl
  trans := .trans
  wait := fun le => .of_eq le rfl rfl
  tell := .tell
  take := fun {s id w} there => .updateWatch
    (fun w' here => by
      obtain rfl := Option.some.inj (there.symm.trans here)
      exact w.watcher.window_take s.now)
    (fun w' here past => by
      obtain rfl := Option.some.inj (there.symm.trans here)
      exact Watch.Watcher.past_take past s.now)
  count := fun _ _ => .updateWatch (fun _ _ => rfl) fun _ _ past => past
  reload := ticks_reloadGate
  rebuild := ticks_rebuild
  background := fun _ ticks => ⟨ticks.now, ticks.lifetimes, ticks.windows, ticks.past⟩

theorem ticks_closeWatch (s : Engine) (id : Nat) : Ticks s (s.closeWatch id) := by
  unfold closeWatch
  split
  · exact .refl s
  · rename_i w there
    refine (Ticks.updateWatch (fun w' here => ?_) fun w' here past => ?_).trans (.tell _ _)
    · obtain rfl := Option.some.inj (there.symm.trans here)
      exact w.watcher.window_close
    · obtain rfl := Option.some.inj (there.symm.trans here)
      exact Watch.Watcher.past_close past

theorem ticks_closeProvider (s : Engine) (id : Nat) : Ticks s (s.closeProvider id) := by
  unfold closeProvider
  split
  · exact .refl s
  · split
    · exact ticks_atDesk s _
    · exact .of_eq (Nat.le_refl _) rfl rfl
    · split
      · exact ticks_closeWatch s _
      · exact .refl s

theorem ticks_sweep (s : Engine) (id : Nat) : Ticks s (s.sweep id) := by
  unfold sweep
  split
  · exact .refl s
  · split
    · exact .refl s
    · exact ticks_closeProvider s id

theorem ticks_closeAll (s : Engine) : Ticks s s.closeAll := by
  have emptied : Ticks s { s with registry := { s.registry with providers := [] } } :=
    .of_eq (Nat.le_refl _) rfl rfl
  have closed := emptied.trans (.foldl ticks_closeProvider (s.registry.providers.map (·.2)) _)
  exact closed.trans (.foldl ticks_sweep (s.registry.providers.map (·.2)) _)

/-! ## Checks that end the program -/

section
variable {s : Engine} {start reading : Instant} {id : Nat}

/-- A check with a gate of a lifetime in seconds. -/
theorem checkGate?_seconds {tag : String} {seconds : Nat}
    (there : s.lifetimes[id]? = some (tag, seconds * 1000))
    (reads : start.later? s.now = some reading) (lookup : List String → Intel.LookupReply)
    (indicators : List String) :
    s.checkGate? start id lookup indicators =
      if Intel.gained lookup (s.checkGate id lookup indicators).2.1 = [] ∨
          reading.seconds.toInt + seconds < 2 ^ 63 then
        some (s.checkGate id lookup indicators)
      else none := by
  rw [lifetimes, List.getElem?_map, Option.map_eq_some_iff] at there
  obtain ⟨g, there, lifetime⟩ := there
  have ttl : g.cache.ttl = seconds * 1000 := congrArg Prod.snd lifetime
  simp only [checkGate?, checkGate, there]
  rw [g.check?_seconds reads ttl]
  split <;> rfl

end
end LiveRules.Engine
