import LiveRules.Proofs.Engine.Attempts
import LiveRules.Proofs.Engine.Providers

/-!
# Work in the background

While time passes, watchers take what is due and start reloads of sets, tables and
whitelists. Whatever relates an engine to what a reload makes of it, and to what is made of
it by work that leaves sets and plugins alone, relates it to what time makes of it.
-/
namespace LiveRules.Engine
variable [PatternLanguage]

/-- Other work leaves the plugins alone, and starts no watcher. -/
structure Undisturbed (s s' : Engine) : Prop where
  collect : s'.collect = s.collect
  providers : s'.providers = s.providers
  registry : s'.registry = s.registry
  watches : ∀ (i : Nat) (w' : Watch), s'.watches[i]? = some w' → w'.watcher.closed = false →
    ∃ w : Watch, s.watches[i]? = some w ∧ w.watcher.closed = false
  journal : s.journal <+: s'.journal

namespace Undisturbed
variable {s s' s'' : Engine}

theorem of_eq (collect : s'.collect = s.collect)
    (providers : s'.providers = s.providers) (registry : s'.registry = s.registry)
    (watches : s'.watches = s.watches) (journal : s.journal <+: s'.journal) :
    Undisturbed s s' where
  collect := collect
  providers := providers
  registry := registry
  watches := fun _ w there opened => ⟨w, watches ▸ there, opened⟩
  journal := journal

theorem refl (s : Engine) : Undisturbed s s :=
  of_eq rfl rfl rfl rfl (List.prefix_refl _)

theorem trans (first : Undisturbed s s') (second : Undisturbed s' s'') : Undisturbed s s'' where
  collect := second.collect.trans first.collect
  providers := second.providers.trans first.providers
  registry := second.registry.trans first.registry
  watches := by
    intro i w'' there opened
    have ⟨w', there', opened'⟩ := second.watches i w'' there opened
    exact first.watches i w' there' opened'
  journal := first.journal.trans second.journal

/-- Watchers are shown changes, or take what is due. -/
theorem updateWatch {id : Nat} {f : Watch → Watch}
    (same : ∀ w, s.watches[id]? = some w → (f w).watcher.closed = w.watcher.closed) :
    Undisturbed s (s.updateWatch id f) where
  collect := rfl
  providers := rfl
  registry := rfl
  watches := by
    intro i w' there opened
    change (s.watches.modify id f)[i]? = some w' at there
    rw [List.getElem?_modify, Option.map_eq_map, Option.map_eq_some_iff] at there
    obtain ⟨w, there, rfl⟩ := there
    refine ⟨w, there, ?_⟩
    split at opened
    · rename_i here
      rw [← same w (here ▸ there)]
      exact opened
    · exact opened
  journal := List.prefix_refl _

end Undisturbed

/-- Work that leaves the sets alone as well. -/
structure Beside (s s' : Engine) : Prop extends Undisturbed s s' where
  sets : SameSets s s'

namespace Beside
variable {s : Engine}

theorem refl (s : Engine) : Beside s s := ⟨.refl s, .refl s⟩

/-- The clock is put forward. -/
theorem wait (s : Engine) (now : Nat) : Beside s { s with now } :=
  ⟨.of_eq rfl rfl rfl rfl (List.prefix_refl _), sameSets_of rfl rfl⟩

theorem tell (s : Engine) (events : List LogEvent) : Beside s (s.tell events) :=
  ⟨.of_eq rfl rfl rfl rfl (List.prefix_append _ _), sameSets_of rfl rfl⟩

theorem updateWatch {id : Nat} {f : Watch → Watch}
    (same : ∀ w, s.watches[id]? = some w → (f w).watcher.closed = w.watcher.closed) :
    Beside s (s.updateWatch id f) :=
  ⟨.updateWatch same, sameSets_of rfl rfl⟩

end Beside

theorem beside_checkGate (s : Engine) (id : Nat) (lookup : List String → Intel.LookupReply)
    (indicators : List String) : Beside s (s.checkGate id lookup indicators).2.2 := by
  unfold checkGate
  split
  · exact .refl s
  · rename_i gate _
    generalize gate.check s.now lookup indicators = result
    exact ⟨.of_eq rfl rfl rfl rfl (List.prefix_append _ _), sameSets_of rfl rfl⟩

theorem beside_reloadGate (s : Engine) (id : Nat) : Beside s (after (reloadGate id) s) := by
  rw [reloadGate, after_get_bind]
  split
  · exact .refl s
  · split
    · exact ⟨.of_eq rfl rfl rfl rfl (List.prefix_refl _), sameSets_of rfl rfl⟩
    · exact .refl s

/-- The relation holds of work beside the sets and of reloads, in the background too, and of one
after the other. -/
structure Covers (R : Engine → Engine → Prop) : Prop where
  trans : ∀ {s s' s''}, R s s' → R s' s'' → R s s''
  beside : ∀ {s s'}, Beside s s' → R s s'
  rebuild : ∀ (s : Engine) (k : CompositeKind) (id : Nat) (reloading : Bool),
    R s (after (rebuild k.access id reloading) s)
  background : ∀ {s s' : Engine} (events : List LogEvent), R { s with journal := [] } s' →
    R s { s' with journal := s.journal ++ events }

/-- The relation holds of every single thing that happens while time passes, and of one after
the other. -/
structure Clockwork (R : Engine → Engine → Prop) : Prop where
  refl : ∀ s, R s s
  trans : ∀ {s s' s''}, R s s' → R s' s'' → R s s''
  wait : ∀ {s : Engine} {now : Nat}, s.now ≤ now → R s { s with now }
  tell : ∀ s events, R s (s.tell events)
  take : ∀ {s : Engine} {id : Nat} {w : Watch}, s.watches[id]? = some w →
    R s (s.updateWatch id fun x => { x with watcher := (w.watcher.take s.now).2 })
  count : ∀ s id, R s (s.updateWatch id fun w => { w with runs := w.runs + 1 })
  reload : ∀ s id, R s (after (reloadGate id) s)
  rebuild : ∀ (s : Engine) (k : CompositeKind) (id : Nat) (reloading : Bool),
    R s (after (rebuild k.access id reloading) s)
  background : ∀ {s s' : Engine} (events : List LogEvent), R { s with journal := [] } s' →
    R s { s' with journal := s.journal ++ events }

namespace Clockwork
variable {R : Engine → Engine → Prop}

theorem foldl (clockwork : Clockwork R) {α : Type} {f : Engine → α → Engine}
    (each : ∀ s a, R s (f s a)) (l : List α) (s : Engine) : R s (l.foldl f s) :=
  List.foldlRecOn l f (clockwork.refl s) fun s' before a _ =>
    clockwork.trans before (each s' a)

/-- A watcher starts nothing but reloads of sets, tables and whitelists. -/
theorem perform (clockwork : Clockwork R) (job : Job) (s : Engine) :
    R s (after (perform job) s) := by
  have forget {D : Dialect} (a : Access D) (id : Nat) :
      after (discard (Engine.rebuild a id true)) s = after (Engine.rebuild a id true) s :=
    after_map (Function.const _ ()) _ s
  cases job with
  | domainSet set =>
      rw [Engine.perform, forget]
      exact clockwork.rebuild s (.set .domains) set true
  | addressSet set =>
      rw [Engine.perform, forget]
      exact clockwork.rebuild s (.set .addresses) set true
  | hosts table =>
      rw [Engine.perform, forget]
      exact clockwork.rebuild s .hosts table true
  | whitelist gate => exact clockwork.reload s gate
  | nothing succeeds => cases succeeds <;> exact clockwork.refl s

theorem startJob (clockwork : Clockwork R) (w : Watch) (id : Nat) (s : Engine) (path : String) :
    R s (startJob w id s path) := by
  have performed : R s (s.inBackground (Engine.perform w.job)).2 :=
    clockwork.background _ (clockwork.perform w.job { s with journal := [] })
  have counted := clockwork.count (s.inBackground (Engine.perform w.job)).2 id
  exact clockwork.trans (clockwork.trans performed counted) (clockwork.tell _ _)

theorem settle (clockwork : Clockwork R) (s : Engine) : R s s.settle := by
  refine clockwork.foldl (fun s id => ?_) _ s
  unfold settleWatch
  split
  · exact clockwork.refl s
  · rename_i w there
    exact clockwork.trans (clockwork.take there) (clockwork.foldl (clockwork.startJob w id) _ _)

/-- Nothing else happens while time passes. -/
theorem pass (clockwork : Clockwork R) (s : Engine) (time : Nat) : R s (s.pass time) := by
  unfold Engine.pass
  generalize s.now + time = limit, s.unsettled + 1 = fuel
  induction fuel generalizing s with
  | zero => exact clockwork.refl s
  | succ fuel ih =>
      rw [pollUntil]
      dsimp only
      rw [if_neg (by simp)]
      split
      · split
        · rename_i t _ _
          have waited := clockwork.wait (Nat.le_max_left s.now t)
          exact clockwork.trans (clockwork.trans waited (clockwork.settle _)) (ih _)
        · exact clockwork.wait (Nat.le_max_left ..)
      · exact clockwork.wait (Nat.le_max_left ..)

end Clockwork

namespace Covers
variable {R : Engine → Engine → Prop}

theorem clockwork (covers : Covers R) : Clockwork R where
  refl := fun s => covers.beside (.refl s)
  trans := covers.trans
  wait := fun {s now} _ => covers.beside (.wait s now)
  tell := fun s events => covers.beside (.tell s events)
  take := fun {s id w} there => covers.beside <| .updateWatch fun x here => by
    obtain rfl := Option.some.inj (there.symm.trans here)
    unfold Watch.Watcher.take
    split <;> rfl
  count := fun s id => covers.beside (.updateWatch fun _ _ => rfl)
  reload := fun s id => covers.beside (beside_reloadGate s id)
  rebuild := covers.rebuild
  background := covers.background

theorem pass (covers : Covers R) (s : Engine) (time : Nat) : R s (s.pass time) :=
  covers.clockwork.pass s time

end Covers

theorem undisturbed_rebuild (s : Engine) (k : CompositeKind) (id : Nat) (reloading : Bool) :
    Undisturbed s (after (rebuild k.access id reloading) s) := by
  rw [after, run_rebuild_eq]
  split
  · exact .refl s
  · rename_i event f _
    rcases k with (_ | _) | _ <;> exact .of_eq rfl rfl rfl rfl (List.prefix_append _ _)

/-- Time takes nothing away from the plugins. -/
theorem covers_undisturbed : Covers Undisturbed where
  trans := .trans
  beside := Beside.toUndisturbed
  rebuild := undisturbed_rebuild
  background := fun _ covered => ⟨covered.collect, covered.providers, covered.registry,
    covered.watches, List.prefix_append _ _⟩

end LiveRules.Engine
