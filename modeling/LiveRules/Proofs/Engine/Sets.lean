import LiveRules.Engine.Sets
import LiveRules.Proofs.Rules.Composite

/-!
# Work on the sets of the engine

What the work of the engine does to its two families of sets. Domain sets and
address sets differ in their dialects only, so all is said once for both kinds.
Only new composites and rebuilds change the sets; whatever else is done leaves them
alone, be it that it fails half-way.
-/
namespace LiveRules
variable [PatternLanguage]

/-- The kinds of sets that may refer to each other. -/
inductive SetKind where
  | domains
  | addresses
  deriving DecidableEq, Repr

namespace SetKind

@[reducible] def dialect : SetKind → Dialect
  | domains => .domains
  | addresses => .addresses

def access : (k : SetKind) → Engine.Access k.dialect
  | domains => Engine.domainAccess
  | addresses => Engine.addressAccess

def plugin : SetKind → Nat → Plugin
  | domains => .domainSet
  | addresses => .addressSet

def job : SetKind → Nat → Job
  | domains => .domainSet
  | addresses => .addressSet

theorem emptyMisses : (k : SetKind) → k.dialect.EmptyMisses
  | domains => Dialect.emptyMisses_domains
  | addresses => Dialect.emptyMisses_addresses

end SetKind

namespace Engine

/-- The sets of a kind. -/
def sets (s : Engine) (k : SetKind) : Family k.dialect := k.access.family s

/-- The engine with other sets of a kind. -/
def withSets (s : Engine) (k : SetKind) (f : Family k.dialect) : Engine := k.access.store s f

theorem sets_withSets (s : Engine) (k : SetKind) (f : Family k.dialect) :
    (s.withSets k f).sets k = f := by
  cases k <;> rfl

theorem sets_withSets_other (s : Engine) {k k' : SetKind} (f : Family k.dialect) (h : k' ≠ k) :
    (s.withSets k f).sets k' = s.sets k' := by
  cases k <;> cases k' <;> first | rfl | exact absurd rfl h

/-- The engine after some work, whether it succeeded or not. -/
def after {α : Type} (act : Act α) (s : Engine) : Engine := (act.run.run s).2

/-- Builds a set and a provider for it. -/
def build (k : SetKind) (r : SetRequest) : Act Nat := buildSet k.access r true k.plugin k.job

/-- No set has changed. -/
def SameSets (s s' : Engine) : Prop := ∀ k, s'.sets k = s.sets k

theorem sameSets_of {s s' : Engine} (domains : s'.domainSets = s.domainSets)
    (addresses : s'.addressSets = s.addressSets) : SameSets s s' := by
  intro k
  cases k
  · exact domains
  · exact addresses

theorem SameSets.refl (s : Engine) : SameSets s s := fun _ => rfl

theorem SameSets.trans {s s' s'' : Engine} (first : SameSets s s') (second : SameSets s' s'') :
    SameSets s s'' :=
  fun k => (second k).trans (first k)

section Work
variable {α β : Type} {s : Engine}

omit [PatternLanguage] in
theorem run_bind {σ : Type} (act : ExceptT Fault (StateM σ) α)
    (next : α → ExceptT Fault (StateM σ) β) (s : σ) :
    (act >>= next).run.run s = match act.run.run s with
      | (.ok a, s) => (next a).run.run s
      | (.error e, s) => (.error e, s) := by
  change StateT.run (StateT.bind act.run (ExceptT.bindCont next)) s = _
  rcases h : act.run.run s with ⟨result, s'⟩
  simp only [StateT.run, StateT.bind] at h ⊢
  rw [h]
  cases result <;> rfl

theorem run_get_bind (next : Engine → Act β) (s : Engine) :
    (get >>= next).run.run s = (next s).run.run s := rfl

theorem after_get_bind (next : Engine → Act β) (s : Engine) :
    after (get >>= next) s = after (next s) s := rfl

theorem after_bind_ok {act : Act α} {next : α → Act β} {a : α} {s' : Engine}
    (ran : act.run.run s = (.ok a, s')) : after (act >>= next) s = after (next a) s' := by
  rw [after, run_bind, ran]
  rfl

theorem after_bind_error {act : Act α} {next : α → Act β} {e : Fault} {s' : Engine}
    (ran : act.run.run s = (.error e, s')) : after (act >>= next) s = s' := by
  rw [after, run_bind, ran]

/-- Work that changes no set. -/
def Quiet (act : Act α) : Prop := ∀ s, SameSets s (after act s)

/-- Quiet work changes nothing about what was done before. -/
theorem sameSets_bind (act : Act α) {next : α → Act β} (rest : ∀ a, Quiet (next a))
    (s : Engine) : SameSets (after act s) (after (act >>= next) s) := by
  rcases ran : act.run.run s with ⟨result, s'⟩
  have start : after act s = s' := congrArg Prod.snd ran
  rw [start]
  cases result with
  | error e =>
      rw [after_bind_error ran]
      exact .refl s'
  | ok a =>
      rw [after_bind_ok ran]
      exact rest a s'

theorem Quiet.bind {act : Act α} {next : α → Act β} (first : Quiet act)
    (rest : ∀ a, Quiet (next a)) : Quiet (act >>= next) :=
  fun s => (first s).trans (sameSets_bind act rest s)

theorem Quiet.map {act : Act α} (quiet : Quiet act) (f : α → β) : Quiet (f <$> act) := by
  rw [← bind_pure_comp]
  exact quiet.bind fun _ s => .refl s

theorem quiet_pure (a : α) : Quiet (pure a : Act α) := fun s => .refl s

theorem quiet_throw (e : Fault) : Quiet (throw e : Act α) := fun s => .refl s

theorem quiet_modifyGet {f : Engine → α × Engine} (same : ∀ s, SameSets s (f s).2) :
    Quiet (modifyGet f : Act α) := same

end Work

theorem sameSets_startWatch (s : Engine) (request : Watch.Request) (job : Job) :
    SameSets s (after (startWatch request job) s) := by
  rw [startWatch, after_get_bind]
  dsimp only
  split
  · exact .refl s
  · refine Quiet.bind (quiet_modifyGet fun _ => sameSets_of rfl rfl) (fun _ => ?_) s
    split
    · exact quiet_throw _
    · exact quiet_modifyGet fun _ => sameSets_of rfl rfl

theorem sameSets_addProvider (s : Engine) (p : Provider) :
    SameSets s (after (addProvider p) s) :=
  sameSets_of rfl rfl

theorem sameSets_register (s : Engine) (provider : Nat) :
    SameSets s (after (register provider) s) := by
  rw [register, after_get_bind]
  split
  · exact .refl s
  · split
    · exact .refl s
    · exact sameSets_of rfl rfl

theorem sameSets_closeProvider (s : Engine) (id : Nat) : SameSets s (s.closeProvider id) := by
  unfold closeProvider
  split
  · exact .refl s
  · split
    · exact sameSets_of rfl rfl
    · exact sameSets_of rfl rfl
    · split
      · unfold closeWatch
        split <;> exact sameSets_of rfl rfl
      · exact .refl s

theorem sameSets_sweep (s : Engine) (id : Nat) : SameSets s (s.sweep id) := by
  unfold sweep
  split
  · exact .refl s
  · split
    · exact .refl s
    · exact sameSets_closeProvider s id

theorem sameSets_foldl {f : Engine → Nat → Engine} (same : ∀ s id, SameSets s (f s id))
    (ids : List Nat) (s : Engine) : SameSets s (ids.foldl f s) := by
  induction ids generalizing s with
  | nil => exact .refl s
  | cons id ids ih => exact (same s id).trans (ih (f s id))

theorem sameSets_release (s : Engine) (id : Nat) : SameSets s (s.release id) := by
  have dropped : SameSets s { s with held := s.held.erase id } := sameSets_of rfl rfl
  exact dropped.trans (sameSets_sweep _ id)

theorem sameSets_unregister (s : Engine) (tag : String) : SameSets s (s.unregister tag).2 := by
  have erased : SameSets s { s with registry := s.registry.erase tag } := sameSets_of rfl rfl
  unfold unregister
  split
  · exact .refl s
  · exact erased.trans (sameSets_sweep _ _)

theorem sameSets_closeAll (s : Engine) : SameSets s s.closeAll := by
  have emptied : SameSets s { s with registry := { s.registry with providers := [] } } :=
    sameSets_of rfl rfl
  have closed := emptied.trans
    (sameSets_foldl sameSets_closeProvider (s.registry.providers.map (·.2)) _)
  exact closed.trans (sameSets_foldl sameSets_sweep (s.registry.providers.map (·.2)) _)

theorem sameSets_dropRegistry (s : Engine) : SameSets s s.dropRegistry := by
  have replaced : SameSets s { s with registry := { number := s.registry.number + 1 } } :=
    sameSets_of rfl rfl
  exact replaced.trans (sameSets_foldl sameSets_sweep (s.registry.providers.map (·.2)) _)

theorem sameSets_changeFiles (s : Engine)
    (change : Files.Tree → Except Files.ReadError (Files.Tree × List Files.Change)) :
    SameSets s (s.changeFiles change).2 := by
  unfold changeFiles
  split
  · exact sameSets_of rfl rfl
  · exact .refl s

/-- What a rebuild finds now, if it succeeds. -/
def generation? (s : Engine) (k : SetKind) (id : Nat) (reloading : Bool) :
    Option (Generation k.dialect) :=
  (s.sets k).generation? id s.files (s.lookupGroup k.dialect.capability k.access.pick) reloading

/-- A rebuild succeeds exactly if it finds something, and publishes that. -/
theorem run_rebuild (s : Engine) (k : SetKind) (id : Nat) (reloading : Bool) :
    match s.generation? k id reloading with
    | none => ∃ e, (rebuild k.access id reloading).run.run s = (.error e, s)
    | some g => ∃ summary s', (rebuild k.access id reloading).run.run s = (.ok summary, s') ∧
        SameSets (s.withSets k ((s.sets k).publish id g)) s' := by
  have published := Family.rebuild_eq (s.sets k) id s.files
    (s.lookupGroup k.dialect.capability k.access.pick) reloading
  change Option.map _ _ = (s.generation? k id reloading).map _ at published
  rw [rebuild, run_get_bind]
  cases result : (k.access.family s).rebuild id s.files
      (s.lookupGroup k.dialect.capability k.access.pick) reloading with
  | error e =>
      rw [sets, result] at published
      cases found : s.generation? k id reloading with
      | none => exact ⟨e, rfl⟩
      | some g => simp [found, Except.toOption] at published
  | ok out =>
      obtain ⟨summary, event, f⟩ := out
      rw [sets, result] at published
      cases found : s.generation? k id reloading with
      | none => simp [found, Except.toOption] at published
      | some g =>
          obtain rfl : f = (s.sets k).publish id g := by
            simpa [found, Except.toOption, sets] using published
          refine ⟨summary, _, rfl, fun k' => ?_⟩
          cases k <;> cases k' <;> rfl

theorem sameSets_rebuild (s : Engine) (k : SetKind) (id : Nat) (reloading : Bool) :
    SameSets
      (match s.generation? k id reloading with
        | none => s
        | some g => s.withSets k ((s.sets k).publish id g))
      (after (rebuild k.access id reloading) s) := by
  have ran := run_rebuild s k id reloading
  unfold after
  cases found : s.generation? k id reloading with
  | none =>
      simp only [found] at ran
      obtain ⟨e, ran⟩ := ran
      rw [ran]
      exact .refl s
  | some g =>
      simp only [found] at ran
      obtain ⟨summary, s', ran, same⟩ := ran
      rw [ran]
      exact same

/-- The engine with a new composite. -/
def compose (s : Engine) (k : SetKind) (c : Composite) : Engine :=
  s.withSets k ((s.sets k).create c).2

theorem run_newComposite (s : Engine) (k : SetKind) (c : Composite) :
    (newComposite k.access c).run.run s = (.ok (s.sets k).composites.length, s.compose k c) := by
  cases k <;> rfl

/-- Building a set makes a composite and rebuilds it. -/
theorem sameSets_build (s : Engine) (k : SetKind) (r : SetRequest) :
    SameSets
      (after (rebuild k.access (s.sets k).composites.length false)
        (s.compose k ⟨r.tag, r.source, r.sets, some s.registry.number⟩))
      (after (build k r) s) := by
  rw [build, buildSet, after_get_bind]
  dsimp only
  rw [after_bind_ok (run_newComposite s k _)]
  refine sameSets_bind _ (fun _ => ?_) _
  have provided (watch : Option Nat) :
      Quiet (addProvider ⟨r.tag, k.plugin (s.sets k).composites.length, watch⟩) :=
    fun s => sameSets_addProvider s _
  split
  · exact Quiet.bind (Quiet.map (fun s => sameSets_startWatch s _ _) some) provided
  · exact (quiet_pure none).bind provided

end Engine
end LiveRules
