import LiveRules.Proofs.Collect.Ownership
import LiveRules.Proofs.Host.Blueprints

/-!
# Building one plugin

Whether a plugin can be built is decided before anything is left of it: a build that
fails leaves files, watchers, providers, stores and the registry alone. One that succeeds
leaves one more provider, with what works for it.
-/
namespace LiveRules
open Engine
variable [PatternLanguage]

namespace Engine

/-- What callers of the collect stores see. -/
def desk (s : Engine) : Collect.Desk where
  registry := s.collect
  files := s.files

theorem observe_nil (s : Engine) : s.observe [] = s := by
  simp [observe]

@[simp] theorem tell_nil (s : Engine) : s.tell [] = s := by
  simp [tell]

/-- Whether a watcher can be started that is asked for. -/
def watchable (files : Files.Tree) (runtime : Bool) : Option Watch.Request → Except Fault Unit
  | none => .ok ()
  | some r =>
      if runtime = false then .error (.watch .noRuntime)
      else match (Watch.Watcher.start files r).2 with
        | .error e => .error (.watch e)
        | .ok _ => .ok ()

/-- Starts a watcher if one is asked for. -/
def startFor (job : Job) : Option Watch.Request → Act (Option Nat)
  | none => pure none
  | some r => some <$> startWatch r job

/-- The engine with a watcher that is asked for. -/
inductive Starts (s : Engine) (job : Job) : Option Watch.Request → Option Nat → Engine → Prop
  | none : Starts s job none none s
  | some {r : Watch.Request} {events : List LogEvent} {watcher : Watch.Watcher}
      (runtime : s.runtime = true)
      (started : Watch.Watcher.start s.files r = (events, .ok watcher)) :
      Starts s job (some r) (some s.watches.length)
        { s.tell events with watches := s.watches ++ [{ watcher, job }] }

/-- What no build of a plugin changes. -/
structure Aside (s s' : Engine) : Prop where
  files : s'.files = s.files
  now : s'.now = s.now
  runtime : s'.runtime = s.runtime
  registry : s'.registry = s.registry
  providers : s'.providers = s.providers
  held : s'.held = s.held

/-- Nothing is left but what was told and parts that nobody knows of. -/
structure Unbuilt (s s' : Engine) : Prop extends Aside s s' where
  watches : s'.watches = s.watches
  collect : s'.collect = s.collect

theorem Aside.trans {s s' s'' : Engine} (first : Aside s s') (second : Aside s' s'') :
    Aside s s'' where
  files := second.files.trans first.files
  now := second.now.trans first.now
  runtime := second.runtime.trans first.runtime
  registry := second.registry.trans first.registry
  providers := second.providers.trans first.providers
  held := second.held.trans first.held

theorem Aside.lookupGroup {s s' : Engine} (aside : Aside s s') (wanted : String)
    (pick : Plugin → Option Nat) : s'.lookupGroup wanted pick = s.lookupGroup wanted pick := by
  unfold Engine.lookupGroup
  rw [aside.registry, aside.providers]

namespace Unbuilt

theorem refl (s : Engine) : Unbuilt s s := ⟨⟨rfl, rfl, rfl, rfl, rfl, rfl⟩, rfl, rfl⟩

theorem trans {s s' s'' : Engine} (first : Unbuilt s s') (second : Unbuilt s' s'') :
    Unbuilt s s'' :=
  ⟨first.toAside.trans second.toAside, second.watches.trans first.watches,
    second.collect.trans first.collect⟩

theorem tell (s : Engine) (events : List LogEvent) : Unbuilt s (s.tell events) :=
  ⟨⟨rfl, rfl, rfl, rfl, rfl, rfl⟩, rfl, rfl⟩

/-- A gate that nobody knows of. -/
theorem gate (s : Engine) (g : Intel.Gate) : Unbuilt s { s with gates := s.gates ++ [g] } :=
  ⟨⟨rfl, rfl, rfl, rfl, rfl, rfl⟩, rfl, rfl⟩

end Unbuilt

theorem run_startFor (s : Engine) (job : Job) (asked : Option Watch.Request) :
    match watchable s.files s.runtime asked with
    | .error e => ∃ s', (startFor job asked).run.run s = (.error e, s') ∧ Unbuilt s s'
    | .ok () => ∃ w s', (startFor job asked).run.run s = (.ok w, s') ∧ Starts s job asked w s' := by
  cases asked with
  | none => exact ⟨none, s, rfl, .none⟩
  | some r =>
      rw [watchable, startFor, startWatch, ← bind_pure_comp, run_bind, run_get_bind]
      by_cases asleep : s.runtime = false
      · rw [if_pos asleep]
        simp only [asleep]
        exact ⟨s, rfl, .refl s⟩
      · have awake : s.runtime = true := by simpa using asleep
        rcases started : Watch.Watcher.start s.files r with ⟨events, result⟩
        cases result with
        | error e =>
            simp only [awake]
            exact ⟨_, rfl, .tell s events⟩
        | ok watcher =>
            simp only [awake]
            exact ⟨_, _, rfl, .some awake started⟩

/-- The composite that is made for a set or a table. -/
def composite (s : Engine) (k : CompositeKind) (r : SetRequest) : Composite :=
  ⟨r.tag, r.source, r.sets, if k.linked then some s.registry.number else none⟩

/-- The groups that the tags of a composite stand for. -/
def references (s : Engine) (k : CompositeKind) (c : Composite) : Except Fault (List Nat) :=
  Family.resolve (s.lookupGroup k.dialect.capability k.access.pick c) c.sets

/-- The composites of a kind with a new one and what it publishes. -/
def published (s : Engine) (k : CompositeKind) (r : SetRequest) (table : k.dialect.Table)
    (refs : List Nat) : Family k.dialect :=
  ((s.composites k).create (s.composite k r)).2.publish (s.composites k).composites.length
    ⟨table, refs⟩

/-- A gate that has read nothing yet. -/
def GateRequest.gate (r : GateRequest) (now : Nat) : Intel.Gate where
  tag := r.tag
  file := r.whitelist
  cache := { ttl := r.ttl, lastSweep := now }

end Engine

namespace Blueprint

/-- Whether a plugin can be built now, or why not. -/
def construct (s : Engine) : Blueprint → Except Fault Unit
  | rules k r =>
      match k.dialect.compile r.source s.files with
      | .error e => .error (.rule e)
      | .ok _ =>
          match s.references k (s.composite k r) with
          | .error e => .error e
          | .ok _ => watchable s.files s.runtime r.watch?
  | action a =>
      if a.path.isEmpty then .error (.config a.tag .noFilePath)
      else match (s.desk.get a.path).1 with
        | .error e => .error (.collect e)
        | .ok _ => .ok ()
  | gate r =>
      match (r.gate s.now).reload s.files with
      | .error e => .error e
      | .ok _ => watchable s.files s.runtime r.watch?

/-- What the build of a plugin leaves, and the provider that it ends with. -/
inductive Makes (s : Engine) : Blueprint → Provider → Engine → Prop
  | rules {k : CompositeKind} {r : SetRequest} {table : k.dialect.Table} {refs : List Nat}
      {event : LogEvent} {watch : Option Nat} {s' : Engine}
      (compiled : k.dialect.compile r.source s.files = .ok table)
      (resolved : s.references k (s.composite k r) = .ok refs)
      (starts : Starts ((s.withComposites k (s.published k r table refs)).tell [event])
        (k.job (s.composites k).composites.length) r.watch? watch s') :
      Makes s (.rules k r) ⟨r.tag, k.plugin (s.composites k).composites.length, watch⟩ s'
  | action {a : ActionSettings} {handle : Nat} {d : Collect.Desk}
      (got : s.desk.Gets a.path (.ok handle) d) :
      Makes s (.action a)
        ⟨a.tag, .collect ⟨a.tag, handle, .parse a.format, .parse a.operation⟩, none⟩
        ({ s with collect := d.registry }.tell d.events)
  | gate {r : GateRequest} {g : Intel.Gate} {events : List LogEvent} {watch : Option Nat}
      {s' : Engine} (loaded : (r.gate s.now).reload s.files = .ok g)
      (starts : Starts ({ s with gates := s.gates ++ [g] }.tell events)
        (.whitelist s.gates.length) r.watch? watch s') :
      Makes s (.gate r) ⟨r.tag, .gate s.gates.length, watch⟩ s'

/-- The engine with one more provider. -/
def provide (s : Engine) (p : Provider) : Engine :=
  { s with providers := s.providers ++ [p], held := s.providers.length :: s.held }

end Blueprint

namespace Engine

theorem run_newComposite_any (s : Engine) (k : CompositeKind) (c : Composite) :
    (newComposite k.access c).run.run s =
      (.ok (s.composites k).composites.length,
        s.withComposites k ((s.composites k).create c).2) := by
  rcases k with (_ | _) | _ <;> rfl

theorem unbuilt_withComposites (s : Engine) (k : CompositeKind) (f : Family k.dialect) :
    Unbuilt s (s.withComposites k f) := by
  rcases k with (_ | _) | _ <;> exact ⟨⟨rfl, rfl, rfl, rfl, rfl, rfl⟩, rfl, rfl⟩

/-- A composite that nobody knows of, with what is told of its rules. -/
theorem unbuilt_published (s : Engine) (k : CompositeKind) (r : SetRequest)
    (table : k.dialect.Table) (refs : List Nat) (events : List LogEvent) :
    Unbuilt s ((s.withComposites k (s.published k r table refs)).tell events) :=
  (unbuilt_withComposites s k _).trans (.tell _ events)

theorem gates_withComposites (s : Engine) (k : CompositeKind) (f : Family k.dialect) :
    (s.withComposites k f).gates = s.gates := by
  rcases k with (_ | _) | _ <;> rfl

theorem withComposites_withComposites (s : Engine) (k : CompositeKind) (f g : Family k.dialect) :
    (s.withComposites k f).withComposites k g = s.withComposites k g := by
  rcases k with (_ | _) | _ <;> rfl

/-- The first rebuild of a composite. -/
theorem run_first_rebuild (s : Engine) (k : CompositeKind) (r : SetRequest) :
    let made := s.withComposites k ((s.composites k).create (s.composite k r)).2
    match k.dialect.compile r.source s.files with
    | .error e => (rebuild k.access (s.composites k).composites.length false).run.run made =
        (.error (.rule e), made)
    | .ok table =>
        match s.references k (s.composite k r) with
        | .error e => (rebuild k.access (s.composites k).composites.length false).run.run made =
            (.error e, made)
        | .ok refs => ∃ summary event,
            (rebuild k.access (s.composites k).composites.length false).run.run made =
              (.ok summary, (s.withComposites k (s.published k r table refs)).tell [event]) := by
  intro made
  have unbuilt := unbuilt_withComposites s k ((s.composites k).create (s.composite k r)).2
  have family : k.access.family made = ((s.composites k).create (s.composite k r)).2 :=
    composites_withComposites s k _
  have there : ((s.composites k).create (s.composite k r)).2.composites[
      (s.composites k).composites.length]? = some (s.composite k r) := by
    simp [Family.create]
  rw [run_rebuild_eq, family, Family.rebuild, there, unbuilt.files, unbuilt.lookupGroup]
  dsimp only
  have source : (s.composite k r).source = r.source := rfl
  rw [Family.compile, source]
  cases k.dialect.compile r.source s.files with
  | error e => rfl
  | ok table =>
      simp only [Bool.false_and, Bool.false_eq_true, if_false]
      unfold references
      cases Family.resolve
          (s.lookupGroup k.dialect.capability k.access.pick (s.composite k r))
          (s.composite k r).sets with
      | error e => rfl
      | ok refs =>
          refine ⟨⟨k.dialect.size table, r.sets.length⟩, Family.announce (s.composite k r) false
            ⟨k.dialect.size table, r.sets.length⟩, ?_⟩
          change (_, ((s.withComposites k _).withComposites k _).tell _) = _
          rw [withComposites_withComposites]
          rfl

/-- The end of a build: a watcher if one is asked for, and the provider. -/
theorem run_equip {s made : Engine} (unbuilt : Unbuilt s made) (job : Job)
    (asked : Option Watch.Request) (provider : Option Nat → Provider) :
    match watchable s.files s.runtime asked with
    | .error e => ∃ s', (startFor job asked >>= fun watch =>
          addProvider (provider watch)).run.run made = (.error e, s') ∧ Unbuilt s s'
    | .ok () => ∃ watch s', (startFor job asked >>= fun watch =>
          addProvider (provider watch)).run.run made =
            (.ok s'.providers.length, Blueprint.provide s' (provider watch)) ∧
        Starts made job asked watch s' := by
  have started := run_startFor made job asked
  rw [unbuilt.files, unbuilt.runtime] at started
  rw [run_bind]
  cases able : watchable s.files s.runtime asked with
  | error e =>
      simp only [able] at started
      obtain ⟨s', started, nothing⟩ := started
      rw [started]
      exact ⟨s', rfl, unbuilt.trans nothing⟩
  | ok _ =>
      simp only [able] at started
      obtain ⟨watch, s', started, starts⟩ := started
      rw [started]
      exact ⟨watch, s', rfl, starts⟩

theorem run_rules (s : Engine) (k : CompositeKind) (r : SetRequest) :
    match (Blueprint.rules k r).construct s with
    | .error e => ∃ s', (Blueprint.rules k r).build.run.run s = (.error e, s') ∧ Unbuilt s s'
    | .ok () => ∃ p s', (Blueprint.rules k r).build.run.run s =
          (.ok s'.providers.length, Blueprint.provide s' p) ∧
        (Blueprint.rules k r).Makes s p s' := by
  have unfolded : (Blueprint.rules k r).build.run.run s =
      (rebuild k.access (s.composites k).composites.length false >>= fun _ =>
        startFor (k.job (s.composites k).composites.length) r.watch? >>= fun watch =>
          addProvider ⟨r.tag, k.plugin (s.composites k).composites.length, watch⟩).run.run
        (s.withComposites k ((s.composites k).create (s.composite k r)).2) := by
    rw [Blueprint.build, buildSet, run_get_bind]
    dsimp only
    rw [run_bind]
    have made := run_newComposite_any s k (s.composite k r)
    rw [composite] at made
    rw [made]
    unfold startFor SetRequest.watch?
    cases wanted : r.wantsWatch with
    | false => simp only [Bool.false_eq_true, if_false]; rfl
    | true => simp only [if_true]; rfl
  have first := run_first_rebuild s k r
  rw [unfolded, run_bind, Blueprint.construct]
  dsimp only at first
  cases compiled : k.dialect.compile r.source s.files with
  | error e =>
      simp only [compiled] at first ⊢
      rw [first]
      exact ⟨_, rfl, unbuilt_withComposites s k _⟩
  | ok table =>
      simp only [compiled] at first ⊢
      cases resolved : s.references k (s.composite k r) with
      | error e =>
          simp only [resolved] at first ⊢
          rw [first]
          exact ⟨_, rfl, unbuilt_withComposites s k _⟩
      | ok refs =>
          simp only [resolved] at first ⊢
          obtain ⟨summary, event, first⟩ := first
          rw [first]
          have equipped := run_equip (s.unbuilt_published k r table refs [event])
            (k.job (s.composites k).composites.length) r.watch?
            fun watch => ⟨r.tag, k.plugin (s.composites k).composites.length, watch⟩
          dsimp only
          cases able : watchable s.files s.runtime r.watch? with
          | error e =>
              simp only [able] at equipped
              exact equipped
          | ok _ =>
              simp only [able] at equipped
              obtain ⟨watch, s', ran, starts⟩ := equipped
              exact ⟨_, s', ran, .rules compiled resolved starts⟩

/-- A new gate reads its whitelist. -/
theorem run_first_reading (s : Engine) (g : Intel.Gate) :
    (reloadGate s.gates.length).run.run { s with gates := s.gates ++ [g] } =
      match g.reload s.files with
      | .error e => (.error e, { s with gates := s.gates ++ [g] })
      | .ok g' => (.ok (), { s with gates := s.gates ++ [g'] }) := by
  rw [reloadGate, run_get_bind]
  simp only [List.getElem?_append_right, le_refl, Nat.sub_self, List.getElem?_cons_zero]
  cases g.reload s.files with
  | error e => rfl
  | ok g' =>
      dsimp only
      rw [updateGate, List.set_append_right _ _ (le_refl _), Nat.sub_self, List.set_cons_zero]
      rfl

/-- What a gate with a whitelist tells once it has read it. -/
def announceGate (id : Nat) : Act Unit :=
  modify fun s => s.tell ((s.gates[id]?.map (·.announce)).toList)

theorem run_buildGate (s : Engine) (r : GateRequest) :
    (buildGate r).run.run s =
      (match r.whitelist with
        | none => startFor (.whitelist s.gates.length) r.watch? >>= fun watch =>
            addProvider ⟨r.tag, .gate s.gates.length, watch⟩
        | some _ => reloadGate s.gates.length >>= fun _ => announceGate s.gates.length >>= fun _ =>
            startFor (.whitelist s.gates.length) r.watch? >>= fun watch =>
              addProvider ⟨r.tag, .gate s.gates.length, watch⟩).run.run
        { s with gates := s.gates ++ [r.gate s.now] } := by
  rw [buildGate, run_get_bind]
  dsimp only
  rw [run_bind]
  unfold GateRequest.watch?
  cases whitelist : r.whitelist with
  | none =>
      rw [GateRequest.gate, whitelist]
      rfl
  | some path =>
      rw [GateRequest.gate, whitelist]
      cases wanted : r.autoReload with
      | false => simp only [Bool.false_eq_true, if_false]; rfl
      | true => simp only [if_true]; rfl

theorem run_gate (s : Engine) (r : GateRequest) :
    match (Blueprint.gate r).construct s with
    | .error e => ∃ s', (Blueprint.gate r).build.run.run s = (.error e, s') ∧ Unbuilt s s'
    | .ok () => ∃ p s', (Blueprint.gate r).build.run.run s =
          (.ok s'.providers.length, Blueprint.provide s' p) ∧
        (Blueprint.gate r).Makes s p s' := by
  have equipped (g : Intel.Gate) (events : List LogEvent) :=
    run_equip ((Unbuilt.gate s g).trans (.tell _ events)) (.whitelist s.gates.length) r.watch?
      fun watch => ⟨r.tag, .gate s.gates.length, watch⟩
  rw [Blueprint.construct, Blueprint.build, run_buildGate]
  cases whitelist : r.whitelist with
  | none =>
      have loaded : (r.gate s.now).reload s.files = .ok (r.gate s.now) := by
        rw [Intel.Gate.reload, GateRequest.gate, whitelist]
      have able : watchable s.files s.runtime r.watch? = .ok () := by
        rw [GateRequest.watch?, whitelist, watchable]
      have equipped := equipped (r.gate s.now) []
      simp only [loaded, able] at equipped ⊢
      obtain ⟨watch, s', ran, starts⟩ := equipped
      rw [tell_nil] at ran
      exact ⟨_, s', ran, .gate loaded starts⟩
  | some path =>
      have reading := run_first_reading s (r.gate s.now)
      dsimp only
      rw [run_bind]
      cases loaded : (r.gate s.now).reload s.files with
      | error e =>
          simp only [loaded] at reading ⊢
          rw [reading]
          exact ⟨_, rfl, .gate s _⟩
      | ok g =>
          have announced : (announceGate s.gates.length).run.run
              { s with gates := s.gates ++ [g] } =
              (.ok (), { s with gates := s.gates ++ [g] }.tell [g.announce]) := by
            have told : ((s.gates ++ [g])[s.gates.length]?.map (·.announce)).toList =
                [g.announce] := by simp
            rw [← told]
            rfl
          have equipped := equipped g [g.announce]
          simp only [loaded] at reading ⊢
          rw [reading]
          dsimp only
          rw [run_bind, announced]
          cases able : watchable s.files s.runtime r.watch? with
          | error e =>
              simp only [able] at equipped
              exact equipped
          | ok _ =>
              simp only [able] at equipped
              obtain ⟨watch, s', ran, starts⟩ := equipped
              exact ⟨_, s', ran, .gate loaded starts⟩

/-- What is left of work at the desk. -/
theorem atDesk_eq {α : Type} {s : Engine} {act : Collect.Desk → α × Collect.Desk}
    (files : (act s.desk).2.files = s.files) (changes : (act s.desk).2.changes = []) :
    s.atDesk act = ((act s.desk).1,
      { s with collect := (act s.desk).2.registry }.tell (act s.desk).2.events) := by
  change (_, ({ s with collect := (act s.desk).2.registry, files := (act s.desk).2.files }.observe
    (act s.desk).2.changes).tell _) = _
  rw [files, changes, observe_nil]
  rfl

omit [PatternLanguage] in
/-- A call for a handle leaves the files alone. -/
theorem files_get (d : Collect.Desk) (path : String) :
    (d.get path).2.files = d.files ∧ (d.get path).2.changes = d.changes := by
  have gets := Collect.Desk.gets_get d path
  generalize (d.get path).1 = answer, (d.get path).2 = d' at gets ⊢
  cases gets with
  | fails | joins | opens => exact ⟨rfl, rfl⟩

theorem run_buildAction (s : Engine) (a : ActionSettings) :
    (buildAction a.tag a.path a.format a.operation).run.run s =
      match (Collect.Action.create s.desk a.tag a.path a.format a.operation).1 with
      | .error e => (.error e, (s.atDesk fun d =>
          Collect.Action.create d a.tag a.path a.format a.operation).2)
      | .ok action => (addProvider { tag := a.tag, plugin := .collect action }).run.run
          (s.atDesk fun d => Collect.Action.create d a.tag a.path a.format a.operation).2 := by
  rw [buildAction, run_bind]
  change (match (Collect.Action.create s.desk a.tag a.path a.format a.operation).1 with
    | .error e => (throw e : Act Nat)
    | .ok action => addProvider { tag := a.tag, plugin := .collect action }).run.run _ = _
  cases (Collect.Action.create s.desk a.tag a.path a.format a.operation).1 <;> rfl

/-- A store is opened, or shared once more, before there is an action for it. -/
theorem run_action (s : Engine) (a : ActionSettings) :
    match (Blueprint.action a).construct s with
    | .error e => ∃ s', (Blueprint.action a).build.run.run s = (.error e, s') ∧ Unbuilt s s'
    | .ok () => ∃ p s', (Blueprint.action a).build.run.run s =
          (.ok s'.providers.length, Blueprint.provide s' p) ∧
        (Blueprint.action a).Makes s p s' := by
  have ⟨files, changes⟩ := files_get s.desk a.path
  have gets := Collect.Desk.gets_get s.desk a.path
  rw [Blueprint.construct, Blueprint.build, run_buildAction]
  by_cases unnamed : a.path.isEmpty = true
  · have created : Collect.Action.create s.desk a.tag a.path a.format a.operation =
        (.error (.config a.tag .noFilePath), s.desk) := by
      rw [Collect.Action.create, if_pos unnamed]
    rw [if_pos unnamed, atDesk_eq (by rw [created]; rfl) (by rw [created]; rfl), created]
    exact ⟨_, rfl, .tell s _⟩
  · rw [if_neg unnamed]
    have created : Collect.Action.create s.desk a.tag a.path a.format a.operation =
        match (s.desk.get a.path).1 with
        | .error e => (.error (.collect e), (s.desk.get a.path).2)
        | .ok handle => (.ok ⟨a.tag, handle, .parse a.format, .parse a.operation⟩,
            (s.desk.get a.path).2) := by
      rw [Collect.Action.create, if_neg unnamed]
      rcases s.desk.get a.path with ⟨_ | _, d⟩ <;> rfl
    cases got : (s.desk.get a.path).1 with
    | error e =>
        simp only [got] at created ⊢
        rw [atDesk_eq (by rw [created]; exact files) (by rw [created]; exact changes), created,
          Collect.Desk.failed_get got]
        exact ⟨_, rfl, .tell s _⟩
    | ok handle =>
        simp only [got] at created ⊢
        rw [atDesk_eq (by rw [created]; exact files) (by rw [created]; exact changes), created]
        rw [got] at gets
        exact ⟨_, _, rfl, .action gets⟩

/-- A plugin is built exactly if nothing is in its way. -/
theorem run_build (s : Engine) (b : Blueprint) :
    match b.construct s with
    | .error e => ∃ s', b.build.run.run s = (.error e, s') ∧ Unbuilt s s'
    | .ok () => ∃ p s', b.build.run.run s = (.ok s'.providers.length, Blueprint.provide s' p) ∧
        b.Makes s p s' := by
  cases b with
  | rules k r => exact run_rules s k r
  | action a => exact run_action s a
  | gate r => exact run_gate s r

theorem composites_congr {s s' : Engine} (domains : s'.domainSets = s.domainSets)
    (addresses : s'.addressSets = s.addressSets) (hosts : s'.hostTables = s.hostTables)
    (k : CompositeKind) : s'.composites k = s.composites k := by
  rcases k with (_ | _) | _
  · exact domains
  · exact addresses
  · exact hosts

theorem Starts.eq {s s' : Engine} {job : Job} {asked : Option Watch.Request}
    {watch : Option Nat} (starts : Starts s job asked watch s') :
    ∃ journal watches, s' = { s with journal, watches } := by
  cases starts with
  | none => exact ⟨_, _, rfl⟩
  | some => exact ⟨_, _, rfl⟩

theorem Starts.aside {s s' : Engine} {job : Job} {asked : Option Watch.Request}
    {watch : Option Nat} (starts : Starts s job asked watch s') : Aside s s' := by
  obtain ⟨journal, watches, rfl⟩ := starts.eq
  exact ⟨rfl, rfl, rfl, rfl, rfl, rfl⟩

end Engine

namespace Blueprint
variable {s s' : Engine} {b : Blueprint} {p : Provider}

theorem Makes.aside (makes : b.Makes s p s') : Aside s s' := by
  cases makes with
  | @rules k r table refs event watch s' compiled resolved starts =>
      exact (s.unbuilt_published k r table refs [event]).toAside.trans starts.aside
  | action got => exact ⟨rfl, rfl, rfl, rfl, rfl, rfl⟩
  | @gate r g events watch s' loaded starts =>
      exact ((Unbuilt.gate s g).trans (.tell _ events)).toAside.trans starts.aside

theorem Makes.tag (makes : b.Makes s p s') : p.tag = b.tag := by
  cases makes <;> rfl

end Blueprint
end LiveRules
