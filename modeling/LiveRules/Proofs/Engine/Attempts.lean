import LiveRules.Engine.Time
import LiveRules.Proofs.Engine.Sets
import LiveRules.Proofs.Rules.Recipes

/-!
# Attempts that fail

A rebuild can fail at any rule, file or tag of a composite. Whichever it is, all
composites answer afterwards what they answered before, and whatever is done later
comes out as if the attempt had not been made.
-/
namespace LiveRules

namespace Family
variable {D : Dialect}

theorem compile_fails (c : Composite) (files : Files.Tree) (reloading : Bool) :
    (compile (D := D) c files reloading).isOk = false ↔
      (D.compile c.source files).isOk = false ∨
        reloading = true ∧ ∃ table, D.compile c.source files = .ok table ∧
          D.acceptsReload table = false := by
  unfold compile
  cases D.compile c.source files with
  | error e => simp [Except.isOk, Except.toBool]
  | ok table => cases reloading <;> cases h : D.acceptsReload table <;>
      simp [h, Except.isOk, Except.toBool]

theorem resolve_fails (lookup : String → Except ProviderError Nat) (tags : List String) :
    (resolve lookup tags).isOk = false ↔ ∃ tag ∈ tags, (lookup tag).isOk = false := by
  induction tags with
  | nil => simp [resolve, Except.isOk, Except.toBool]
  | cons tag tags ih =>
      unfold resolve
      cases found : lookup tag with
      | error e => simp [found, Except.isOk, Except.toBool]
      | ok group =>
          have rest : ((resolve lookup tags).map (group :: ·)).isOk =
              (resolve lookup tags).isOk := by
            cases resolve lookup tags <;> rfl
          simp only [rest, ih, List.mem_cons, exists_eq_or_imp, found]
          simp [Except.isOk, Except.toBool]

theorem rebuild_fails {f : Family D} {id : Nat} {c : Composite}
    (composite : f.composites[id]? = some c) (files : Files.Tree)
    (lookup : Composite → String → Except ProviderError Nat) (reloading : Bool) :
    (f.rebuild id files lookup reloading).isOk = false ↔
      (compile (D := D) c files reloading).isOk = false ∨
        (resolve (lookup c) c.sets).isOk = false := by
  simp only [rebuild, composite]
  cases compile (D := D) c files reloading with
  | error e => simp [Except.isOk, Except.toBool]
  | ok table => cases resolve (lookup c) c.sets <;> simp [Except.isOk, Except.toBool]

end Family

variable [PatternLanguage]

/-- The kinds of composites. -/
inductive CompositeKind where
  | set (k : SetKind)
  | hosts
  deriving DecidableEq, Repr

namespace CompositeKind

@[reducible] def dialect : CompositeKind → Dialect
  | set k => k.dialect
  | hosts => .hosts

def access : (k : CompositeKind) → Engine.Access k.dialect
  | set k => k.access
  | hosts => Engine.hostAccess

def recipe : (k : CompositeKind) → Recipe k.dialect
  | set .domains => .domains
  | set .addresses => .addresses
  | hosts => .hosts

/-- Only a table of hosts insists on having rules after a reload. -/
theorem refuses_iff (k : CompositeKind) (table : k.dialect.Table) :
    k.dialect.acceptsReload table = false ↔ k = hosts ∧ k.dialect.size table = 0 := by
  rcases k with (_ | _) | _
  · simp
  · simp
  · simp [bne]

end CompositeKind

namespace Engine

/-- The composites of a kind. -/
def composites (s : Engine) (k : CompositeKind) : Family k.dialect := k.access.family s

theorem run_rebuild_eq {D : Dialect} (a : Access D) (s : Engine) (id : Nat) (reloading : Bool) :
    (rebuild a id reloading).run.run s =
      match (a.family s).rebuild id s.files (s.lookupGroup D.capability a.pick) reloading with
      | .error e => (.error e, s)
      | .ok (summary, event, f) => (.ok summary, (a.store s f).tell [event]) := by
  rw [rebuild, run_get_bind]
  cases (a.family s).rebuild id s.files (s.lookupGroup D.capability a.pick) reloading <;> rfl

/-- What keeps a rebuild of a composite from succeeding. -/
inductive Obstacle (s : Engine) (k : CompositeKind) (c : Composite) (reloading : Bool) : Prop
  | expression {text : String} :
      text ∈ c.source.expressions → ¬ k.recipe.Accepts text → Obstacle s k c reloading
  | unreadable {path : String} {cause : Files.ReadError} :
      path ∈ c.source.files → s.files.readText path = .error cause → Obstacle s k c reloading
  | line {path content line rule : String} :
      path ∈ c.source.files → s.files.readText path = .ok content →
      line ∈ Text.lines content → record line = some rule → ¬ k.recipe.Accepts rule →
      Obstacle s k c reloading
  /-- A table of hosts without any rule is refused after a reload. -/
  | emptied {table : k.dialect.Table} :
      reloading = true → k = .hosts → k.dialect.compile c.source s.files = .ok table →
      k.dialect.size table = 0 → Obstacle s k c reloading
  | registryGone {tag : String} :
      tag ∈ c.sets → c.registry ≠ some s.registry.number → Obstacle s k c reloading
  | unknown {tag : String} :
      tag ∈ c.sets → s.registry.resolve tag = none → Obstacle s k c reloading
  | incapable {tag : String} {provider : Nat} :
      tag ∈ c.sets → s.registry.resolve tag = some provider →
      (s.providers[provider]?.map Provider.plugin).bind k.access.pick = none →
      Obstacle s k c reloading

theorem lookupGroup_fails (s : Engine) (wanted : String) (pick : Plugin → Option Nat)
    (c : Composite) (tag : String) :
    (s.lookupGroup wanted pick c tag).isOk = false ↔
      c.registry ≠ some s.registry.number ∨ s.registry.resolve tag = none ∨
        ∃ provider, s.registry.resolve tag = some provider ∧
          (s.providers[provider]?.map Provider.plugin).bind pick = none := by
  unfold lookupGroup
  by_cases gone : c.registry = some s.registry.number
  · simp only [gone, bne_self_eq_false, Bool.false_eq_true, if_false, ne_eq, not_true_eq_false,
      false_or]
    cases s.registry.resolve tag with
    | none => simp [Except.isOk, Except.toBool]
    | some provider =>
        simp only [reduceCtorEq, false_or, Option.some.injEq, exists_eq_left']
        cases (s.providers[provider]?.map Provider.plugin).bind pick <;>
          simp [Except.isOk, Except.toBool]
  · simp [gone, Except.isOk, Except.toBool]

/-- Compiling fails at a refused rule or an unreadable file, wherever it stands. -/
theorem obstacle_of_compile {s : Engine} {k : CompositeKind} {c : Composite} {reloading : Bool}
    (failed : (k.dialect.compile c.source s.files).isOk = false) : Obstacle s k c reloading := by
  have refused : ¬ ((∀ text ∈ c.source.expressions, k.recipe.Accepts text) ∧
      ∀ path ∈ c.source.files, k.recipe.AcceptsFile s.files path) := by
    rw [← k.recipe.compile_isOk, failed]
    simp
  by_cases expressions : ∀ text ∈ c.source.expressions, k.recipe.Accepts text
  · obtain ⟨path, listed, bad⟩ : ∃ path ∈ c.source.files,
        ¬ k.recipe.AcceptsFile s.files path := by
      by_contra none
      push Not at none
      exact refused ⟨expressions, none⟩
    cases read : s.files.readText path with
    | error cause => exact .unreadable listed read
    | ok content =>
        have bad : ¬ ∀ line ∈ Text.lines content, ∀ rule, record line = some rule →
            k.recipe.Accepts rule := fun fine => bad ⟨content, read, fine⟩
        push Not at bad
        obtain ⟨line, present, rule, said, bad⟩ := bad
        exact .line listed read present said bad
  · push Not at expressions
    obtain ⟨text, listed, bad⟩ := expressions
    exact .expression listed bad

/-- A rebuild fails exactly if something is in its way. -/
theorem rebuild_fails_iff {s : Engine} {k : CompositeKind} {id : Nat} {c : Composite}
    (composite : (s.composites k).composites[id]? = some c) (reloading : Bool) :
    ((rebuild k.access id reloading).run.run s).1.isOk = false ↔ Obstacle s k c reloading := by
  have result : ((rebuild k.access id reloading).run.run s).1.isOk =
      ((s.composites k).rebuild id s.files (s.lookupGroup k.dialect.capability k.access.pick)
        reloading).isOk := by
    rw [run_rebuild_eq, composites]
    cases (k.access.family s).rebuild id s.files
      (s.lookupGroup k.dialect.capability k.access.pick) reloading <;> rfl
  rw [result, Family.rebuild_fails composite, Family.compile_fails, Family.resolve_fails]
  constructor
  · rintro ((failed | ⟨reload, table, compiled, refused⟩) | ⟨tag, listed, failed⟩)
    · exact obstacle_of_compile failed
    · obtain ⟨hosts, empty⟩ := (k.refuses_iff table).mp refused
      exact .emptied reload hosts compiled empty
    · rcases (lookupGroup_fails ..).mp failed with gone | unknown | ⟨provider, resolved, none⟩
      · exact .registryGone listed gone
      · exact .unknown listed unknown
      · exact .incapable listed resolved none
  · have bad_rules (bad : ¬ ((∀ text ∈ c.source.expressions, k.recipe.Accepts text) ∧
        ∀ path ∈ c.source.files, k.recipe.AcceptsFile s.files path)) :
        (k.dialect.compile c.source s.files).isOk = false := by
      rw [← k.recipe.compile_isOk] at bad
      exact Bool.eq_false_iff.mpr bad
    intro obstacle
    cases obstacle with
    | expression listed bad => exact .inl (.inl (bad_rules fun fine => bad (fine.1 _ listed)))
    | unreadable listed failed =>
        refine .inl (.inl (bad_rules fun fine => ?_))
        obtain ⟨content, read, -⟩ := fine.2 _ listed
        rw [failed] at read
        cases read
    | line listed read present said bad =>
        refine .inl (.inl (bad_rules fun fine => ?_))
        obtain ⟨content, again, all⟩ := fine.2 _ listed
        rw [read] at again
        cases again
        exact bad (all _ present _ said)
    | emptied reload hosts compiled empty =>
        exact .inl (.inr ⟨reload, _, compiled, (k.refuses_iff _).mpr ⟨hosts, empty⟩⟩)
    | registryGone listed gone =>
        exact .inr ⟨_, listed, (lookupGroup_fails ..).mpr (.inl gone)⟩
    | unknown listed missing =>
        exact .inr ⟨_, listed, (lookupGroup_fails ..).mpr (.inr (.inl missing))⟩
    | incapable listed resolved none =>
        exact .inr ⟨_, listed, (lookupGroup_fails ..).mpr (.inr (.inr ⟨_, resolved, none⟩))⟩

theorem rebuild_error {D : Dialect} {a : Access D} {s s' : Engine} {id : Nat} {reloading : Bool}
    {e : Fault} (failed : (rebuild a id reloading).run.run s = (.error e, s')) : s' = s := by
  rw [run_rebuild_eq] at failed
  split at failed
  · exact (congrArg Prod.snd failed).symm
  · cases failed

/-- A job that fails changes nothing either. -/
theorem perform_error {job : Job} {s s' : Engine} {e : Fault}
    (failed : (perform job).run.run s = (.error e, s')) : s' = s := by
  have forget {D : Dialect} {a : Access D} {id : Nat}
      (failed : (discard (rebuild a id true)).run.run s = (.error e, s')) : s' = s := by
    have mapped : discard (rebuild a id true) = rebuild a id true >>= fun _ => pure () := by
      rw [bind_pure_comp]
      rfl
    rw [mapped, run_bind] at failed
    rcases ran : (rebuild a id true).run.run s with ⟨result, after⟩
    rw [ran] at failed
    cases result with
    | error e' =>
        obtain rfl : after = s' := congrArg Prod.snd failed
        exact rebuild_error ran
    | ok summary => cases failed
  cases job with
  | domainSet set => exact forget failed
  | addressSet set => exact forget failed
  | hosts table => exact forget failed
  | whitelist gate =>
      rw [perform, reloadGate, run_get_bind] at failed
      split at failed
      · cases failed
      · split at failed
        · cases failed
        · exact (congrArg Prod.snd failed).symm
  | nothing succeeds =>
      cases succeeds with
      | true => cases failed
      | false => exact (congrArg Prod.snd failed).symm

/-- Something that is done to the engine. -/
inductive Doing where
  | attempt (k : CompositeKind) (id : Nat) (reloading : Bool)
  /-- Anything else: sets are built and registered, files change, time passes. -/
  | other (act : Engine → Engine)

namespace Doing

def apply (s : Engine) : Doing → Engine
  | attempt k id reloading => after (rebuild k.access id reloading) s
  | other act => act s

def succeeds (s : Engine) : Doing → Bool
  | attempt k id reloading => ((rebuild k.access id reloading).run.run s).1.isOk
  | other _ => true

theorem apply_of_failure {s : Engine} {d : Doing} (failed : d.succeeds s = false) :
    d.apply s = s := by
  cases d with
  | other act => cases failed
  | attempt k id reloading =>
      rcases ran : (rebuild k.access id reloading).run.run s with ⟨result, s'⟩
      rw [succeeds, ran] at failed
      cases result with
      | ok summary => cases failed
      | error e =>
          obtain rfl := rebuild_error ran
          rw [apply, after, ran]

end Doing

/-- Does one thing after the other. -/
def play (s : Engine) : List Doing → Engine
  | [] => s
  | d :: ds => play (d.apply s) ds

/-- What is left when the attempts are left out that fail. -/
def withoutFailures (s : Engine) : List Doing → List Doing
  | [] => []
  | d :: ds =>
      if d.succeeds s then d :: withoutFailures (d.apply s) ds
      else withoutFailures (d.apply s) ds

theorem play_withoutFailures (s : Engine) (ds : List Doing) :
    play s (withoutFailures s ds) = play s ds := by
  induction ds generalizing s with
  | nil => rfl
  | cons d ds ih =>
      unfold withoutFailures
      cases succeeds : d.succeeds s with
      | true => simpa [play] using ih (d.apply s)
      | false =>
          have still := Doing.apply_of_failure succeeds
          rw [if_neg (by simp), still, play, still]
          exact ih s

/-- What it means that attempts may fail without any harm. -/
structure Unharmed (s : Engine) : Prop where
  /-- The causes of failure; a set that fails has one, and any one of them is enough. -/
  causes : ∀ (k : CompositeKind) id c reloading, (s.composites k).composites[id]? = some c →
    (((rebuild k.access id reloading).run.run s).1.isOk = false ↔ Obstacle s k c reloading)
  /-- All composites answer as before, and all groups have the size they had. -/
  answers : ∀ (k : CompositeKind) id reloading e s',
    (rebuild k.access id reloading).run.run s = (.error e, s') →
    ∀ (k' : CompositeKind) id',
      (∀ key, (s'.composites k').find id' key = (s.composites k').find id' key) ∧
      (s'.composites k').groupSize id' = (s.composites k').groupSize id'
  /-- A reload that a watcher starts and that fails leaves an entry in the journal and
  counts as started, and that is all. -/
  background : ∀ w id path e s', s.inBackground (perform w.job) = (.error e, s') →
    ∃ event, startJob w id s path =
      (s.updateWatch id fun w => { w with runs := w.runs + 1 }).tell [event]
  /-- Whatever is done in whatever order, the engine ends as if the attempts had not
  been made that failed. -/
  erased : ∀ ds, play s (withoutFailures s ds) = play s ds

theorem inBackground_error {s s' : Engine} {job : Job} {e : Fault}
    (failed : s.inBackground (perform job) = (.error e, s')) : s' = s := by
  unfold inBackground at failed
  rcases ran : (perform job).run.run { s with journal := [] } with ⟨result, after⟩
  rw [ran] at failed
  obtain rfl : result = .error e := congrArg Prod.fst failed
  obtain rfl := perform_error ran
  have same := congrArg Prod.snd failed
  simpa using same.symm

/-- An attempt that fails, for whatever cause and at whatever place, does no harm. -/
theorem failed_attempts_unharmful (s : Engine) : Unharmed s where
  causes _ _ _ reloading composite := rebuild_fails_iff composite reloading
  answers k id reloading e s' failed k' id' := by
    obtain rfl := rebuild_error failed
    exact ⟨fun _ => rfl, rfl⟩
  background w id path e s' failed := by
    have same := inBackground_error failed
    unfold startJob
    rw [failed, same]
    exact ⟨_, rfl⟩
  erased := play_withoutFailures s

end Engine
end LiveRules
