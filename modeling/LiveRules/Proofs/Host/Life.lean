import LiveRules.Pattern.Parser
import LiveRules.Proofs.Engine.Background
import LiveRules.Proofs.Engine.Termination
import LiveRules.Proofs.Host.Links
import LiveRules.Proofs.Host.Turns

/-!
# What the sets of a host refer to as long as it lives

A reload looks up the tags of its set again, one after another, while files are edited,
other sets are reloaded, and the host is closed. But tags only ever go away, and no
provider stands for another set than before. So a reload that comes to its end publishes the
references that the set was built with, and once the host is closed no tag is found any
more.
-/
namespace LiveRules
open Engine

section
variable [PatternLanguage]

/-- A reload that is under way: it has read its rules, and looks up its tags. -/
structure Reload where
  kind : SetKind
  set : Nat
  table : kind.dialect.Table
  found : List Nat := []
  left : List String

/-- An engine with the reloads that are under way. -/
structure World where
  engine : Engine
  reloads : List Reload := []

namespace Host

/-- What can happen once a host is built. A reload that is under way may have read its
files at any time, so nothing is said about its table. -/
inductive Step (h : Host) (w : World) : World → Prop
  | edit (change : Files.Tree → Except Files.ReadError (Files.Tree × List Files.Change)) :
      Step h w { w with engine := (w.engine.changeFiles change).2 }
  | rebuild (k : CompositeKind) (id : Nat) (reloading : Bool) :
      Step h w { w with engine := after (Engine.rebuild k.access id reloading) w.engine }
  | close : Step h w { w with engine := h.close w.engine }
  | begins {k : SetKind} {id : Nat} {c : Composite} (table : k.dialect.Table)
      (there : (w.engine.sets k).composites[id]? = some c) :
      Step h w { w with reloads := w.reloads ++ [⟨k, id, table, [], c.sets⟩] }
  | finds {i ref : Nat} {r : Reload} {c : Composite} {tag : String} {left : List String}
      (listed : w.reloads[i]? = some r) (next : r.left = tag :: left)
      (found : w.engine.lookupGroup r.kind.dialect.capability r.kind.access.pick c tag = .ok ref) :
      Step h w { w with reloads := w.reloads.set i { r with found := r.found ++ [ref], left } }
  | publishes {i : Nat} {r : Reload} (listed : w.reloads[i]? = some r) (done : r.left = []) :
      Step h w ⟨w.engine.withSets r.kind
        ((w.engine.sets r.kind).publish r.set ⟨r.table, r.found⟩), w.reloads.eraseIdx i⟩
  | fails (i : Nat) : Step h w { w with reloads := w.reloads.eraseIdx i }
  /-- Questions are asked, stores write, gates read their whitelists, time passes: no set
  changes, and no tag stands for another provider. -/
  | beside {s : Engine} (same : SameSets w.engine s) (keeps : Keeps w.engine s) :
      Step h w { w with engine := s }

/-- One step after another. -/
abbrev Steps (h : Host) : World → World → Prop := Relation.ReflTransGen h.Step

theorem keeps_close (h : Host) (s : Engine) : Keeps s (h.close s) :=
  (Keeps.foldl keeps_closeProvider h.closingOrder s).trans (keeps_closeAll _)

theorem sameSets_close (h : Host) (s : Engine) : SameSets s (h.close s) :=
  (sameSets_foldl sameSets_closeProvider h.closingOrder s).trans (sameSets_closeAll _)

/-- A host that is closed has no tags any more. -/
theorem resolve_close (h : Host) (s : Engine) (tag : String) :
    (h.close s).registry.resolve tag = none := by
  unfold close closeAll
  generalize h.closingOrder.foldl closeProvider s = closed
  have keeps := (Keeps.foldl keeps_closeProvider (closed.registry.providers.map (·.2))
    { closed with registry := { closed.registry with providers := [] } }).trans
      (.foldl keeps_sweep (closed.registry.providers.map (·.2)) _)
  refine Option.eq_none_iff_forall_ne_some.mpr fun provider found => ?_
  have before := keeps.tags found
  cases before

end Host

namespace Engine

theorem run_rebuild_hosts (s : Engine) (id : Nat) (reloading : Bool) :
    SameSets s (after (rebuild hostAccess id reloading) s) ∧
      Keeps s (after (rebuild hostAccess id reloading) s) := by
  rw [after, run_rebuild_eq]
  split
  · exact ⟨.refl s, .refl s⟩
  · exact ⟨sameSets_of rfl rfl, .of_eq rfl rfl⟩

end Engine

/-! ## What is made of such steps -/

namespace Host
variable (h : Host) (rs : List Reload)

/-- Work that leaves sets, tags and providers alone. -/
theorem steps_beside {s s' : Engine} (domains : s'.domainSets = s.domainSets)
    (addresses : s'.addressSets = s.addressSets) (registry : s'.registry = s.registry)
    (providers : s'.providers = s.providers) : h.Steps ⟨s, rs⟩ ⟨s', rs⟩ :=
  .single (.beside (sameSets_of domains addresses) (.of_eq registry providers))

/-- Whatever time brings is such steps. -/
theorem covers_steps : Covers fun s s' => h.Steps ⟨s, rs⟩ ⟨s', rs⟩ where
  trans := .trans
  beside := fun {s s'} aside =>
    .single (.beside aside.sets (.of_eq aside.registry aside.providers))
  rebuild := fun s k id reloading => .single (.rebuild k id reloading)
  background := fun {s s'} events steps => by
    have silent : h.Steps ⟨s, rs⟩ ⟨{ s with journal := [] }, rs⟩ :=
      h.steps_beside rs rfl rfl rfl rfl
    exact (silent.trans steps).trans (h.steps_beside rs rfl rfl rfl rfl)

/-- Whatever is done with a host is such steps. -/
theorem steps_turn {s s' : Engine} (turn : h.Turn s s') : h.Steps ⟨s, rs⟩ ⟨s', rs⟩ := by
  have collects (a : Collect.Action) (name : String) :
      h.Steps ⟨s, rs⟩ ⟨(runAction s a name).2, rs⟩ := h.steps_beside rs rfl rfl rfl rfl
  have checks (g : Nat) (lookup : List String → Intel.LookupReply) (indicators : List String) :
      h.Steps ⟨s, rs⟩ ⟨(s.checkGate g lookup indicators).2.2, rs⟩ :=
    (h.covers_steps rs).beside (beside_checkGate s g lookup indicators)
  cases turn with
  | edit change => exact .single (.edit change)
  | ask known tag key =>
      rcases h.ask_cases s known tag key with same | ⟨g, same⟩ | ⟨a, same⟩
      · rw [same]
      · rw [same]
        exact checks g _ [key]
      · rw [same]
        exact collects a key
  | collect tag name =>
      rcases h.collect_cases s tag name with same | ⟨a, same⟩
      · rw [same]
      · rw [same]
        exact collects a name
  | check id lookup indicators => exact checks id lookup indicators
  | rebuild k id reloading => exact .single (.rebuild k id reloading)
  | reload id => exact (h.covers_steps rs).beside (beside_reloadGate s id)
  | pass time => exact (h.covers_steps rs).pass s time
  | close => exact .single .close

end Host

/-- No step brings a tag back, or has a provider stand for another set. -/
theorem Host.Step.keeps {h : Host} {w w' : World} (step : h.Step w w') :
    Keeps w.engine w'.engine := by
  cases step with
  | edit change => exact keeps_changeFiles ..
  | rebuild k id reloading =>
      cases k with
      | hosts => exact (run_rebuild_hosts w.engine id reloading).2
      | set k => exact keeps_rebuild ..
  | close => exact h.keeps_close _
  | begins table there => exact .refl _
  | finds listed next found => exact .refl _
  | publishes listed done => exact keeps_withSets ..
  | fails i => exact .refl _
  | beside same keeps => exact keeps

theorem Host.Steps.keeps {h : Host} {w w' : World} (steps : h.Steps w w') :
    Keeps w.engine w'.engine := by
  induction steps with
  | refl => exact .refl _
  | tail _ step ih => exact ih.trans step.keeps

/-- The sets are those that were built, with the references that they were built with, and
every reload under way has found what its tags stood for. -/
structure World.Bound (s : Engine) (w : World) : Prop where
  keeps : Keeps s w.engine
  composites : ∀ k, (w.engine.sets k).composites = (s.sets k).composites
  length : ∀ k, (w.engine.sets k).groups.published.length = (w.engine.sets k).composites.length
  links : ∀ k id, (w.engine.sets k).groups.links id = (s.sets k).groups.links id
  reloads : ∀ r ∈ w.reloads, ∃ c done, (s.sets r.kind).composites[r.set]? = some c ∧
    c.sets = done ++ r.left ∧ List.Forall₂ (s.Names r.kind) done r.found

namespace World.Bound
variable {s s' : Engine} {w w' : World} {k : SetKind} {id : Nat} {c : Composite}

theorem start (linked : ∀ k, Linked s k) : Bound s ⟨s, []⟩ where
  keeps := .refl s
  composites := fun _ => rfl
  length := fun k => (linked k).length
  links := fun _ _ => rfl
  reloads := nofun

theorem beside (bound : Bound s w) (keeps : Keeps s s') (same : SameSets w.engine s') :
    Bound s { w with engine := s' } where
  keeps := keeps
  composites := fun k => by rw [same k]; exact bound.composites k
  length := fun k => by rw [same k]; exact bound.length k
  links := fun k id => by rw [same k]; exact bound.links k id
  reloads := bound.reloads

/-- What the tags of a set stand for is what it was built with. -/
theorem links_eq (linked : Linked s k) (there : (s.sets k).composites[id]? = some c)
    {refs : List Nat} (named : List.Forall₂ (s.Names k) c.sets refs) :
    refs = (s.sets k).groups.links id := by
  have unique : Relator.RightUnique (s.Names k) := fun _ _ _ => Names.unique
  exact List.right_unique_forall₂' unique named ((linked.links there).imp fun _ _ => And.right)

/-- A set that publishes what its tags stand for publishes the references that it has. -/
theorem publish (bound : Bound s w) (linked : Linked s k)
    (there : (s.sets k).composites[id]? = some c) {g : Generation k.dialect}
    (named : List.Forall₂ (s.Names k) c.sets g.references) :
    Bound s { w with engine := w.engine.withSets k ((w.engine.sets k).publish id g) } := by
  have inside : id < (w.engine.sets k).groups.published.length := by
    rw [bound.length k, bound.composites k]
    exact (List.getElem?_eq_some_iff.mp there).1
  have sets (k' : SetKind) :
      ((w.engine.withSets k ((w.engine.sets k).publish id g)).sets k').composites =
        (w.engine.sets k').composites ∧
      ((w.engine.withSets k ((w.engine.sets k).publish id g)).sets k').groups.published.length =
        (w.engine.sets k').groups.published.length ∧
      ∀ other, ((w.engine.withSets k ((w.engine.sets k).publish id g)).sets k').groups.links
        other = (w.engine.sets k').groups.links other := by
    by_cases same : k' = k
    · subst same
      rw [sets_withSets]
      refine ⟨rfl, by simp [Family.publish, Groups.publish], fun other => ?_⟩
      rw [Family.links_publish inside]
      split
      · rename_i own
        rw [own, bound.links k' id]
        exact links_eq linked there named
      · rfl
    · rw [sets_withSets_other _ _ same]
      exact ⟨rfl, rfl, fun _ => rfl⟩
  refine ⟨bound.keeps.trans (keeps_withSets ..), fun k' => ?_, fun k' => ?_, fun k' other => ?_,
    bound.reloads⟩
  · rw [(sets k').1, bound.composites k']
  · rw [(sets k').1, (sets k').2.1, bound.length k']
  · rw [(sets k').2.2 other, bound.links k' other]

theorem rebuild (bound : Bound s w) (linked : ∀ k, Linked s k) (k : CompositeKind) (id : Nat)
    (reloading : Bool) :
    Bound s { w with engine := after (Engine.rebuild k.access id reloading) w.engine } := by
  cases k with
  | hosts =>
      have ⟨same, keeps⟩ := run_rebuild_hosts w.engine id reloading
      exact bound.beside (bound.keeps.trans keeps) same
  | set k =>
      have keeps := bound.keeps.trans (keeps_rebuild w.engine k id reloading)
      have same := sameSets_rebuild w.engine k id reloading
      cases found : w.engine.generation? k id reloading with
      | none =>
          rw [found] at same
          exact bound.beside keeps same
      | some g =>
          rw [found] at same
          obtain ⟨c, there, -, resolved⟩ := Family.generation?_eq_some found
          rw [bound.composites k] at there
          have named := resolved.imp fun tag ref found =>
            bound.keeps.names (names_of_found (k := k) found)
          exact (bound.publish (linked k) there named).beside keeps same

theorem step (bound : Bound s w) (linked : ∀ k, Linked s k) {h : Host} (step : h.Step w w') :
    Bound s w' := by
  cases step with
  | edit change =>
      exact bound.beside (bound.keeps.trans (keeps_changeFiles ..)) (sameSets_changeFiles _ _)
  | rebuild k id reloading => exact bound.rebuild linked k id reloading
  | close => exact bound.beside (bound.keeps.trans (h.keeps_close _)) (h.sameSets_close _)
  | @begins k id c table there =>
      refine { bound with reloads := fun r listed => ?_ }
      rcases List.mem_append.mp listed with old | new
      · exact bound.reloads r old
      · obtain rfl := List.mem_singleton.mp new
        rw [bound.composites k] at there
        exact ⟨c, [], there, rfl, .nil⟩
  | @finds i ref r c tag left listed next found =>
      refine { bound with reloads := fun r' listed' => ?_ }
      rcases List.mem_or_eq_of_mem_set listed' with old | rfl
      · exact bound.reloads r' old
      · obtain ⟨c', done, there, whole, named⟩ :=
          bound.reloads r (List.mem_of_getElem? listed)
        refine ⟨c', done ++ [tag], there, ?_, ?_⟩
        · rw [whole, next, List.append_assoc]
          rfl
        · exact List.rel_append named (.cons (bound.keeps.names (names_of_found found)) .nil)
  | @publishes i r listed done =>
      obtain ⟨c, found, there, whole, named⟩ := bound.reloads r (List.mem_of_getElem? listed)
      rw [done, List.append_nil] at whole
      rw [← whole] at named
      have published := bound.publish (linked r.kind) there (g := ⟨r.table, r.found⟩) named
      exact { published with
        reloads := fun r' listed' => bound.reloads r' (List.mem_of_mem_eraseIdx listed') }
  | fails i =>
      exact { bound with
        reloads := fun r' listed' => bound.reloads r' (List.mem_of_mem_eraseIdx listed') }
  | beside same keeps => exact bound.beside (bound.keeps.trans keeps) same

/-- Whatever happens, in whatever order. -/
theorem steps (bound : Bound s w) (linked : ∀ k, Linked s k) {h : Host} (steps : h.Steps w w') :
    Bound s w' := by
  induction steps with
  | refl => exact bound
  | tail _ step ih => exact ih.step linked step

/-- References that lead to earlier sets only come to an end. -/
theorem ends (bound : Bound s w) (linked : Linked s k) (id : Nat) (key : k.dialect.Key) :
    w.engine.Ends k id key ((w.engine.sets k).find id key) := by
  have below (id : Nat) : ∀ ref ∈ (w.engine.sets k).groups.links id, ref < id := by
    intro ref listed
    rw [bound.links k id] at listed
    have inside : id < (s.sets k).composites.length := by
      rw [← linked.length]
      exact (Groups.mem_links.mp listed).lt
    obtain ⟨tag, -, earlier, -⟩ := Lists.exists_left
      (linked.links (List.getElem?_eq_getElem inside)) ref listed
    exact earlier
  exact (Groups.acyclic_of_lt below).answers (k.dialect.probe key) id

end World.Bound

/-- What the sets of a host refer to after anything that can happen. -/
structure World.Grounded (c : Settings) (built : Engine) (w : World) (k : SetKind) : Prop where
  founded : Founded c w.engine k
  same : ∀ id, (w.engine.sets k).groups.links id = (built.sets k).groups.links id
  ends : ∀ id key, w.engine.Ends k id key ((w.engine.sets k).find id key)

/-- What is left of reloads once a host has been closed. -/
structure World.Spent (c : Settings) (w : World) (k : SetKind) : Prop where
  /-- A reload of a set with references fails, and changes nothing. -/
  fails : ∀ {id r}, (c.requests k)[id]? = some r → r.sets ≠ [] → ∀ reloading,
    ∃ e, (rebuild k.access id reloading).run.run w.engine = (.error e, w.engine)
  /-- No reload finds another tag, whenever it has begun. -/
  lost : ∀ x tag,
    (w.engine.lookupGroup k.dialect.capability k.access.pick x tag).isOk = false

theorem World.spent {c : Settings} {w : World} {k : SetKind} (founded : Founded c w.engine k)
    (closed : ∀ tag, w.engine.registry.resolve tag = none) : Spent c w k := by
  have lost (x : Composite) (tag : String) :
      (w.engine.lookupGroup k.dialect.capability k.access.pick x tag).isOk = false :=
    (lookupGroup_fails ..).mpr (.inr (.inl (closed tag)))
  refine ⟨fun {id r} there linked reloading => ?_, lost⟩
  have described := congrArg (fun l => l[id]?) founded.sets
  simp only [List.getElem?_map, there, Option.map_some] at described
  obtain ⟨x, composite, pair⟩ := Option.map_eq_some_iff.mp described
  obtain ⟨-, sets⟩ := Prod.mk.inj pair
  obtain ⟨tag, listed⟩ := List.exists_mem_of_ne_nil _ (sets ▸ linked)
  have failed := (rebuild_fails_iff (k := .set k) composite reloading).mpr
    (.unknown listed (closed tag))
  rcases ran : (rebuild k.access id reloading).run.run w.engine with ⟨result, s'⟩
  have same : (rebuild (CompositeKind.set k).access id reloading).run.run w.engine =
      (result, s') := ran
  rw [same] at failed
  cases result with
  | ok summary => cases failed
  | error e => exact ⟨e, by rw [rebuild_error ran]⟩

namespace Host

/-- The references of a host stay what they were when it was built, and all lookups end. After
it is closed no set with references is reloaded. This is so after any steps, and whatever is
done with a host is such steps. -/
theorem grounded {c : Settings} {s : Engine} {h : Host} (vacant : Vacant s)
    (unshared : s.collect.shared = []) (built : (build c s).1 = .ok h) {w : World}
    (steps : h.Steps ⟨(build c s).2, []⟩ w) :
    (∀ k, w.Grounded c (build c s).2 k) ∧
      (∀ w', h.Steps { w with engine := h.close w.engine } w' → ∀ k, w'.Spent c k) ∧
      ∀ e, h.Turn w.engine e → h.Steps w { w with engine := e } := by
  have linked k := (founded_of_build vacant unshared built k).1
  have bound := (World.Bound.start linked).steps linked steps
  have founded {w : World} (bound : w.Bound (build c s).2) k : Founded c w.engine k :=
    (founded_of_build vacant unshared built k).2.of_same (bound.composites k) (bound.links k)
  refine ⟨fun k => ⟨founded bound k, bound.links k, bound.ends (linked k)⟩, fun w' later k => ?_,
    fun e turn => h.steps_turn w.reloads turn⟩
  have bound' := (bound.step linked .close).steps linked later
  refine World.spent (founded bound' k) fun tag => ?_
  refine Option.eq_none_iff_forall_ne_some.mpr fun provider found => ?_
  have before := (Steps.keeps later).tags found
  rw [resolve_close] at before
  cases before

end Host
end

namespace Host
open scoped Pattern

/-- The second set is reloaded before and after the host is closed. -/
theorem grounded_household :
    Vacant {} ∧ ({} : Engine).collect.shared = [] ∧ ∃ h, (build household {}).1 = .ok h ∧
      ∃ closed, closed =
        h.close (after (Engine.rebuild domainAccess 1 true) (build household {}).2) ∧
      (closed.sets .domains).groups.links 1 = [0] ∧
      ∃ e, (Engine.rebuild domainAccess 1 true).run.run closed = (.error e, closed) := by
  have vacant : Vacant {} := ⟨fun k => by cases k <;> rfl, rfl, rfl⟩
  have succeeds : (build household {}).1.isOk = true := by decide +kernel
  have links : ((build household {}).2.sets .domains).groups.links 1 = [0] := by decide +kernel
  obtain ⟨h, built⟩ : ∃ h, (build household {}).1 = .ok h := by
    cases result : (build household {}).1 with
    | error e =>
        rw [result] at succeeds
        cases succeeds
    | ok h => exact ⟨h, rfl⟩
  have life {w : World} (steps : h.Steps ⟨(build household {}).2, []⟩ w) :=
    grounded vacant rfl built steps
  have there : (household.requests .domains)[1]? =
      some ⟨"all", ⟨[], []⟩, ["ads"], false, 500, true⟩ := rfl
  -- What the host looks like is not to be computed again.
  generalize (build household {}).2 = s at *
  have reload : h.Steps ⟨s, []⟩ ⟨after (Engine.rebuild domainAccess 1 true) s, []⟩ :=
    .single (.rebuild (.set .domains) 1 true)
  have ⟨still, spent, _⟩ := life reload
  refine ⟨vacant, rfl, h, built, _, rfl, ?_, ?_⟩
  · rw [sameSets_close h _ .domains, (still .domains).same 1, links]
  · exact (spent _ .refl .domains).fails there (by simp) true

end Host
end LiveRules
