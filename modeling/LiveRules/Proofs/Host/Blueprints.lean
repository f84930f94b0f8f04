import LiveRules.Host.Basic
import LiveRules.Proofs.Engine.Attempts

/-!
# What a host is told to build

The settings of a host are one list of blueprints, in the order in which its plugins
are built. Sets and tables differ in their dialects only, so there are three shapes of
blueprints for five kinds of plugins.
-/
namespace LiveRules
variable [PatternLanguage]

namespace CompositeKind

def plugin : CompositeKind → Nat → Plugin
  | set k => k.plugin
  | hosts => .hosts

def job : CompositeKind → Nat → Job
  | set k => k.job
  | hosts => .hosts

/-- Whether composites of the kind refer to others. -/
def linked : CompositeKind → Bool
  | set _ => true
  | hosts => false

end CompositeKind

namespace Plugin

/-- The kind of a plugin that hosts keep. -/
def kind? : Plugin → Option PluginKind
  | domainSet _ => some .domainSet
  | addressSet _ => some .addressSet
  | hosts _ => some .hosts
  | gate _ => some .gate
  | collect _ => some .collect
  | stub _ => none

/-- A plugin that may have a watcher, but no handle of a store. -/
def Watches (p : Plugin) : Prop := ∃ kind, p.kind? = some kind ∧ kind ≠ .collect

omit [PatternLanguage] in
theorem Watches.hosted {p : Plugin} (watches : p.Watches) : p.kind?.isSome = true := by
  obtain ⟨kind, same, -⟩ := watches
  rw [same]
  rfl

omit [PatternLanguage] in
theorem not_watches_collect (action : Collect.Action) : ¬ (collect action).Watches := by
  rintro ⟨kind, same, other⟩
  exact other (Option.some.inj same).symm

omit [PatternLanguage] in
/-- The plugins of hosts have a watcher at most or a handle. -/
theorem watches_or_collects {p : Plugin} (kept : p.kind?.isSome = true) :
    p.Watches ∨ ∃ action, p = .collect action := by
  obtain ⟨kind, same⟩ := Option.isSome_iff_exists.mp kept
  cases p with
  | collect action => exact .inr ⟨action, rfl⟩
  | stub closes => cases same
  | _ => exact .inl ⟨kind, same, by cases same; nofun⟩

end Plugin

omit [PatternLanguage] in
theorem CompositeKind.watches_plugin (k : CompositeKind) (id : Nat) : (k.plugin id).Watches := by
  rcases k with (_ | _) | _ <;> exact ⟨_, rfl, nofun⟩

namespace SetRequest

/-- The watcher that is asked for. -/
def watch? (r : SetRequest) : Option Watch.Request := if r.wantsWatch then some r.watch else none

end SetRequest

namespace Engine.GateRequest

def watch? (r : GateRequest) : Option Watch.Request :=
  match r.whitelist with
  | none => none
  | some path =>
      if r.autoReload then some ⟨r.tag, [path], r.debounce, r.includeRename⟩ else none

end Engine.GateRequest

/-- What a plugin is built from. -/
inductive Blueprint where
  | rules (k : CompositeKind) (r : SetRequest)
  | action (a : ActionSettings)
  | gate (r : Engine.GateRequest)

namespace Blueprint
open Engine

def tag : Blueprint → String
  | rules _ r => r.tag
  | action a => a.tag
  | gate r => r.tag

def build : Blueprint → Act Nat
  | rules k r => buildSet k.access r k.linked k.plugin k.job
  | action a => buildAction a.tag a.path a.format a.operation
  | gate r => buildGate r

/-- With which plugins it is kept. -/
def kind : Blueprint → PluginKind
  | rules (.set .domains) _ => .domainSet
  | rules (.set .addresses) _ => .addressSet
  | rules .hosts _ => .hosts
  | gate _ => .gate
  | action _ => .collect

end Blueprint

/-- Everything that is to be built, in order. -/
def Settings.blueprints (c : Settings) : List Blueprint :=
  c.domainSets.map (fun d => .rules (.set .domains) (Host.domainRequest c.reload d)) ++
    c.addressSets.map (fun a => .rules (.set .addresses) (Host.addressRequest c.reload a)) ++
    c.hosts.map (fun h => .rules .hosts (Host.hostsRequest c.reload h)) ++
    c.actions.map .action ++
    c.intel.map (fun i => .gate (Host.gateRequest c.reload i))

theorem Host.buildAll_eq (c : Settings) :
    Host.buildAll c = forM c.blueprints fun b => Host.shelve b.kind b.tag b.build := by
  simp only [Host.buildAll, Settings.blueprints, List.forM_eq_forM, List.forM_append,
    List.forM_map, bind_assoc]
  rfl

/-! ## The composites of the engine -/

namespace Engine

/-- The engine with other composites of a kind. -/
def withComposites (s : Engine) (k : CompositeKind) (f : Family k.dialect) : Engine :=
  k.access.store s f

theorem composites_withComposites (s : Engine) (k : CompositeKind) (f : Family k.dialect) :
    (s.withComposites k f).composites k = f := by
  rcases k with (_ | _) | _ <;> rfl

theorem composites_withComposites_other (s : Engine) {k k' : CompositeKind}
    (f : Family k.dialect) (other : k' ≠ k) :
    (s.withComposites k f).composites k' = s.composites k' := by
  rcases k with (_ | _) | _ <;> rcases k' with (_ | _) | _ <;>
    first | rfl | exact absurd rfl other

end Engine
end LiveRules
