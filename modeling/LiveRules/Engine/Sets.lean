import LiveRules.Engine.Basic

/-!
# Building and reloading sets

A set finds the sets it refers to by tag, in the registry that it was built for,
and only among those of its own kind. A set with files that wants to be kept up
to date gets a watcher once its rules have been built.
-/
namespace LiveRules

/-- What a set or a table is built from. -/
structure SetRequest where
  tag : String
  source : RuleSource
  sets : List String := []
  autoReload : Bool := false
  /-- Milliseconds without a change before a reload. -/
  debounce : Nat
  includeRename : Bool := true
  deriving DecidableEq, Repr

namespace SetRequest

def watch (r : SetRequest) : Watch.Request :=
  ⟨r.tag, r.source.files, r.debounce, r.includeRename⟩

def wantsWatch (r : SetRequest) : Bool := r.autoReload && !r.source.files.isEmpty

end SetRequest

namespace Engine
variable [PatternLanguage]

/-- The group that a tag stands for in the eyes of a composite. -/
def lookupGroup (s : Engine) (wanted : String) (pick : Plugin → Option Nat) (c : Composite)
    (tag : String) : Except ProviderError Nat :=
  if c.registry != some s.registry.number then .error .registryClosed
  else match s.registry.resolve tag with
    | none => .error (.notFound tag)
    | some id =>
        match (s.providers[id]?.map Provider.plugin).bind pick with
        | some group => .ok group
        | none => .error (.capability tag wanted)

/-- Which group of a dialect a provider offers. -/
structure Access (D : Dialect) where
  family : Engine → Family D
  store : Engine → Family D → Engine
  pick : Plugin → Option Nat

def domainAccess : Access Dialect.domains :=
  ⟨domainSets, fun s f => { s with domainSets := f }, Plugin.domainGroup?⟩

def addressAccess : Access Dialect.addresses :=
  ⟨addressSets, fun s f => { s with addressSets := f }, Plugin.addressGroup?⟩

/-- No provider offers a hosts table to others. -/
def hostAccess : Access Dialect.hosts :=
  ⟨hostTables, fun s f => { s with hostTables := f }, fun _ => none⟩

variable {D : Dialect}

/-- A new composite for the present registry. -/
def newComposite (a : Access D) (c : Composite) : Act Nat :=
  modifyGet fun s =>
    let (id, f) := (a.family s).create c
    (id, a.store s f)

def rebuild (a : Access D) (id : Nat) (reloading : Bool) : Act RebuildSummary := do
  let s ← get
  match (a.family s).rebuild id s.files (s.lookupGroup D.capability a.pick) reloading with
  | .error e => throw e
  | .ok (summary, event, f) =>
      set ((a.store s f).tell [event])
      return summary

/-- Builds a set and a provider for it. -/
def buildSet (a : Access D) (r : SetRequest) (linked : Bool) (plugin : Nat → Plugin)
    (job : Nat → Job) : Act Nat := do
  let present := (← get).registry.number
  let registry := if linked then some present else none
  let id ← newComposite a { tag := r.tag, source := r.source, sets := r.sets, registry }
  let _ ← rebuild a id false
  let watch ← if r.wantsWatch then some <$> startWatch r.watch (job id) else pure none
  addProvider { tag := r.tag, plugin := plugin id, watch }

def buildDomainSet (r : SetRequest) : Act Nat :=
  buildSet domainAccess r true .domainSet .domainSet

def buildAddressSet (r : SetRequest) : Act Nat :=
  buildSet addressAccess r true .addressSet .addressSet

/-- A table refers to no other sets. -/
def buildHosts (r : SetRequest) : Act Nat :=
  buildSet hostAccess { r with sets := [] } false .hosts .hosts

/-- What a gate is built from. -/
structure GateRequest where
  tag : String
  whitelist : Option String := none
  /-- Milliseconds that a verdict lives. -/
  ttl : Nat
  autoReload : Bool := true
  debounce : Nat
  includeRename : Bool := true
  deriving DecidableEq, Repr

def addGate (g : Intel.Gate) : Act Nat :=
  modifyGet fun s => (s.gates.length, { s with gates := s.gates ++ [g] })

def updateGate (s : Engine) (id : Nat) (g : Intel.Gate) : Engine :=
  { s with gates := s.gates.set id g }

/-- Reads the whitelist of a gate again. -/
def reloadGate (id : Nat) : Act Unit := do
  let s ← get
  match s.gates[id]? with
  | none => return
  | some g =>
      match g.reload s.files with
      | .ok g => set (s.updateGate id g)
      | .error e => throw e

def buildGate (r : GateRequest) : Act Nat := do
  let s ← get
  let gate : Intel.Gate :=
    { tag := r.tag, file := r.whitelist, cache := { ttl := r.ttl, lastSweep := s.now } }
  let id ← addGate gate
  let watch ← match r.whitelist with
    | none => pure none
    | some path => do
        reloadGate id
        modify fun s => s.tell ((s.gates[id]?.map (·.announce)).toList)
        if r.autoReload then
          some <$> startWatch ⟨r.tag, [path], r.debounce, r.includeRename⟩ (.whitelist id)
        else pure none
  addProvider { tag := r.tag, plugin := .gate id, watch }

/-- Has a gate decide on indicators. -/
def checkGate (s : Engine) (id : Nat) (lookup : List String → Intel.LookupReply)
    (indicators : List String) : Intel.Verdict × Option (List String) × Engine :=
  match s.gates[id]? with
  | none => (.pass, none, s)
  | some g =>
      let (verdict, batch, events, g) := g.check s.now lookup indicators
      (verdict, batch, (s.updateGate id g).tell events)

/-- Has a gate decide with a clock that reads `start` at time 0; nothing is answered
if the program ends meanwhile. -/
def checkGate? (s : Engine) (start : Instant) (id : Nat)
    (lookup : List String → Intel.LookupReply) (indicators : List String) :
    Option (Intel.Verdict × Option (List String) × Engine) :=
  match s.gates[id]? with
  | none => some (.pass, none, s)
  | some g => do
      let (verdict, batch, events, g) ← g.check? start s.now lookup indicators
      return (verdict, batch, (s.updateGate id g).tell events)

def buildAction (tag path format operation : String) : Act Nat := do
  match ← modifyGet fun s => s.atDesk fun d => Collect.Action.create d tag path format operation with
  | .error e => throw e
  | .ok action => addProvider { tag, plugin := .collect action }

end Engine
end LiveRules
