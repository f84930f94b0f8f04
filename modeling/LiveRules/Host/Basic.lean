import LiveRules.Engine.Time
import LiveRules.Settings.Load

/-!
# Hosts

A host builds all configured plugins in order: domain sets, address sets, hosts
tables, collect actions and gates, and keeps them by kind. A set can only refer to sets
before it. When one plugin cannot be built or its tag is taken, everything built so far
is closed again.
-/
namespace LiveRules

/-- The kinds of plugins that a host keeps. -/
inductive PluginKind where
  | domainSet | addressSet | hosts | gate | collect
  deriving DecidableEq, Repr

/-- The kinds in the order in which their plugins are asked and closed. -/
def PluginKind.all : List PluginKind := [domainSet, addressSet, hosts, gate, collect]

/-- The plugins of a host: of each kind the providers by tag, sorted. -/
structure Host where
  domainSets : List (String × Nat) := []
  addressSets : List (String × Nat) := []
  hosts : List (String × Nat) := []
  actions : List (String × Nat) := []
  gates : List (String × Nat) := []
  deriving DecidableEq, Repr

namespace Host

/-- The plugins of a kind. -/
def shelf (h : Host) : PluginKind → List (String × Nat)
  | .domainSet => h.domainSets
  | .addressSet => h.addressSets
  | .hosts => h.hosts
  | .gate => h.gates
  | .collect => h.actions

/-- The host with one more plugin of a kind. -/
def keep (h : Host) (kind : PluginKind) (tag : String) (id : Nat) : Host :=
  let more := Registry.insertSorted tag id (h.shelf kind)
  match kind with
  | .domainSet => { h with domainSets := more }
  | .addressSet => { h with addressSets := more }
  | .hosts => { h with hosts := more }
  | .gate => { h with gates := more }
  | .collect => { h with actions := more }

open Engine
variable [PatternLanguage]

def domainRequest (r : ReloadSettings) (s : DomainSetSettings) : SetRequest where
  tag := s.tag
  source := ⟨s.expressions, s.files⟩
  sets := s.sets
  autoReload := s.autoReload
  debounce := r.debounceFor s.debounce
  includeRename := r.includeRename

def addressRequest (r : ReloadSettings) (s : AddressSetSettings) : SetRequest where
  tag := s.tag
  source := ⟨s.ips, s.files⟩
  sets := s.sets
  autoReload := s.autoReload
  debounce := r.debounceFor s.debounce
  includeRename := r.includeRename

def hostsRequest (r : ReloadSettings) (s : HostsSettings) : SetRequest where
  tag := s.tag
  source := ⟨s.entries, s.files⟩
  autoReload := s.autoReload
  debounce := r.debounce
  includeRename := r.includeRename

def gateRequest (r : ReloadSettings) (s : IntelSettings) : GateRequest where
  tag := s.tag
  whitelist := s.whitelist
  ttl := s.ttl * 1000
  autoReload := s.autoReload
  debounce := r.debounce
  includeRename := r.includeRename

/-- Registers a new provider; one whose tag is taken is closed. -/
def enroll (build : Act Nat) : Act Nat := do
  let id ← build
  tryCatch (register id) fun e => do
    modify fun s => (s.closeProvider id).release id
    throw e
  return id

/-- Work on a host that is being built. What was done before it failed stays. -/
abbrev Making := ExceptT Fault (StateM (Host × Engine))

/-- Builds and registers a plugin and keeps it with those of its kind. -/
def shelve (kind : PluginKind) (tag : String) (build : Act Nat) : Making Unit := fun (h, s) =>
  match (enroll build).run.run s with
  | (.ok id, s) => (.ok (), h.keep kind tag id, s)
  | (.error e, s) => (.error e, h, s)

/-- Builds all plugins in order. -/
def buildAll (s : Settings) : Making Unit := do
  s.domainSets.forM fun d =>
    shelve .domainSet d.tag (buildDomainSet (domainRequest s.reload d))
  s.addressSets.forM fun a =>
    shelve .addressSet a.tag (buildAddressSet (addressRequest s.reload a))
  s.hosts.forM fun h => shelve .hosts h.tag (buildHosts (hostsRequest s.reload h))
  s.actions.forM fun a => shelve .collect a.tag (buildAction a.tag a.path a.format a.operation)
  s.intel.forM fun i => shelve .gate i.tag (buildGate (gateRequest s.reload i))

/-- The providers of a host in the order in which they are closed. -/
def closingOrder (h : Host) : List Nat :=
  PluginKind.all.flatMap fun kind => (h.shelf kind).map (·.2)

/-- Closes every plugin and empties the registry. -/
def close (h : Host) (s : Engine) : Engine :=
  (h.closingOrder.foldl closeProvider s).closeAll

def ready (s : Engine) : LogEvent :=
  .note .info .host "host" "ready"
    (toString s.registry.providers.length ++ " plugins: " ++ ", ".intercalate s.registry.tags)

/-- Builds a host, or leaves everything closed. -/
def build (settings : Settings) (s : Engine) : Except Fault Host × Engine :=
  let (result, h, s) := (buildAll settings).run.run
    ({}, { s with collect := { s.collect with config := settings.collect } })
  match result with
  | .ok _ => (.ok h, s.tell [ready s])
  | .error e => (.error e, h.close s)

def inspect (s : Engine) : String :=
  Text.record "PluginHost" [("plugins", Text.quotedList s.registry.tags),
    ("collect_stores", toString s.collect.shared.length)]

/-- The plugin of a kind with a tag. -/
def find? (h : Host) (s : Engine) (kind : PluginKind) (tag : String) : Option Plugin :=
  ((h.shelf kind).lookup tag).bind fun id => s.providers[id]?.map Provider.plugin

/-- The plugin of a tag, whatever its kind. -/
def plugin? (h : Host) (s : Engine) (tag : String) : Option Plugin :=
  PluginKind.all.findSome? fun kind => h.find? s kind tag

end Host

/-- Why a question has no answer. -/
inductive AskError where
  | noPlugin (tag : String)
  | notAnAddress (key : String)
  | noAction (tag : String)
  deriving DecidableEq, Repr

namespace AskError

def message : AskError → String
  | noPlugin tag => "No plugin with tag '" ++ tag ++ "'"
  | notAnAddress key => "'" ++ key ++ "' is not an IP address"
  | noAction tag => "No collect action with tag '" ++ tag ++ "'"

/-- The messages of what the error wraps. -/
def causes : AskError → List String
  | notAnAddress _ => [Net.Address.syntaxMessage]
  | noPlugin _ | noAction _ => []

end AskError

namespace Host
variable [PatternLanguage]

def matched (hit : Bool) : String := if hit then "match" else "no match"

/-- What became of a collected name. -/
def collected (changed : Bool) : Option String → String
  | none => "ignored (empty name)"
  | some entry => (if changed then "updated " else "unchanged ") ++ entry

def runAction (s : Engine) (a : Collect.Action) (name : String) : String × Engine :=
  let (changed, s) := s.atDesk fun d => a.run d name
  (collected changed (a.entryFor name), s)

/-- Asks a plugin about a key; gates know the verdicts `known`. -/
def ask (h : Host) (known : List (String × Bool)) (tag key : String) (s : Engine) :
    Except AskError String × Engine :=
  match h.plugin? s tag with
  | some (.domainSet g) => (.ok (matched (s.domainSets.find g key).isSome), s)
  | some (.addressSet g) =>
      match Net.Address.parse? key with
      | some a => (.ok (matched (s.addressSets.find g a).isSome), s)
      | none => (.error (.notAnAddress key), s)
  | some (.hosts g) =>
      match s.hostTables.find g key with
      | some addresses => (.ok (" ".intercalate (addresses.map (·.render))), s)
      | none => (.ok "no entry", s)
  | some (.gate g) =>
      let (verdict, _, s) := s.checkGate g (Intel.staticReply known) [key]
      match verdict with
      | .block name => (.ok ("block (" ++ name ++ ")"), s)
      | .pass => (.ok "pass", s)
  | some (.collect a) =>
      let (said, s) := runAction s a key
      (.ok said, s)
  | _ => (.error (.noPlugin tag), s)

/-- A question with a clock that reads `start` at time 0; nothing is answered if the
program ends meanwhile. -/
def ask? (h : Host) (start : Instant) (known : List (String × Bool)) (tag key : String)
    (s : Engine) : Option (Except AskError String × Engine) :=
  match h.plugin? s tag with
  | some (.gate g) => do
      let _ ← s.checkGate? start g (Intel.staticReply known) [key]
      return h.ask known tag key s
  | _ => some (h.ask known tag key s)

/-- Runs a collect action for a name. -/
def collect (h : Host) (tag name : String) (s : Engine) : Except AskError String × Engine :=
  match h.find? s .collect tag with
  | some (.collect a) =>
      let (said, s) := runAction s a name
      (.ok said, s)
  | _ => (.error (.noAction tag), s)

end Host
end LiveRules
