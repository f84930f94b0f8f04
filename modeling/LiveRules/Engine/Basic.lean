import LiveRules.Collect.Action
import LiveRules.Intel.Gate
import LiveRules.Rules.Composite
import LiveRules.Watch.Watcher

/-!
# The running engine

Everything that lives while the program runs: the files it works on, the clock,
its rule sets, tables, gates and collect stores, the watchers that bring them up
to date, and the registry in which sets find each other by tag. Time stands
still unless something waits.
-/
namespace LiveRules

/-- What is to be brought up to date when a watched file has changed. -/
inductive Job where
  | domainSet (set : Nat)
  | addressSet (set : Nat)
  | hosts (table : Nat)
  | whitelist (gate : Nat)
  /-- Nothing; whether that succeeds. -/
  | nothing (succeeds : Bool)
  deriving DecidableEq, Repr

/-- A watcher with its job and how often it was started. -/
structure Watch where
  watcher : Watch.Watcher
  job : Job
  runs : Nat := 0
  deriving DecidableEq, Repr

/-- What a provider stands for. -/
inductive Plugin where
  | domainSet (set : Nat)
  | addressSet (set : Nat)
  | hosts (table : Nat)
  | collect (action : Collect.Action)
  | gate (id : Nat)
  /-- Has no rules; counts how often it was closed. -/
  | stub (closes : Nat)
  deriving DecidableEq, Repr

namespace Plugin

def domainGroup? : Plugin → Option Nat
  | domainSet set => some set
  | _ => none

def addressGroup? : Plugin → Option Nat
  | addressSet set => some set
  | _ => none

end Plugin

structure Provider where
  tag : String
  plugin : Plugin
  /-- The watcher that keeps it up to date. -/
  watch : Option Nat := none
  deriving DecidableEq, Repr

/-- Providers by tag, sorted. A registry that is replaced by a new one is
closed for the sets that refer to it. -/
structure Registry where
  number : Nat := 0
  providers : List (String × Nat) := []
  deriving DecidableEq, Repr

namespace Registry

def resolve (r : Registry) (tag : String) : Option Nat := r.providers.lookup tag

def tags (r : Registry) : List String := r.providers.map (·.1)

def insertSorted (tag : String) (id : Nat) : List (String × Nat) → List (String × Nat)
  | [] => [(tag, id)]
  | e :: es => if tag < e.1 then (tag, id) :: e :: es else e :: insertSorted tag id es

def insert (r : Registry) (tag : String) (id : Nat) : Registry :=
  { r with providers := insertSorted tag id r.providers }

def erase (r : Registry) (tag : String) : Registry :=
  { r with providers := r.providers.filter (·.1 ≠ tag) }

def inspect (r : Registry) : String :=
  Text.record "ProviderRegistry" [("tags", Text.quotedList r.tags)]

end Registry

structure Engine [PatternLanguage] where
  files : Files.Tree := {}
  /-- Milliseconds since the start. -/
  now : Nat := 0
  /-- Whether watchers can be started. -/
  runtime : Bool := true
  journal : List LogEvent := []
  watches : List Watch := []
  domainSets : Family Dialect.domains := {}
  addressSets : Family Dialect.addresses := {}
  hostTables : Family Dialect.hosts := {}
  gates : List Intel.Gate := []
  collect : Collect.Registry := {}
  providers : List Provider := []
  registry : Registry := {}
  /-- The providers that somebody holds besides the registry. -/
  held : List Nat := []

/-- Work on the engine that may fail. What was done before it failed stays. -/
abbrev Act [PatternLanguage] := ExceptT Fault (StateM Engine)

namespace Engine
variable [PatternLanguage]

def tell (s : Engine) (events : List LogEvent) : Engine :=
  { s with journal := s.journal ++ events }

/-- Shows changes of files to all watchers. -/
def observe (s : Engine) (changes : List Files.Change) : Engine :=
  { s with watches := s.watches.map fun w =>
      { w with watcher := changes.foldl (fun w c => w.observe s.now c) w.watcher } }

/-- Changes the files; says whether that worked. -/
def changeFiles (s : Engine)
    (change : Files.Tree → Except Files.ReadError (Files.Tree × List Files.Change)) :
    Bool × Engine :=
  match change s.files with
  | .ok (files, changes) => (true, { s with files }.observe changes)
  | .error _ => (false, s)

/-- Works on the collect stores. -/
def atDesk {α : Type} (s : Engine) (act : Collect.Desk → α × Collect.Desk) : α × Engine :=
  let (a, d) := act { registry := s.collect, files := s.files }
  (a, ({ s with collect := d.registry, files := d.files }.observe d.changes).tell d.events)

def updateWatch (s : Engine) (id : Nat) (f : Watch → Watch) : Engine :=
  { s with watches := s.watches.modify id f }

def closeWatch (s : Engine) (id : Nat) : Engine :=
  match s.watches[id]? with
  | none => s
  | some w =>
      let (events, watcher) := w.watcher.close
      (s.updateWatch id fun w => { w with watcher }).tell events

def isWatching (s : Engine) (id : Option Nat) : Bool :=
  (id.bind fun id => s.watches[id]?).any fun w => !w.watcher.closed

/-- Starts a watcher for a job. -/
def startWatch (request : Watch.Request) (job : Job) : Act Nat := do
  let s ← get
  if !s.runtime then throw (.watch .noRuntime)
  let (events, result) := Watch.Watcher.start s.files request
  modify (·.tell events)
  match result with
  | .error e => throw (.watch e)
  | .ok watcher =>
      modifyGet fun s =>
        (s.watches.length, { s with watches := s.watches ++ [{ watcher, job }] })

/-- Without a job to start there is no watcher. -/
def startSilent : Act Nat := do
  if !(← get).runtime then throw (.watch .noRuntime)
  throw (.watch .noCallback)

/-- A new provider, which somebody holds. -/
def addProvider (p : Provider) : Act Nat :=
  modifyGet fun s =>
    (s.providers.length,
      { s with providers := s.providers ++ [p], held := s.providers.length :: s.held })

def isRegistered (s : Engine) (id : Nat) : Bool := s.registry.providers.any (·.2 = id)

/-- Stops what works for a provider. -/
def closeProvider (s : Engine) (id : Nat) : Engine :=
  match s.providers[id]? with
  | none => s
  | some p =>
      match p.plugin with
      | .collect action => (s.atDesk fun d => ((), d.release action.handle)).2
      | .stub closes =>
          let p := { p with plugin := Plugin.stub (closes + 1) }
          { s with providers := s.providers.set id p }
      | _ =>
          match p.watch with
          | some watch => s.closeWatch watch
          | none => s

/-- A provider that nobody holds any more ends; unlike closing one, that tells a
stub nothing. -/
def sweep (s : Engine) (id : Nat) : Engine :=
  if s.isRegistered id || s.held.contains id then s
  else match s.providers[id]?.map Provider.plugin with
    | some (.stub _) => s
    | _ => s.closeProvider id

/-- Somebody lets go of a provider. -/
def release (s : Engine) (id : Nat) : Engine :=
  { s with held := s.held.erase id }.sweep id

def register (id : Nat) : Act Unit := do
  let s ← get
  match s.providers[id]? with
  | none => return
  | some p =>
      if (s.registry.resolve p.tag).isSome then throw (.provider (.duplicate p.tag))
      set ({ s with registry := s.registry.insert p.tag id }.tell
        [.note .debug .providers "registry" "registered" p.tag])

/-- Takes a tag out of the registry. -/
def unregister (s : Engine) (tag : String) : Option Nat × Engine :=
  match s.registry.resolve tag with
  | none => (none, s)
  | some id => (some id, { s with registry := s.registry.erase tag }.sweep id)

/-- Empties the registry and closes what was in it. -/
def closeAll (s : Engine) : Engine :=
  let ids := s.registry.providers.map (·.2)
  let s := { s with registry := { s.registry with providers := [] } }
  let s := ids.foldl closeProvider s
  ids.foldl sweep s

/-- Puts a new registry in place of the present one. -/
def dropRegistry (s : Engine) : Engine :=
  let ids := s.registry.providers.map (·.2)
  ids.foldl sweep { s with registry := { number := s.registry.number + 1 } }

/-- The inspection text of a provider with rules or a whitelist. -/
def inspectProvider (s : Engine) (id : Nat) : String :=
  match s.providers[id]? with
  | none => ""
  | some p =>
      let watching := s.isWatching p.watch
      let set (inner : String) := Text.record "RuleSetProvider"
        [("composite", inner), ("watching", toString watching)]
      match p.plugin with
      | .domainSet g => set (s.domainSets.inspect g)
      | .addressSet g => set (s.addressSets.inspect g)
      | .hosts g => Text.record "Hosts"
          [("table", s.hostTables.inspect g), ("watching", toString watching)]
      | .gate g => ((s.gates[g]?).map (·.inspect watching)).getD ""
      | .collect _ | .stub _ => ""

/-- Runs work of which the journal tells as background work. -/
def inBackground {α : Type} (s : Engine) (act : Act α) : Except Fault α × Engine :=
  let (r, after) := act.run.run { s with journal := [] }
  (r, { after with
    journal := s.journal ++ after.journal.map fun e => { e with foreground := false } })

end Engine
end LiveRules
