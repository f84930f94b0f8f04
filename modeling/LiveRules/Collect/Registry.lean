import LiveRules.Collect.Running

/-!
# Shared stores

Stores are shared by the canonical place of their file. Every handle counts; the
store is opened for the first handle of a place and shut down when the last one
is released. A store may also be opened on its own, outside the sharing.
-/
namespace LiveRules.Collect

/-- A store that is shared under a place. -/
structure Shared where
  path : String
  store : Nat
  refs : Nat
  deriving DecidableEq, Repr

structure Handle where
  store : Nat
  released : Bool := false
  deriving DecidableEq, Repr

/-- All stores ever opened and all handles ever given out, by number. -/
structure Registry where
  config : Config := {}
  stores : List Store := []
  shared : List Shared := []
  handles : List Handle := []
  deriving Repr

/-- A registry with the files that its stores write to. -/
structure Desk where
  registry : Registry := {}
  files : Files.Tree
  changes : List Files.Change := []
  events : List LogEvent := []
  deriving Repr

namespace Desk

def tell (d : Desk) (event : LogEvent) : Desk := { d with events := d.events ++ [event] }

/-- Does something with one running store. -/
def onStore {α : Type} (d : Desk) (id : Nat) (act : Running → α × Running) : Option α × Desk :=
  match d.registry.stores[id]? with
  | none => (none, d)
  | some store =>
      let (a, r) := act { store, files := d.files, changes := d.changes, events := d.events }
      (some a, { d with
        registry := { d.registry with stores := d.registry.stores.set id r.store }
        files := r.files
        changes := r.changes
        events := r.events })

/-- Opens a store outside the sharing; the path is used as it is. -/
def openStore (d : Desk) (path : String) : Except CollectError Nat × Desk :=
  match Store.load d.files d.registry.config path with
  | .error e => (.error e, d)
  | .ok (store, event) =>
      (.ok d.registry.stores.length,
        { d with registry := { d.registry with stores := d.registry.stores ++ [store] } }.tell event)

def giveHandle (d : Desk) (store : Nat) : Nat × Desk :=
  (d.registry.handles.length,
    { d with registry := { d.registry with handles := d.registry.handles ++ [{ store }] } })

/-- A handle of the store of a path, which is opened if need be. -/
def get (d : Desk) (path : String) : Except CollectError Nat × Desk :=
  match d.files.canonical path with
  | .error cause => (.error (.badPath path cause), d)
  | .ok loc =>
      let place := loc.text
      match d.registry.shared.find? (·.path = place) with
      | some entry =>
          let shared := d.registry.shared.map fun e =>
            if e.path = place then { e with refs := e.refs + 1 } else e
          let (id, d) := { d with registry := { d.registry with shared } }.giveHandle entry.store
          (.ok id, d)
      | none =>
          match d.openStore place with
          | (.error e, d) => (.error e, d)
          | (.ok store, d) =>
              let shared := d.registry.shared ++ [⟨place, store, 1⟩]
              let (id, d) := { d with registry := { d.registry with shared } }.giveHandle store
              (.ok id, d.tell (.note .info .collectRegistry "collect" "opened" place))

/-- How many unreleased handles a path has. -/
def refCount (d : Desk) (path : String) : Nat :=
  match d.files.canonical path with
  | .error _ => 0
  | .ok loc => ((d.registry.shared.find? (·.path = loc.text)).map (·.refs)).getD 0

def shutdown (d : Desk) (store : Nat) : Desk := (d.onStore store fun r => ((), r.shutdown)).2

/-- Gives up one reference to a place; the last one shuts its store down. -/
def releasePath (d : Desk) (place : String) : Desk :=
  match d.registry.shared.find? (·.path = place) with
  | none => d
  | some entry =>
      if entry.refs ≤ 1 then
        let shared := d.registry.shared.filter (·.path ≠ place)
        { d with registry := { d.registry with shared } }.shutdown entry.store
      else
        let shared := d.registry.shared.map fun e =>
          if e.path = place then { e with refs := e.refs - 1 } else e
        { d with registry := { d.registry with shared } }

/-- Releases a handle; doing it again changes nothing. -/
def release (d : Desk) (handle : Nat) : Desk :=
  match d.registry.handles[handle]? with
  | none => d
  | some h =>
      if h.released then d
      else
        let handles := d.registry.handles.set handle { h with released := true }
        let d := { d with registry := { d.registry with handles } }
        match d.registry.stores[h.store]? with
        | none => d
        | some store => d.releasePath store.path

/-- Calls one store; there is no answer but `false` if there is no store. -/
def call (d : Desk) (store : Nat) (act : Store → Bool × Store × List LogEvent) : Bool × Desk :=
  let (answer, d) := d.onStore store fun r => ((act r.store).1, r.withStore (act r.store).2)
  (answer.getD false, d)

/-- Lets the background work of one store run. -/
def rest (d : Desk) (store : Nat) : Desk := (d.onStore store fun r => ((), r.settle)).2

/-- Adds an entry to a store and lets its background work run. -/
def add (d : Desk) (store : Nat) (text : String) : Bool × Desk :=
  let (changed, d) := d.call store (·.add text)
  (changed, d.rest store)

/-- Removes an entry from a store and lets its background work run. -/
def delete (d : Desk) (store : Nat) (text : String) : Bool × Desk :=
  let (changed, d) := d.call store (·.delete text)
  (changed, d.rest store)

/-- Waits until a store has `wanted` writes pending, at most `budget`
milliseconds; answers how many passed. -/
def waitPending (d : Desk) (store wanted budget : Nat) : Nat × Desk :=
  let (passed, d) := d.onStore store (·.waitPending wanted budget)
  (passed.getD 0, d)

/-- Lets the background work of every store run. -/
def settle (d : Desk) : Desk := (List.range d.registry.stores.length).foldl rest d

end Desk

def Handle.inspect (h : Handle) (store : Store) : String :=
  Text.record "CollectHandle" [("path", Text.quoted store.path),
    ("closed", toString h.released)]

def Registry.inspect (r : Registry) : String :=
  Text.record "CollectRegistry" [("stores", toString r.shared.length)]

end LiveRules.Collect
