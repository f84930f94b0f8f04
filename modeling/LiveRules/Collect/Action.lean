import LiveRules.Collect.Format
import LiveRules.Collect.Registry
import LiveRules.Fault

/-!
# Collect actions

An action collects query names into a shared store, or takes them out of it
again, always as entries of one format.
-/
namespace LiveRules.Collect

/-- An action that collects names into a store. -/
structure Action where
  tag : String
  handle : Nat
  format : EntryFormat
  operation : Operation
  deriving DecidableEq, Repr

namespace Action

/-- An action on the store of a file, which has to be named. -/
def create (d : Desk) (tag path format operation : String) : Except Fault Action × Desk :=
  if path.isEmpty then (.error (.config tag .noFilePath), d)
  else match d.get path with
    | (.error e, d) => (.error (.collect e), d)
    | (.ok handle, d) =>
        (.ok ⟨tag, handle, EntryFormat.parse format, Operation.parse operation⟩, d)

def entryFor (a : Action) (name : String) : Option String :=
  LiveRules.Collect.entryFor a.format name

/-- Collects a name; says whether that changed the store. -/
def exec (a : Action) (d : Desk) (name : String) : Bool × Desk :=
  match a.entryFor name, d.registry.handles[a.handle]? with
  | some entry, some h =>
      match a.operation with
      | .add => d.call h.store (·.add entry)
      | .delete => d.call h.store (·.delete entry)
  | _, _ => (false, d)

/-- Lets the background work of the action's store run. -/
def rest (a : Action) (d : Desk) : Desk :=
  match d.registry.handles[a.handle]? with
  | some h => d.rest h.store
  | none => d

/-- Collects a name and lets the background work run. -/
def run (a : Action) (d : Desk) (name : String) : Bool × Desk :=
  let (changed, d) := a.exec d name
  (changed, a.rest d)

def path (a : Action) (d : Desk) : String :=
  ((d.registry.handles[a.handle]?.bind fun h => d.registry.stores[h.store]?).map (·.path)).getD ""

def inspect (a : Action) (d : Desk) : String :=
  Text.record "CollectAction" [("tag", Text.quoted a.tag), ("path", Text.quoted (a.path d)),
    ("format", a.format.label), ("operation", a.operation.label)]

end Action

end LiveRules.Collect
