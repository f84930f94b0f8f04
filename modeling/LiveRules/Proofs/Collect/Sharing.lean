import LiveRules.Collect.Registry
import LiveRules.Proofs.Collect.Shutdown

/-!
# What happens to shared stores

Callers get and release handles, one call at a time. Between the calls the stores go on
with their moves, others open stores of their own outside the sharing and shut them
down again, and files change. A call that shuts a store down comes back only when no
reader of a pipe keeps it waiting.
-/
namespace LiveRules.Collect

inductive Deed where
  | get (path : String)
  /-- A handle is closed or goes away. -/
  | release (handle : Nat)
  | move (store : Nat) (m : Move)
  /-- A store is opened outside the sharing. -/
  | start (path : String)
  | stop (store : Nat)
  | edit (files : Files.Tree) (changes : List Files.Change)

namespace Desk
variable {d d' : Desk} {id : Nat} {s : Store}

/-- Nothing is shared yet. -/
def fresh (config : Config) (files : Files.Tree) : Desk where
  registry := { config }
  files := files

def running (d : Desk) (s : Store) : Running where
  store := s
  files := d.files
  changes := d.changes
  events := d.events

def put (d : Desk) (id : Nat) (r : Running) : Desk where
  registry := { d.registry with stores := d.registry.stores.set id r.store }
  files := r.files
  changes := r.changes
  events := r.events

theorem onStore_eq {α : Type} (there : d.registry.stores[id]? = some s)
    (act : Running → α × Running) :
    d.onStore id act = (some (act (d.running s)).1, d.put id (act (d.running s)).2) := by
  simp only [onStore, there]
  rfl

theorem onStore_none {α : Type} (missing : d.registry.stores[id]? = none)
    (act : Running → α × Running) : d.onStore id act = (none, d) := by
  simp only [onStore, missing]

theorem put_running (there : d.registry.stores[id]? = some s) : d.put id (d.running s) = d := by
  obtain ⟨lt, rfl⟩ := List.getElem?_eq_some_iff.mp there
  simp [put, running]

theorem put_put (d : Desk) (id : Nat) (r r' : Running) : (d.put id r).put id r' = d.put id r' := by
  simp [put]

theorem stores_put (there : d.registry.stores[id]? = some s) (r : Running) :
    (d.put id r).registry.stores[id]? = some r.store :=
  List.getElem?_set_self (List.getElem?_eq_some_iff.mp there).1

theorem shutdown_eq (there : d.registry.stores[id]? = some s) :
    d.shutdown id = d.put id (d.running s).shutdown := by
  rw [shutdown, onStore_eq there]

/-- A store was opened for a handle. -/
def Lent (d : Desk) (id : Nat) : Prop := ∃ h ∈ d.registry.handles, h.store = id

/-- How many handles of a store have not been released. -/
def holders (d : Desk) (id : Nat) : Nat :=
  d.registry.handles.countP fun h => h.store = id && !h.released

/-- The handle has not been released yet. -/
def Holds (d : Desk) (handle id : Nat) : Prop :=
  d.registry.handles[handle]? = some { store := id }

/-- The writer of a store that is shut down waits for the reader of a pipe. -/
def Stuck (d : Desk) (id : Nat) : Prop :=
  ∃ s, d.registry.stores[id]? = some s ∧ (d.running s).Waits

inductive Does (d : Desk) : Deed → Desk → Prop
  | get (path : String) : Does d (.get path) (d.get path).2
  | release (handle : Nat)
      (returns : ∀ id, d.Holds handle id → ¬ (d.release handle).Stuck id) :
      Does d (.release handle) (d.release handle)
  | move {id : Nat} {s : Store} {m : Move} {r : Running} (there : d.registry.stores[id]? = some s)
      (other : m ≠ .close) (moved : (d.running s).move m = some r) :
      Does d (.move id m) (d.put id r)
  | start (path : String) : Does d (.start path) (d.openStore path).2
  | stop {id : Nat} (aside : ¬ d.Lent id) : Does d (.stop id) (d.shutdown id)
  | edit (files : Files.Tree) (changes : List Files.Change) :
      Does d (.edit files changes) { d with files, changes }

inductive Reachable (config : Config) (files : Files.Tree) : Desk → Prop
  | fresh : Reachable config files (fresh config files)
  | does {d d' : Desk} {deed : Deed} :
      Reachable config files d → d.Does deed d' → Reachable config files d'

end Desk

/-- Changes the count of a path. -/
def Shared.recount (path : String) (count : Nat → Nat) (e : Shared) : Shared :=
  if e.path = path then { e with refs := count e.refs } else e

@[simp] theorem Shared.path_recount (path : String) (count : Nat → Nat) (e : Shared) :
    (e.recount path count).path = e.path := by
  unfold recount
  split <;> rfl

@[simp] theorem Shared.store_recount (path : String) (count : Nat → Nat) (e : Shared) :
    (e.recount path count).store = e.store := by
  unfold recount
  split <;> rfl

namespace Desk

/-- The things that a call for a handle can do. -/
inductive Gets (d : Desk) (path : String) : Except CollectError Nat → Desk → Prop
  | fails (e : CollectError) : Gets d path (.error e) d
  | joins {loc : Files.Location} {e : Shared} (place : d.files.canonical path = .ok loc)
      (found : d.registry.shared.find? (·.path = loc.text) = some e) :
      Gets d path (.ok d.registry.handles.length)
        { d with registry := { d.registry with
            shared := d.registry.shared.map (Shared.recount loc.text (· + 1))
            handles := d.registry.handles ++ [{ store := e.store }] } }
  | opens {loc : Files.Location} {s : Store} {event : LogEvent} {events : List LogEvent}
      (place : d.files.canonical path = .ok loc)
      (absent : d.registry.shared.find? (·.path = loc.text) = none)
      (loaded : Store.load d.files d.registry.config loc.text = .ok (s, event)) :
      Gets d path (.ok d.registry.handles.length)
        { d with
            registry := { d.registry with
              stores := d.registry.stores ++ [s]
              shared := d.registry.shared ++ [⟨loc.text, d.registry.stores.length, 1⟩]
              handles := d.registry.handles ++ [{ store := d.registry.stores.length }] }
            events }

theorem gets_get (d : Desk) (path : String) : Gets d path (d.get path).1 (d.get path).2 := by
  unfold get
  cases place : d.files.canonical path with
  | error cause => exact .fails _
  | ok loc =>
      dsimp only
      cases found : d.registry.shared.find? (·.path = loc.text) with
      | some e => exact .joins place found
      | none =>
          cases loaded : Store.load d.files d.registry.config loc.text with
          | error e =>
              simp only [openStore, loaded]
              exact .fails e
          | ok opened =>
              simp only [openStore, loaded, giveHandle, tell]
              exact .opens place found loaded

theorem load_ok {files : Files.Tree} {config : Config} {path : String} {event : LogEvent}
    (loaded : Store.load files config path = .ok (s, event)) :
    s.path = path ∧ s.closed = false := by
  unfold Store.load at loaded
  split at loaded
  · cases loaded
    exact ⟨rfl, rfl⟩
  · cases loaded
  · cases loaded
    exact ⟨rfl, rfl⟩

end Desk

namespace Store
variable {s : Store}

theorem closed_submit (s : Store) (op : WriteOp) (policy : RetryPolicy) :
    (s.submit op policy).1.closed = s.closed := by
  unfold submit postpone
  split <;> try rfl
  split
  · split <;> rfl
  · split
    · rfl
    · split <;> rfl

theorem closed_add (s : Store) (text : String) : (s.add text).2.1.closed = s.closed := by
  unfold add
  split
  · rfl
  · split
    · rfl
    · exact closed_submit _ _ _

theorem closed_delete (s : Store) (text : String) : (s.delete text).2.1.closed = s.closed := by
  unfold delete
  split
  · rfl
  · split
    · exact closed_submit _ _ _
    · rfl

/-- The store is the same as far as its sharing goes. -/
structure Alike (s s' : Store) : Prop where
  path : s'.path = s.path
  closed : s'.closed = s.closed
  ended : s.writerEnded = true → s'.writerEnded = true

theorem Alike.refl (s : Store) : Alike s s := ⟨rfl, rfl, id⟩

theorem writerEnded_iff : s.writerEnded = true ↔ s.closed = true ∧ s.retrier = .idle ∧
    s.backlog = [] ∧ s.queue = [] ∧ s.writer = .idle := by
  simp [writerEnded, retrierEnded, retrying, inFlight, and_assoc]

end Store

/-- A writer that has ended does not start again. -/
theorem step_ended {r r' : Running} {h h' : History} (step : Step r h r' h')
    (ended : r.store.writerEnded = true) : r'.store.writerEnded = true := by
  obtain ⟨closed, resting, backlog, queue, idle⟩ := Store.writerEnded_iff.mp ended
  cases step with
  | silent | refused => exact Store.writerEnded_iff.mpr ⟨closed, resting, backlog, queue, idle⟩
  | close => exact Store.writerEnded_iff.mpr ⟨rfl, resting, backlog, queue, idle⟩
  | queued _ accepted | postponed _ accepted | rejected _ accepted =>
      rw [closed] at accepted
      cases accepted
  | pop _ oldest =>
      rw [backlog] at oldest
      cases oldest
  | send sending | retry sending | giveUp sending =>
      rw [resting] at sending
      cases sending
  | clear finished =>
      rw [resting] at finished
      cases finished
  | take _ oldest =>
      rw [queue] at oldest
      cases oldest
  | snapshot holding | appended holding | replaced holding =>
      rw [idle] at holding
      cases holding
  | failed busy => exact absurd idle busy

@[simp] theorem Running.store_withStore (r : Running) (s : Store × List LogEvent) :
    (r.withStore s).store = s.1 := rfl

/-- Only the call that closes a store closes it. -/
theorem Running.closed_move {r r' : Running} {m : Move} (other : m ≠ .close)
    (moved : r.move m = some r') : r'.store.closed = r.store.closed := by
  cases m with
  | add text =>
      rw [← Option.some.inj moved, store_withStore]
      exact r.store.closed_add text
  | delete text =>
      rw [← Option.some.inj moved, store_withStore]
      exact r.store.closed_delete text
  | close => exact absurd rfl other
  | apply => rw [(Running.store_of_apply moved).2]
  | expire =>
      obtain ⟨s, expired, rfl⟩ := Option.map_eq_some_iff.mp moved
      unfold Store.expire at expired
      split at expired
      · split at expired
        · cases expired
        · split at expired <;> cases expired <;> rfl
      · cases expired
  | pop =>
      obtain ⟨s, popped, rfl⟩ := Option.map_eq_some_iff.mp moved
      obtain ⟨w, rest, -, -, rfl⟩ := Store.pop_eq_some.mp popped
      rfl
  | send =>
      obtain ⟨s, sent, rfl⟩ := Option.map_eq_some_iff.mp moved
      obtain ⟨w, -, -, rfl⟩ := Store.send_eq_some.mp sent
      rfl
  | clear =>
      obtain ⟨s, cleared, rfl⟩ := Option.map_eq_some_iff.mp moved
      obtain ⟨-, rfl⟩ := Store.clear_eq_some.mp cleared
      rfl
  | take =>
      obtain ⟨s, taken, rfl⟩ := Option.map_eq_some_iff.mp moved
      obtain ⟨op, rest, -, -, rfl⟩ := Store.take_eq_some.mp taken
      rfl
  | snapshot =>
      obtain ⟨s, read, rfl⟩ := Option.map_eq_some_iff.mp moved
      obtain ⟨-, rfl⟩ := Store.snapshot_eq_some.mp read
      rfl

theorem Running.alike_move {r r' : Running} {m : Move} (other : m ≠ .close)
    (moved : r.move m = some r') : Store.Alike r.store r'.store := by
  have step := step_of_move {} moved
  exact ⟨(step_place step).1, closed_move other moved, step_ended step⟩

/-- A shutdown that comes back leaves a closed store whose writer has ended. -/
theorem Running.shutdown_ends {r : Running} (accepted : r.store.closed = false) :
    r.shutdown.store.path = r.store.path ∧ r.shutdown.store.closed = true ∧
      (r.shutdown.store.writerEnded = true ∨ r.shutdown.Waits) := by
  obtain ⟨ms, r', h', followed, same, ended⟩ := shutdown_follow {} accepted
  obtain ⟨after, closes, rest⟩ := Option.bind_eq_some_iff.mp followed
  obtain rfl := Option.some.inj closes
  have run := Run.start.follow rest
  rw [same]
  exact ⟨run.place.1, run.closed rfl, ended⟩

/-- A shutdown that comes back has waited for the writer. -/
theorem Desk.shutdown_ended {d given : Desk} {id : Nat} {s : Store}
    (there : given.registry.stores[id]? = some s) (accepted : s.closed = false)
    (returns : ¬ (given.put id (d.running s).shutdown).Stuck id) :
    (d.running s).shutdown.store.writerEnded = true := by
  have lt := (List.getElem?_eq_some_iff.mp there).1
  obtain ⟨-, -, ended⟩ := Running.shutdown_ends (r := d.running s) accepted
  rcases ended with ended | waits
  · exact ended
  · exact absurd ⟨_, List.getElem?_set_self lt, waits⟩ returns

/-- The handles and the sharing are the same, and so are the stores as far as it goes. -/
structure Desk.Frame (d d' : Desk) : Prop where
  shared : d'.registry.shared = d.registry.shared
  handles : d'.registry.handles = d.registry.handles
  stores : ∀ id s, d.Lent id → d.registry.stores[id]? = some s →
    ∃ s', d'.registry.stores[id]? = some s' ∧ s.Alike s'

/-- Only calls for handles and releases change the sharing. -/
theorem Desk.frame_of_does {d d' : Desk} {deed : Deed} (does : d.Does deed d')
    (get : ∀ path, deed ≠ .get path) (release : ∀ handle, deed ≠ .release handle) :
    d.Frame d' := by
  cases does with
  | get path => exact absurd rfl (get path)
  | release handle => exact absurd rfl (release handle)
  | @move id s m r there other moved =>
      refine ⟨rfl, rfl, fun i s' _ here => ?_⟩
      by_cases same : id = i
      · obtain rfl := same
        obtain rfl := Option.some.inj (here.symm.trans there)
        have lt := (List.getElem?_eq_some_iff.mp there).1
        exact ⟨r.store, List.getElem?_set_self lt, Running.alike_move other moved⟩
      · exact ⟨s', (List.getElem?_set_ne same).trans here, .refl s'⟩
  | start path =>
      unfold openStore
      split
      · exact ⟨rfl, rfl, fun i s' _ here => ⟨s', here, .refl s'⟩⟩
      · refine ⟨rfl, rfl, fun i s' _ here => ⟨s', ?_, .refl s'⟩⟩
        exact (List.getElem?_append_left (List.getElem?_eq_some_iff.mp here).1).trans here
  | @stop id aside =>
      cases there : d.registry.stores[id]? with
      | none =>
          rw [shutdown, onStore_none there]
          exact ⟨rfl, rfl, fun i s' _ here => ⟨s', here, .refl s'⟩⟩
      | some s =>
          rw [shutdown_eq there]
          refine ⟨rfl, rfl, fun i s' lent here => ⟨s', ?_, .refl s'⟩⟩
          have other : id ≠ i := by
            rintro rfl
            exact aside lent
          exact (List.getElem?_set_ne other).trans here
  | edit files changes => exact ⟨rfl, rfl, fun i s' _ here => ⟨s', here, .refl s'⟩⟩

end LiveRules.Collect
