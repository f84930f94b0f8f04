import LiveRules.Collect.Store

/-!
# Running a collect store

A running store is a store with the files it writes to, the changes that others
see of them, and what it told. A move is one step of a caller, the retrier or the
writer, or the call that closes the store. Background work is run by always
making the first move that is possible and does not wait for time to pass.
-/
namespace LiveRules.Collect

structure Running where
  store : Store
  files : Files.Tree
  changes : List Files.Change := []
  events : List LogEvent := []
  deriving Repr

inductive Move where
  | add (text : String)
  | delete (text : String)
  | close
  | pop
  | send
  | expire
  | clear
  | take
  | snapshot
  /-- The writer carries out what it holds. -/
  | apply
  deriving DecidableEq, Repr

namespace Running

def tell (r : Running) (events : List LogEvent) : Running :=
  { r with events := r.events ++ events }

/-- What the writer tells is not told to any caller. -/
def inBackground (events : List LogEvent) : List LogEvent :=
  events.map fun e => { e with foreground := false }

def withStore (r : Running) (s : Store × List LogEvent) : Running :=
  { r with store := s.1 }.tell s.2

/-- The file operation of the write that the writer holds. -/
def write? (r : Running) : Option (WriteOp × Except Files.ReadError (Files.Tree × List Files.Change)) :=
  match r.store.writer with
  | .holding (.append entry) =>
      if r.files.appendWaits r.store.path then none
      else some (.append entry, r.files.append r.store.path (entry ++ "\n"))
  | .replacing entries => some (.replaceAll, r.files.replace r.store.path (fileOf entries))
  | _ => none

/-- A failed write is told and forgotten. -/
def apply (r : Running) : Option Running :=
  r.write?.map fun (op, result) =>
    let r := { r with store := { r.store with writer := .idle } }
    match result with
    | .ok (files, changes) =>
        { r with files, changes := r.changes ++ changes }.tell
          (inBackground [Store.tell .debug ("applied: " ++ op.inspect ++ " to " ++ r.store.path)])
    | .error cause =>
        r.tell (inBackground [Store.tell .error ("failed to apply " ++ op.inspect ++ " to "
          ++ r.store.path ++ ": " ++ cause.message)])

/-- The running store after a move, if it is possible now. -/
def move (r : Running) : Move → Option Running
  | .add text => some (r.withStore (r.store.add text).2)
  | .delete text => some (r.withStore (r.store.delete text).2)
  | .close => some { r with store := r.store.close }
  | .pop => r.store.pop.map ({ r with store := · })
  | .send => r.store.send.map ({ r with store := · })
  | .expire => r.store.expire.map fun s => r.withStore (s.1, inBackground s.2)
  | .clear => r.store.clear.map ({ r with store := · })
  | .take => r.store.take.map ({ r with store := · })
  | .snapshot => r.store.snapshot.map ({ r with store := · })
  | .apply => r.apply

/-- Makes the moves in turn; stops with none at one that is impossible. -/
def moves (r : Running) : List Move → Option Running
  | [] => some r
  | m :: ms => (r.move m).bind (moves · ms)

/-- Background moves that wait for nothing, in the order they are preferred. -/
def eager : List Move := [.apply, .snapshot, .take, .clear, .send, .pop]

/-- An upper bound of the moves left to carry out all writes handed in. -/
def workload (s : Store) : Nat := 6 * (s.queue.length + s.backlog.length + 2)

def settleWithin (r : Running) : (fuel : Nat) → Running
  | 0 => r
  | fuel + 1 =>
      match eager.findSome? r.move with
      | none => r
      | some r => settleWithin r fuel

/-- Runs the background work as far as it goes without waiting. -/
def settle (r : Running) : Running := r.settleWithin (workload r.store)

/-- Lets attempts of the retrier run out until `wanted` writes are pending or
`budget` milliseconds have passed; answers how many passed. -/
def waitWithin (r : Running) (wanted : Nat) (budget : Nat) : (fuel : Nat) → Nat × Running
  | 0 => (0, r)
  | fuel + 1 =>
      if r.store.pending = wanted then (0, r)
      else match r.store.retrier with
        | .sending write =>
            if write.backoff ≤ budget then
              match r.move .expire with
              | some r =>
                  let (passed, r) := waitWithin r.settle wanted (budget - write.backoff) fuel
                  (passed + write.backoff, r)
              | none => (0, r)
            else (0, r)
        | _ => (0, r)

/-- The attempts that all waiting writes still have. -/
def attemptsLeft (s : Store) : Nat :=
  (s.backlog.map (·.attemptsLeft)).foldl (· + ·) 0 +
    match s.retrier with
    | .sending write => write.attemptsLeft
    | _ => 0

/-- Waits until `wanted` writes are pending, at most `budget` milliseconds. -/
def waitPending (r : Running) (wanted budget : Nat) : Nat × Running :=
  r.waitWithin wanted budget (attemptsLeft r.store + 1)

/-- Closes the store once and carries out all writes handed in. -/
def shutdown (r : Running) : Running :=
  if r.store.closed then r
  else
    let r := { r with store := r.store.close }.settle
    r.tell [Store.tell .info ("closed: " ++ r.store.path)]

end Running
end LiveRules.Collect
