import LiveRules.Collect.Config
import LiveRules.Collect.Error
import LiveRules.Files.Tree
import LiveRules.Journal
import LiveRules.Text.Inspect
import LiveRules.Text.Lines

/-!
# Collect stores

A store holds a set of one-line entries in memory and writes every change of it
to a file. Callers change the set and submit a durable write in one step. A
writer takes the writes from a bounded queue. A write that finds the queue full,
or finds others waiting already, goes to a backlog, from which a retrier sends
one write at a time until its attempts are used up.

The steps of the callers, the writer and the retrier are separate here, and any
of them may come next; what one program run does is one order of them.
-/
namespace LiveRules.Collect

/-- A durable write. -/
inductive WriteOp where
  /-- Adds one line to the file. -/
  | append (entry : String)
  /-- Replaces the file by one with the present entries, sorted. -/
  | replaceAll
  deriving DecidableEq, Repr

namespace WriteOp

def inspect : WriteOp → String
  | append entry => "Append(" ++ Text.quoted entry ++ ")"
  | replaceAll => "Rewrite"

end WriteOp

/-- A write that waits for space in the queue. -/
structure Waiting where
  op : WriteOp
  attemptsLeft : Nat
  backoff : Nat
  /-- Attempts made already. -/
  tried : Nat
  deriving DecidableEq, Repr

inductive Retrier where
  | idle
  | sending (write : Waiting)
  /-- Done with a write, which still counts as being sent. -/
  | done
  deriving DecidableEq, Repr

inductive Writer where
  | idle
  | holding (op : WriteOp)
  /-- Has read the entries that it will write. -/
  | replacing (entries : List String)
  deriving DecidableEq, Repr

structure Store where
  path : String
  config : Config
  /-- Without repetitions, oldest first. -/
  entries : List String := []
  queue : List WriteOp := []
  backlog : List Waiting := []
  retrier : Retrier := .idle
  writer : Writer := .idle
  closed : Bool := false
  deriving DecidableEq, Repr

/-- The entries that the lines of a file hold. -/
def entriesOf (content : String) : List String :=
  (((Text.lines content).map Text.trim).filter fun l => !l.isEmpty).eraseDups

/-- What a file with these entries reads. -/
def fileOf (entries : List String) : String :=
  String.join (entries.map (· ++ "\n"))

namespace Store

def tell (level : LogLevel) (text : String) : LogEvent :=
  { level, origin := .collectStore, text := "[collect] " ++ text }

/-- A store with the entries of a file; a missing file has none. -/
def load (files : Files.Tree) (config : Config) (path : String) :
    Except CollectError (Store × LogEvent) :=
  match files.readText path with
  | .error .notFound => .ok (withEntries [])
  | .error cause => .error (.load path cause)
  | .ok content => .ok (withEntries (entriesOf content))
where
  withEntries (entries : List String) : Store × LogEvent :=
    ({ path, config, entries },
      tell .debug ("loaded: " ++ toString entries.length ++ " entries from " ++ path))

def capacity (s : Store) : Nat := max s.config.queueCapacity 1

/-- The entry that a text means: a single line that is not blank. -/
def storable? (text : String) : Option String :=
  let entry := Text.trim text
  if entry.isEmpty || entry.toList.any (fun c => c = '\n' || c = '\r') then none
  else some entry

def refusal (s : Store) (text : String) : LogEvent :=
  tell .warn ("refusing entry " ++ Text.quoted (Text.trim text) ++ " for " ++ s.path
    ++ ": not a single line")

def contains (s : Store) (text : String) : Bool := s.entries.contains (Text.trim text)

def sorted (s : Store) : List String := s.entries.mergeSort (· ≤ ·)

def inFlight (s : Store) : Bool := s.retrier ≠ .idle

def retrying (s : Store) : Bool := s.inFlight || !s.backlog.isEmpty

/-- How many writes are neither taken by the writer nor dropped. -/
def pending (s : Store) : Nat :=
  (if s.closed then 0 else s.queue.length) + s.backlog.length + (if s.inFlight then 1 else 0)

def dropped (s : Store) (op : WriteOp) (attempts : Nat) : LogEvent :=
  tell .error ("failed to queue " ++ op.inspect ++ " for " ++ s.path ++ " after "
    ++ toString attempts ++ " attempts, durable write dropped")

/-- Puts a write into the backlog, or drops it when it has no attempts left. -/
def postpone (s : Store) (write : Waiting) : Store × List LogEvent :=
  if write.attemptsLeft = 0 then (s, [s.dropped write.op write.tried])
  else ({ s with backlog := s.backlog ++ [write] }, [])

/-- Hands in a durable write. A full queue uses up one attempt. -/
def submit (s : Store) (op : WriteOp) (policy : RetryPolicy) : Store × List LogEvent :=
  if s.closed then
    (s, [tell .warn ("store closed, not persisting " ++ op.inspect ++ " for " ++ s.path)])
  else if s.retrying then s.postpone ⟨op, policy.attempts, policy.backoff, 0⟩
  else if s.queue.length < s.capacity then ({ s with queue := s.queue ++ [op] }, [])
  else s.postpone ⟨op, policy.attempts - 1, policy.backoff, 1⟩

/-- Adds an entry; says whether it is new. -/
def add (s : Store) (text : String) : Bool × Store × List LogEvent :=
  match storable? text with
  | none => (false, s, [s.refusal text])
  | some entry =>
      if s.entries.contains entry then (false, s, [])
      else (true,
        { s with entries := s.entries ++ [entry] }.submit (.append entry) s.config.addRetry)

/-- Removes an entry; says whether it was there. -/
def delete (s : Store) (text : String) : Bool × Store × List LogEvent :=
  match storable? text with
  | none => (false, s, [s.refusal text])
  | some entry =>
      if s.entries.contains entry then
        (true, { s with entries := s.entries.erase entry }.submit .replaceAll s.config.deleteRetry)
      else (false, s, [])

/-- No write is accepted from here on; those handed in are still carried out. -/
def close (s : Store) : Store := { s with closed := true }

/-- Whether the retrier has ended. -/
def retrierEnded (s : Store) : Bool := s.closed && !s.retrying

/-- Whether the writer has ended. -/
def writerEnded (s : Store) : Bool :=
  s.retrierEnded && s.queue.isEmpty && s.writer = .idle

/-- The retrier takes the oldest write of the backlog. -/
def pop (s : Store) : Option Store :=
  match s.retrier, s.backlog with
  | .idle, write :: rest => some { s with backlog := rest, retrier := .sending write }
  | _, _ => none

/-- The retrier's write finds space. -/
def send (s : Store) : Option Store :=
  match s.retrier with
  | .sending write =>
      if s.queue.length < s.capacity then
        some { s with queue := s.queue ++ [write.op], retrier := .done }
      else none
  | _ => none

/-- An attempt of the retrier ends without space; the last one drops the
write. -/
def expire (s : Store) : Option (Store × List LogEvent) :=
  match s.retrier with
  | .sending write =>
      if s.queue.length < s.capacity then none
      else if write.attemptsLeft ≤ 1 then
        some ({ s with retrier := .done }, [s.dropped write.op (write.tried + write.attemptsLeft)])
      else
        let write :=
          { write with attemptsLeft := write.attemptsLeft - 1, tried := write.tried + 1 }
        some ({ s with retrier := .sending write }, [])
  | _ => none

/-- The retrier is ready for the next write. -/
def clear (s : Store) : Option Store :=
  match s.retrier with
  | .done => some { s with retrier := .idle }
  | _ => none

/-- The writer takes the oldest write of the queue. -/
def take (s : Store) : Option Store :=
  match s.writer, s.queue with
  | .idle, op :: rest => some { s with queue := rest, writer := .holding op }
  | _, _ => none

/-- The writer reads the entries to replace the file with. -/
def snapshot (s : Store) : Option Store :=
  match s.writer with
  | .holding .replaceAll => some { s with writer := .replacing s.sorted }
  | _ => none

def inspect (s : Store) : String :=
  Text.record "CollectStore" [("path", Text.quoted s.path),
    ("entries", toString s.entries.length), ("closed", toString s.closed)]

end Store
end LiveRules.Collect
