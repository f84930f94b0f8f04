import LiveRules.Collect.Running

/-!
# The ledger of a collect store

A history is kept beside a running store. It lists every change of the entries
in memory, in the order in which callers made them, with what has become of the
write that each of them handed in. It also lists the writes that the writer took,
read off the queue as it took them. The store never looks at its history.
-/
namespace LiveRules.Collect

/-- A call that changed the entries in memory. -/
inductive Edit where
  | added (entry : String)
  | removed (entry : String)
  deriving DecidableEq, Repr

namespace Edit

def entry : Edit → String
  | added e | removed e => e

/-- The durable write that goes with the change. -/
def op : Edit → WriteOp
  | added e => .append e
  | removed _ => .replaceAll

def policy (c : Config) : Edit → RetryPolicy
  | added _ => c.addRetry
  | removed _ => c.deleteRetry

def apply (entries : List String) : Edit → List String
  | added e => entries ++ [e]
  | removed e => entries.erase e

/-- Only a storable new entry is added and only a present one removed. -/
def Valid (entries : List String) : Edit → Prop
  | added e => (∃ text, Store.storable? text = some e) ∧ e ∉ entries
  | removed e => e ∈ entries

/-- Only an added entry is appended. -/
theorem eq_added {edit : Edit} {e : String} (op : edit.op = .append e) : edit = added e := by
  cases edit with
  | added e' => rw [WriteOp.append.inj op]
  | removed e' => cases op

/-- The change that a call makes, if it answers that it made one. -/
def ofMove? (s : Store) : Move → Option Edit
  | .add text => if (s.add text).1 then some (added (Text.trim text)) else none
  | .delete text => if (s.delete text).1 then some (removed (Text.trim text)) else none
  | _ => none

end Edit

/-- The store with a change made in memory only. -/
def Store.edited (s : Store) (edit : Edit) : Store :=
  { s with entries := edit.apply s.entries }

/-- What has become of a write. -/
inductive Fate where
  /-- The store was closed already. -/
  | refused
  /-- In the backlog. -/
  | waiting
  | sending
  | queued
  /-- Taken by the writer, not carried out yet. -/
  | held
  | written
  /-- The file could not be written. -/
  | failed
  | dropped
  deriving DecidableEq, Repr

namespace Fate

/-- Handed in while the store was open, and not dropped since. -/
def kept : Fate → Bool
  | refused | dropped => false
  | _ => true

/-- Still on the way to the file. -/
def pending : Fate → Bool
  | waiting | sending | queued | held => true
  | _ => false

/-- Carried out by the writer, with or without success. -/
def finished : Fate → Bool
  | written | failed => true
  | _ => false

end Fate

structure Submission where
  edit : Edit
  /-- How many attempts to queue its write have found the queue full. -/
  failures : Nat
  fate : Fate
  deriving DecidableEq, Repr

namespace Submission

def op (x : Submission) : WriteOp := x.edit.op

def become (fate : Fate) (x : Submission) : Submission := { x with fate }

end Submission

structure History where
  /-- Oldest first. -/
  submissions : List Submission := []
  /-- What the writer took from the queue, oldest first. -/
  taken : List WriteOp := []
  deriving DecidableEq, Repr

/-- Changes the first submission with a fate. -/
def advanceFirst (fate : Fate) (f : Submission → Submission) :
    List Submission → List Submission
  | [] => []
  | x :: xs => if x.fate = fate then f x :: xs else x :: advanceFirst fate f xs

namespace History

/-- The submission of a change, by what the store after it shows. -/
def submission (s after : Store) (edit : Edit) : Submission where
  edit := edit
  failures :=
    if s.closed then 0 else if s.retrying then 0
    else if s.queue.length < s.capacity then 0 else 1
  fate :=
    if s.closed then .refused
    else if after.queue ≠ s.queue then .queued
    else if after.backlog ≠ s.backlog then .waiting
    else .dropped

def enter (h : History) (x : Submission) : History :=
  { h with submissions := h.submissions ++ [x] }

/-- Changes the oldest submission with a fate. -/
def advance (fate : Fate) (f : Submission → Submission) (h : History) : History :=
  { h with submissions := advanceFirst fate f h.submissions }

def take (h : History) (op : WriteOp) : History := { h with taken := h.taken ++ [op] }

/-- Writes down what a move has done. -/
def note (h : History) (r : Running) (m : Move) (after : Running) : History :=
  match m with
  | .add _ | .delete _ =>
      match Edit.ofMove? r.store m with
      | some edit => h.enter (submission r.store after.store edit)
      | none => h
  | .pop => h.advance .waiting (·.become .sending)
  | .send => h.advance .sending (·.become .queued)
  | .expire => h.advance .sending fun x =>
      ⟨x.edit, x.failures + 1, if after.store.retrier = .done then .dropped else .sending⟩
  | .take =>
      match r.store.queue with
      | op :: _ => (h.advance .queued (·.become .held)).take op
      | [] => h
  | .apply => h.advance .held (·.become (match r.write? with
      | some (_, .ok _) => .written
      | _ => .failed))
  | .close | .clear | .snapshot => h

/-- The submissions that were accepted and not dropped. -/
def kept (h : History) : List Submission := h.submissions.filter (·.fate.kept)

def dropped (h : History) : List Submission := h.submissions.filter (·.fate = .dropped)

end History

/-- The store has just been opened on its path. -/
def Running.Opened (r : Running) : Prop :=
  ∃ event, Store.load r.files r.store.config r.store.path = .ok (r.store, event)

/-- A run of moves with the history of what they did. -/
inductive Run (r₀ : Running) : Running → History → Prop
  | start : Run r₀ r₀ {}
  | move {r r' : Running} {h : History} {m : Move} :
      Run r₀ r h → r.move m = some r' → Run r₀ r' (h.note r m r')

/-- Makes the moves in turn and writes them down. -/
def follow (r : Running) (h : History) : List Move → Option (Running × History)
  | [] => some (r, h)
  | m :: ms => (r.move m).bind fun after => follow after (h.note r m after) ms

theorem follow_moves (r : Running) (h : History) (ms : List Move) :
    (follow r h ms).map (·.1) = r.moves ms := by
  induction ms generalizing r h with
  | nil => rfl
  | cons m ms ih =>
      simp only [follow, Running.moves, Option.map_bind]
      exact congrArg _ (funext fun after => ih after _)

/-- Every sequence of moves that is possible makes a run. -/
theorem Run.follow {r₀ r r' : Running} {h h' : History} (run : Run r₀ r h) {ms : List Move}
    (followed : Collect.follow r h ms = some (r', h')) : Run r₀ r' h' := by
  induction ms generalizing r h with
  | nil =>
      simp only [Collect.follow, Option.some.injEq, Prod.mk.injEq] at followed
      exact followed.1 ▸ followed.2 ▸ run
  | cons m ms ih =>
      obtain ⟨after, moved, rest⟩ := Option.bind_eq_some_iff.mp followed
      exact ih (run.move moved) rest

end LiveRules.Collect
