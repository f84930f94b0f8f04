import LiveRules.Proofs.Collect.Contents
import LiveRules.Proofs.Collect.Ledger

/-!
# Steps of a collect store

A step says everything that one move can do to a running store and its history.
Every move makes a step, and all invariants of whole runs go through the steps.
-/
namespace LiveRules.Collect

/-- Tells of a dropped write. -/
def reportsDrop (e : LogEvent) : Bool :=
  e.origin = .collectStore && "[collect] failed to queue ".toList.isPrefixOf e.text.toList

/-- What one move does to a running store and its history. -/
inductive Step (r : Running) (h : History) : Running → History → Prop
  | silent {events : List LogEvent} (quiet : ∀ e ∈ events, reportsDrop e = false) :
      Step r h (r.tell events) h
  | refused {edit : Edit} {event : LogEvent} (valid : edit.Valid r.store.entries)
      (closed : r.store.closed = true) (quiet : reportsDrop event = false) :
      Step r h
        ({ r with store := r.store.edited edit }.tell [event])
        (h.enter ⟨edit, 0, .refused⟩)
  | queued {edit : Edit} (valid : edit.Valid r.store.entries)
      (accepted : r.store.closed = false) (steady : r.store.retrying = false) :
      Step r h
        { r with store := { r.store.edited edit with
            queue := r.store.queue ++ [edit.op] } }
        (h.enter ⟨edit, 0, .queued⟩)
  | postponed {edit : Edit} {failures left backoff : Nat}
      (valid : edit.Valid r.store.entries) (accepted : r.store.closed = false)
      (more : 0 < left) (all : (edit.policy r.store.config).attempts = left + failures) :
      Step r h
        { r with store := { r.store.edited edit with
            backlog := r.store.backlog ++ [⟨edit.op, left, backoff, failures⟩] } }
        (h.enter ⟨edit, failures, .waiting⟩)
  | rejected {edit : Edit} {failures : Nat} (valid : edit.Valid r.store.entries)
      (accepted : r.store.closed = false)
      (all : (edit.policy r.store.config).attempts ≤ failures) :
      Step r h
        ({ r with store := r.store.edited edit }.tell
          [r.store.dropped edit.op failures])
        (h.enter ⟨edit, failures, .dropped⟩)
  | close : Step r h { r with store := r.store.close } h
  | pop {w : Waiting} {rest : List Waiting} (idle : r.store.retrier = .idle)
      (oldest : r.store.backlog = w :: rest) :
      Step r h { r with store := { r.store with backlog := rest, retrier := .sending w } }
        (h.advance .waiting (·.become .sending))
  | send {w : Waiting} (sending : r.store.retrier = .sending w) :
      Step r h
        { r with store := { r.store with
            queue := r.store.queue ++ [w.op], retrier := .done } }
        (h.advance .sending (·.become .queued))
  | retry {w : Waiting} (sending : r.store.retrier = .sending w) (more : 1 < w.attemptsLeft) :
      Step r h
        { r with store := { r.store with
            retrier := .sending { w with
              attemptsLeft := w.attemptsLeft - 1, tried := w.tried + 1 } } }
        (h.advance .sending fun x => ⟨x.edit, x.failures + 1, .sending⟩)
  | giveUp {w : Waiting} (sending : r.store.retrier = .sending w) (last : w.attemptsLeft ≤ 1) :
      Step r h
        ({ r with store := { r.store with retrier := .done } }.tell
          (Running.inBackground [r.store.dropped w.op (w.tried + w.attemptsLeft)]))
        (h.advance .sending fun x => ⟨x.edit, x.failures + 1, .dropped⟩)
  | clear (finished : r.store.retrier = .done) :
      Step r h { r with store := { r.store with retrier := .idle } } h
  | take {op : WriteOp} {rest : List WriteOp} (idle : r.store.writer = .idle)
      (oldest : r.store.queue = op :: rest) :
      Step r h { r with store := { r.store with queue := rest, writer := .holding op } }
        ((h.advance .queued (·.become .held)).take op)
  | snapshot (holding : r.store.writer = .holding .replaceAll) :
      Step r h { r with store := { r.store with writer := .replacing r.store.sorted } } h
  | appended {entry : String} {files : Files.Tree} {changes : List Files.Change}
      {events : List LogEvent} (holding : r.store.writer = .holding (.append entry))
      (done : r.files.append r.store.path (entry ++ "\n") = .ok (files, changes))
      (quiet : ∀ e ∈ events, reportsDrop e = false) :
      Step r h
        ({ r with
            store := { r.store with writer := .idle }
            files, changes := r.changes ++ changes }.tell events)
        (h.advance .held (·.become .written))
  | replaced {entries : List String} {files : Files.Tree} {changes : List Files.Change}
      {events : List LogEvent} (replacing : r.store.writer = .replacing entries)
      (done : r.files.replace r.store.path (fileOf entries) = .ok (files, changes))
      (quiet : ∀ e ∈ events, reportsDrop e = false) :
      Step r h
        ({ r with
            store := { r.store with writer := .idle }
            files, changes := r.changes ++ changes }.tell events)
        (h.advance .held (·.become .written))
  | failed {op : WriteOp} {cause : Files.ReadError} {events : List LogEvent}
      (busy : r.store.writer ≠ .idle) (quiet : ∀ e ∈ events, reportsDrop e = false)
      (broken : r.write? = some (op, .error cause)) :
      Step r h ({ r with store := { r.store with writer := .idle } }.tell events)
        (h.advance .held (·.become .failed))

theorem reportsDrop_tell (level : LogLevel) (text : String) :
    reportsDrop (Store.tell level text) =
      "failed to queue ".toList.isPrefixOf text.toList := by
  simp [reportsDrop, Store.tell]

theorem reportsDrop_inBackground (e : LogEvent) :
    reportsDrop { e with foreground := false } = reportsDrop e := rfl

@[simp] theorem reportsDrop_dropped (s : Store) (op : WriteOp) (attempts : Nat) :
    reportsDrop (s.dropped op attempts) = true := by
  simp [Store.dropped, reportsDrop_tell]

@[simp] theorem reportsDrop_refusal (s : Store) (text : String) :
    reportsDrop (s.refusal text) = false := by
  simp [Store.refusal, reportsDrop_tell, List.isPrefixOf]

theorem submit_closed {s : Store} (op : WriteOp) (policy : RetryPolicy)
    (closed : s.closed = true) :
    s.submit op policy = (s, [Store.tell .warn
      ("store closed, not persisting " ++ op.inspect ++ " for " ++ s.path)]) := by
  simp [Store.submit, closed]

theorem submit_retrying {s : Store} (op : WriteOp) (policy : RetryPolicy)
    (accepted : s.closed = false) (retrying : s.retrying = true) :
    s.submit op policy = s.postpone ⟨op, policy.attempts, policy.backoff, 0⟩ := by
  simp [Store.submit, accepted, retrying]

theorem submit_room {s : Store} (op : WriteOp) (policy : RetryPolicy)
    (accepted : s.closed = false) (steady : s.retrying = false)
    (room : s.queue.length < s.capacity) :
    s.submit op policy = ({ s with queue := s.queue ++ [op] }, []) := by
  simp [Store.submit, accepted, steady, room]

theorem submit_full {s : Store} (op : WriteOp) (policy : RetryPolicy)
    (accepted : s.closed = false) (steady : s.retrying = false)
    (full : ¬ s.queue.length < s.capacity) :
    s.submit op policy = s.postpone ⟨op, policy.attempts - 1, policy.backoff, 1⟩ := by
  simp [Store.submit, accepted, steady, full]

/-- A write that cannot be queued at once waits, or is dropped if no attempt is
left. -/
theorem step_postpone (r : Running) (h : History) {edit : Edit} {left backoff failures : Nat}
    (valid : edit.Valid r.store.entries) (accepted : r.store.closed = false)
    (attempts : left = (edit.policy r.store.config).attempts - failures)
    (counted : (if r.store.retrying then 0
      else if r.store.queue.length < r.store.capacity then 0 else 1) = failures) :
    let after := (r.store.edited edit).postpone ⟨edit.op, left, backoff, failures⟩
    Step r h (r.withStore after) (h.enter (History.submission r.store after.1 edit)) := by
  intro after
  by_cases none : left = 0
  · have hs : after = (r.store.edited edit, [r.store.dropped edit.op failures]) := by
      simp only [after, Store.postpone, none, if_true]
      rfl
    have hx : History.submission r.store after.1 edit = ⟨edit, failures, .dropped⟩ := by
      simp [History.submission, counted, hs, accepted, Store.edited]
    rw [hx, hs]
    exact .rejected valid accepted (by omega)
  · have hs : after = ({ r.store.edited edit with
        backlog := r.store.backlog ++ [⟨edit.op, left, backoff, failures⟩] }, []) := by
      simp only [after, Store.postpone, none, if_false]
      rfl
    have hx : History.submission r.store after.1 edit = ⟨edit, failures, .waiting⟩ := by
      simp [History.submission, counted, hs, accepted, Store.edited]
    rw [hx, hs, Running.withStore, Running.tell, List.append_nil]
    exact .postponed valid accepted (by omega) (by omega)

/-- What handing in the write of a valid change does. -/
theorem step_submit (r : Running) (h : History) {edit : Edit}
    (valid : edit.Valid r.store.entries) :
    let after := (r.store.edited edit).submit edit.op (edit.policy r.store.config)
    Step r h (r.withStore after) (h.enter (History.submission r.store after.1 edit)) := by
  intro after
  by_cases closed : r.store.closed = true
  · have hs := submit_closed (s := r.store.edited edit) edit.op
      (edit.policy r.store.config) closed
    have hx : History.submission r.store after.1 edit = ⟨edit, 0, .refused⟩ := by
      simp [History.submission, closed]
    rw [hx]
    change Step r h (r.withStore after) _
    rw [show after = _ from hs]
    exact .refused valid closed (by simp [reportsDrop_tell, List.isPrefixOf])
  have accepted : r.store.closed = false := by simpa using closed
  by_cases retrying : r.store.retrying = true
  · rw [show after = _ from submit_retrying edit.op _ accepted retrying]
    exact step_postpone r h valid accepted rfl (by simp [retrying])
  have steady : r.store.retrying = false := by simpa using retrying
  by_cases room : r.store.queue.length < r.store.capacity
  · have hs := submit_room (s := r.store.edited edit) edit.op
      (edit.policy r.store.config) accepted steady room
    have hx : History.submission r.store after.1 edit = ⟨edit, 0, .queued⟩ := by
      simp [History.submission, show after = _ from hs, accepted, room, Store.edited]
    rw [hx, show after = _ from hs, Running.withStore, Running.tell, List.append_nil]
    exact .queued valid accepted steady
  · rw [show after = _ from submit_full edit.op _ accepted steady room]
    exact step_postpone r h valid accepted rfl (by simp [steady, room])

theorem trim_of_storable? {text e : String} (h : Store.storable? text = some e) :
    Text.trim text = e := (storable?_eq_some.mp h).1

/-- A call of `add`, as a step. -/
theorem step_add (r : Running) (h : History) (text : String) :
    let after := r.withStore (r.store.add text).2
    Step r h after (h.note r (.add text) after) := by
  cases he : Store.storable? text with
  | none =>
      have hs : r.store.add text = (false, r.store, [r.store.refusal text]) := by
        simp [Store.add, he]
      simp only [History.note, Edit.ofMove?, hs]
      exact .silent (by simp)
  | some e =>
      by_cases old : r.store.entries.contains e = true
      · have hs : r.store.add text = (false, r.store, []) := by
          simp only [Store.add, he, old, if_true]
        simp only [History.note, Edit.ofMove?, hs]
        exact .silent (by simp)
      · have valid : (Edit.added e).Valid r.store.entries :=
          ⟨⟨text, he⟩, by simpa using old⟩
        have hs : r.store.add text =
            (true, (r.store.edited (.added e)).submit (Edit.added e).op
              ((Edit.added e).policy r.store.config)) := by
          simp only [Store.add, he, old]
          rfl
        simp only [History.note, Edit.ofMove?, hs, trim_of_storable? he, if_true]
        exact step_submit r h valid

/-- A call of `delete`, as a step. -/
theorem step_delete (r : Running) (h : History) (text : String) :
    let after := r.withStore (r.store.delete text).2
    Step r h after (h.note r (.delete text) after) := by
  cases he : Store.storable? text with
  | none =>
      have hs : r.store.delete text = (false, r.store, [r.store.refusal text]) := by
        simp [Store.delete, he]
      simp only [History.note, Edit.ofMove?, hs]
      exact .silent (by simp)
  | some e =>
      by_cases present : r.store.entries.contains e = true
      · have valid : (Edit.removed e).Valid r.store.entries := by
          simpa [Edit.Valid] using present
        have hs : r.store.delete text =
            (true, (r.store.edited (.removed e)).submit (Edit.removed e).op
              ((Edit.removed e).policy r.store.config)) := by
          simp only [Store.delete, he, present]
          rfl
        simp only [History.note, Edit.ofMove?, hs, trim_of_storable? he, if_true]
        exact step_submit r h valid
      · have hs : r.store.delete text = (false, r.store, []) := by
          simp only [Store.delete, he, present, Bool.false_eq_true, if_false]
        simp only [History.note, Edit.ofMove?, hs]
        exact .silent (by simp)

/-- The end of an attempt without space, as a step. -/
theorem step_expire {r r' : Running} (h : History) (moved : r.move .expire = some r') :
    Step r h r' (h.note r .expire r') := by
  simp only [Running.move, Option.map_eq_some_iff] at moved
  obtain ⟨s, hs, rfl⟩ := moved
  cases hr : r.store.retrier with
  | idle => simp [Store.expire, hr] at hs
  | done => simp [Store.expire, hr] at hs
  | sending w =>
      simp only [Store.expire, hr] at hs
      split at hs
      · cases hs
      split at hs
      · rename_i last
        cases hs
        exact .giveUp hr last
      · rename_i more
        cases hs
        simp only [History.note, Running.withStore, Running.inBackground, Running.tell,
          List.map_nil, List.append_nil, reduceCtorEq, if_false]
        exact .retry hr (by omega)

/-- The writer's file operation, as a step. -/
theorem step_apply {r r' : Running} (h : History) (moved : r.move .apply = some r') :
    Step r h r' (h.note r .apply r') := by
  simp only [Running.move, Running.apply, Option.map_eq_some_iff, Prod.exists] at moved
  obtain ⟨op, result, hw, rfl⟩ := moved
  have busy : r.store.writer ≠ .idle := by
    intro idle
    simp [Running.write?, idle] at hw
  cases result with
  | error cause =>
      simp only [History.note, hw]
      refine .failed busy ?_ hw
      simp [Running.inBackground, reportsDrop_inBackground, reportsDrop_tell, List.isPrefixOf]
  | ok out =>
      obtain ⟨files, changes⟩ := out
      simp only [History.note, hw]
      have quiet : ∀ e ∈ Running.inBackground [Store.tell .debug
          ("applied: " ++ op.inspect ++ " to " ++ r.store.path)], reportsDrop e = false := by
        simp [Running.inBackground, reportsDrop_inBackground, reportsDrop_tell,
          List.isPrefixOf]
      unfold Running.write? at hw
      split at hw
      · rename_i entry holding
        split at hw
        · cases hw
        · simp only [Option.some.injEq, Prod.mk.injEq] at hw
          exact .appended holding hw.2 quiet
      · rename_i entries replacing
        simp only [Option.some.injEq, Prod.mk.injEq] at hw
        exact .replaced replacing hw.2 quiet
      · cases hw

namespace Store
variable {s s' : Store}

theorem pop_eq_some : s.pop = some s' ↔ ∃ w rest, s.retrier = .idle ∧
    s.backlog = w :: rest ∧ { s with backlog := rest, retrier := .sending w } = s' := by
  constructor
  · intro popped
    unfold pop at popped
    split at popped
    · rename_i idle oldest
      exact ⟨_, _, idle, oldest, Option.some.inj popped⟩
    · cases popped
  · rintro ⟨w, rest, idle, oldest, rfl⟩
    simp [pop, idle, oldest]

theorem send_eq_some : s.send = some s' ↔ ∃ w, s.retrier = .sending w ∧
    s.queue.length < s.capacity ∧
      { s with queue := s.queue ++ [w.op], retrier := .done } = s' := by
  constructor
  · intro sent
    unfold send at sent
    split at sent
    · rename_i sending
      split at sent
      · rename_i room
        exact ⟨_, sending, room, Option.some.inj sent⟩
      · cases sent
    · cases sent
  · rintro ⟨w, sending, room, rfl⟩
    simp [send, sending, room]

theorem clear_eq_some : s.clear = some s' ↔
    s.retrier = .done ∧ { s with retrier := .idle } = s' := by
  constructor
  · intro cleared
    unfold clear at cleared
    split at cleared
    · rename_i finished
      exact ⟨finished, Option.some.inj cleared⟩
    · cases cleared
  · rintro ⟨finished, rfl⟩
    simp [clear, finished]

theorem take_eq_some : s.take = some s' ↔ ∃ op rest, s.writer = .idle ∧
    s.queue = op :: rest ∧ { s with queue := rest, writer := .holding op } = s' := by
  constructor
  · intro taken
    unfold take at taken
    split at taken
    · rename_i idle oldest
      exact ⟨_, _, idle, oldest, Option.some.inj taken⟩
    · cases taken
  · rintro ⟨op, rest, idle, oldest, rfl⟩
    simp [take, idle, oldest]

theorem snapshot_eq_some : s.snapshot = some s' ↔
    s.writer = .holding .replaceAll ∧ { s with writer := .replacing s.sorted } = s' := by
  constructor
  · intro read
    unfold snapshot at read
    split at read
    · rename_i holding
      exact ⟨holding, Option.some.inj read⟩
    · cases read
  · rintro ⟨holding, rfl⟩
    simp [snapshot, holding]

end Store

/-- Every move makes a step. -/
theorem step_of_move {r r' : Running} {m : Move} (h : History) (moved : r.move m = some r') :
    Step r h r' (h.note r m r') := by
  cases m with
  | add text => cases moved; exact step_add r h text
  | delete text => cases moved; exact step_delete r h text
  | close => cases moved; exact .close
  | expire => exact step_expire h moved
  | apply => exact step_apply h moved
  | pop =>
      obtain ⟨s, popped, rfl⟩ := Option.map_eq_some_iff.mp moved
      obtain ⟨w, rest, idle, oldest, rfl⟩ := Store.pop_eq_some.mp popped
      exact .pop idle oldest
  | send =>
      obtain ⟨s, sent, rfl⟩ := Option.map_eq_some_iff.mp moved
      obtain ⟨w, sending, -, rfl⟩ := Store.send_eq_some.mp sent
      exact .send sending
  | clear =>
      obtain ⟨s, cleared, rfl⟩ := Option.map_eq_some_iff.mp moved
      obtain ⟨finished, rfl⟩ := Store.clear_eq_some.mp cleared
      exact .clear finished
  | take =>
      obtain ⟨s, taken, rfl⟩ := Option.map_eq_some_iff.mp moved
      obtain ⟨op, rest, idle, oldest, rfl⟩ := Store.take_eq_some.mp taken
      simp only [History.note, oldest]
      exact .take idle oldest
  | snapshot =>
      obtain ⟨s, read, rfl⟩ := Option.map_eq_some_iff.mp moved
      obtain ⟨holding, rfl⟩ := Store.snapshot_eq_some.mp read
      exact .snapshot holding

/-- What a step does to the list of submissions, whoever made it. -/
inductive Recorded (r r' : Running) (l : List Submission) : List Submission → Prop
  | same (entries : r'.store.entries = r.store.entries)
      (closed : r'.store.closed = false → r.store.closed = false) : Recorded r r' l l
  | entered {x : Submission} (valid : x.edit.Valid r.store.entries)
      (entries : r'.store.entries = x.edit.apply r.store.entries)
      (closed : r'.store.closed = r.store.closed)
      (refused : decide (x.fate = .refused) = r.store.closed)
      (fresh : x.fate ≠ .held ∧ x.fate.finished = false) : Recorded r r' l (l ++ [x])
  | advanced {fate : Fate} {f : Submission → Submission}
      (entries : r'.store.entries = r.store.entries) (closed : r'.store.closed = r.store.closed)
      (pending : fate.pending = true) (edit : ∀ x, (f x).edit = x.edit)
      (accepted : ∀ x, (f x).fate ≠ .refused) : Recorded r r' l (advanceFirst fate f l)

theorem step_recorded {r r' : Running} {h h' : History} (step : Step r h r' h') :
    Recorded r r' h.submissions h'.submissions := by
  cases step with
  | silent | clear | snapshot => exact .same rfl id
  | close => exact .same rfl (by simp [Store.close])
  | refused valid closed => exact .entered valid rfl rfl (by simp [closed]) ⟨nofun, rfl⟩
  | queued valid accepted => exact .entered valid rfl rfl (by simp [accepted]) ⟨nofun, rfl⟩
  | postponed valid accepted => exact .entered valid rfl rfl (by simp [accepted]) ⟨nofun, rfl⟩
  | rejected valid accepted => exact .entered valid rfl rfl (by simp [accepted]) ⟨nofun, rfl⟩
  | pop | send | retry | giveUp | take | appended | replaced | failed =>
      exact .advanced rfl rfl rfl (fun _ => rfl) (by simp [Submission.become])

theorem map_advanceFirst {α : Type} {fate : Fate} {f : Submission → Submission}
    {g : Submission → α} (same : ∀ x, x.fate = fate → g (f x) = g x) (l : List Submission) :
    (advanceFirst fate f l).map g = l.map g := by
  induction l with
  | nil => rfl
  | cons x xs ih =>
      simp only [advanceFirst]
      split
      · rename_i hx
        rw [List.map_cons, List.map_cons, same x hx]
      · rw [List.map_cons, List.map_cons, ih]

/-- What every step preserves holds after every run. -/
theorem Run.induct {P : Running → History → Prop} {r₀ r : Running} {h : History}
    (run : Run r₀ r h) (start : P r₀ {})
    (step : ∀ {r r' : Running} {h h' : History}, P r h → Step r h r' h' → P r' h') : P r h := by
  induction run with
  | start => exact start
  | move _ moved ih => exact step ih (step_of_move _ moved)

theorem step_place {r r' : Running} {h h' : History} (step : Step r h r' h') :
    r'.store.path = r.store.path ∧ r'.store.config = r.store.config := by
  cases step <;> exact ⟨rfl, rfl⟩

theorem Run.place {r₀ r : Running} {h : History} (run : Run r₀ r h) :
    r.store.path = r₀.store.path ∧ r.store.config = r₀.store.config :=
  run.induct (P := fun r _ => r.store.path = r₀.store.path ∧ r.store.config = r₀.store.config)
    ⟨rfl, rfl⟩ fun ih step => by rwa [(step_place step).1, (step_place step).2]

theorem step_closed {r r' : Running} {h h' : History} (step : Step r h r' h')
    (closed : r.store.closed = true) : r'.store.closed = true := by
  cases step <;> first | exact closed | rfl

/-- A closed store stays closed. -/
theorem Run.closed {r₀ r : Running} {h : History} (run : Run r₀ r h)
    (closed : r₀.store.closed = true) : r.store.closed = true :=
  run.induct (P := fun r _ => r.store.closed = true) closed fun ih step => step_closed step ih

end LiveRules.Collect
