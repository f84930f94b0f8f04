import LiveRules.Proofs.Collect.Aftermath
import LiveRules.Proofs.Lists

/-!
# Accounts of collect stores

An account of a store is its history together with what it has told since. No write goes
without a trace: one that is dropped is reported, and so is one that failed. When a store
is closed its writes go on as before, and no call adds to them.
-/
namespace LiveRules.Collect

/-- What is written down about a store while it works. -/
structure Account where
  history : History := {}
  /-- What the store has told, oldest first. -/
  told : List LogEvent := []

/-- What is told of a write that could not be carried out. -/
def failureOf (s : Store) (x : Submission) (cause : Files.ReadError) : LogEvent :=
  { Store.tell .error ("failed to apply " ++ x.op.inspect ++ " to " ++ s.path ++ ": "
    ++ cause.message) with foreground := false }

namespace Running
variable {r r' : Running}

/-- The store has told something before. -/
def toldBefore (told : List LogEvent) (r : Running) : Running :=
  { r with events := told ++ r.events }

theorem toldBefore_withStore (told : List LogEvent) (r : Running) (s : Store × List LogEvent) :
    (r.toldBefore told).withStore s = (r.withStore s).toldBefore told := by
  simp [toldBefore, withStore, tell]

/-- No move depends on what was told before. -/
theorem move_toldBefore (told : List LogEvent) {m : Move} (moved : r.move m = some r') :
    (r.toldBefore told).move m = some (r'.toldBefore told) := by
  cases m with
  | add text =>
      rw [← Option.some.inj moved, ← toldBefore_withStore]
      rfl
  | delete text =>
      rw [← Option.some.inj moved, ← toldBefore_withStore]
      rfl
  | close => rw [← Option.some.inj moved]; rfl
  | expire =>
      obtain ⟨s, expired, rfl⟩ := Option.map_eq_some_iff.mp moved
      rw [← toldBefore_withStore]
      exact Option.map_eq_some_iff.mpr ⟨s, expired, rfl⟩
  | apply =>
      obtain ⟨⟨op, result⟩, write, rfl⟩ := Option.map_eq_some_iff.mp moved
      refine Option.map_eq_some_iff.mpr ⟨(op, result), write, ?_⟩
      cases result <;> simp [toldBefore, tell]
  | pop | send | clear | take | snapshot =>
      obtain ⟨s, done, rfl⟩ := Option.map_eq_some_iff.mp moved
      exact Option.map_eq_some_iff.mpr ⟨s, done, rfl⟩

end Running

theorem follow_toldBefore (told : List LogEvent) {r r' : Running} {h h' : History}
    {ms : List Move} (followed : follow r h ms = some (r', h')) :
    follow (r.toldBefore told) h ms = some (r'.toldBefore told, h') := by
  induction ms generalizing r h with
  | nil =>
      cases followed
      rfl
  | cons m ms ih =>
      obtain ⟨after, moved, rest⟩ := Option.bind_eq_some_iff.mp followed
      rw [follow, Running.move_toldBefore told moved, Option.bind_some, ← ih rest]
      cases m <;> rfl

/-- A move only adds to what was told. -/
theorem told_move {r r' : Running} {m : Move} (moved : r.move m = some r') :
    r.events <+: r'.events := by
  have step := step_of_move {} moved
  generalize History.note {} r m r' = h' at step
  cases step <;> first | exact List.prefix_refl _ | exact List.prefix_append _ _

/-- What the writer is about to carry out is what it holds. -/
theorem ops_of_write? {r : Running} {op : WriteOp}
    {result : Except Files.ReadError (Files.Tree × List Files.Change)}
    (write : r.write? = some (op, result)) : r.store.writer.ops = [op] := by
  unfold Running.write? at write
  split at write
  · rename_i holding
    split at write
    · cases write
    · obtain ⟨rfl, -⟩ := Prod.mk.inj (Option.some.inj write)
      rw [holding, Writer.ops]
  · rename_i replacing
    obtain ⟨rfl, -⟩ := Prod.mk.inj (Option.some.inj write)
    rw [replacing, Writer.ops]
  · cases write

theorem unfinished_submission (s after : Store) (edit : Edit) :
    (History.submission s after edit).fate.finished = false := by
  unfold History.submission
  dsimp only
  split
  · rfl
  · split
    · rfl
    · split <;> rfl

/-- The failures so far have been told. -/
def FailuresTold (r : Running) (h : History) : Prop :=
  ∀ x ∈ h.submissions, x.fate = .failed → ∃ cause, failureOf r.store x cause ∈ r.events

namespace FailuresTold
variable {r r' : Running} {h : History}

/-- What was told of the failures that were there already. -/
theorem older (told : FailuresTold r h) {m : Move} (moved : r.move m = some r')
    {x : Submission} (listed : x ∈ h.submissions) (failed : x.fate = .failed) :
    ∃ cause, failureOf r'.store x cause ∈ r'.events := by
  have path := (step_place (step_of_move {} moved)).1
  have ⟨cause, before⟩ := told x listed failed
  refine ⟨cause, ?_⟩
  rw [failureOf, path]
  exact (told_move moved).subset before

/-- A write that fails is told of when it fails. -/
theorem apply (told : FailuresTold r h) (ordered : InOrder r.store h)
    (moved : r.move .apply = some r') : FailuresTold r' (h.note r .apply r') := by
  intro x listed failed
  rcases mem_advanceFirst listed with old | ⟨y, held, fate, rfl⟩
  · exact told.older moved old failed
  · obtain ⟨⟨op, result⟩, write, rfl⟩ := Option.map_eq_some_iff.mp moved
    simp only [write] at failed ⊢
    cases result with
    | ok out => cases failed
    | error cause =>
        have busy := ordered.held_op held fate
        have same : r.store.writer.ops = [op] := ops_of_write? write
        obtain rfl : y.op = op := List.singleton_inj.mp (busy.symm.trans same)
        refine ⟨cause, List.mem_append_right _ (List.mem_singleton_self _)⟩

theorem move (told : FailuresTold r h) (ordered : InOrder r.store h) {m : Move}
    (moved : r.move m = some r') : FailuresTold r' (h.note r m r') := by
  have kept : FailuresTold r' h := fun x => told.older moved
  have entered {x : Submission} (fresh : x.fate.finished = false) :
      FailuresTold r' (h.enter x) := by
    intro y listed failed
    rcases List.mem_append.mp listed with old | new
    · exact kept y old failed
    · rw [List.mem_singleton.mp new] at failed
      rw [failed] at fresh
      cases fresh
  have advanced {fate : Fate} {f : Submission → Submission}
      (other : ∀ x, (f x).fate ≠ .failed) : FailuresTold r' (h.advance fate f) := by
    intro y listed failed
    rcases mem_advanceFirst listed with old | ⟨z, -, -, rfl⟩
    · exact kept y old failed
    · exact absurd failed (other z)
  cases m with
  | add text | delete text =>
      simp only [History.note]
      split
      · exact entered (unfinished_submission ..)
      · exact kept
  | close | clear | snapshot => exact kept
  | pop | send => exact advanced (by simp [Submission.become])
  | expire =>
      refine advanced fun x => ?_
      dsimp only
      split <;> decide
  | take =>
      simp only [History.note]
      split
      · exact advanced (by simp [Submission.become])
      · exact kept
  | apply => exact told.apply ordered moved

end FailuresTold

namespace Account

/-- The account of a store is right: no write has overtaken another one, and those that will
never reach the file have been told of. -/
structure Right (a : Account) (s : Store) : Prop where
  ordered : InOrder s a.history
  attempts : ∀ x ∈ a.history.dropped, (x.edit.policy s.config).attempts ≤ x.failures
  dropped : (dropReports a.told).Perm (a.history.dropped.map (reportOf s))
  failed : ∀ x ∈ a.history.submissions, x.fate = .failed →
    ∃ cause, failureOf s x cause ∈ a.told

theorem Right.move {r r' : Running} {h : History} (right : Right ⟨h, r.events⟩ r.store)
    {m : Move} (moved : r.move m = some r') :
    Right ⟨h.note r m r', r'.events⟩ r'.store := by
  have step := step_of_move h moved
  -- The drops are counted from a store on that has told nothing yet.
  have before : DropsReported { r with events := [] } r h := ⟨right.attempts, right.dropped⟩
  have drops := before.step right.ordered step
  have failures : FailuresTold r h := right.failed
  exact ⟨inOrder_step right.ordered step, drops.attempts, drops.reports,
    failures.move right.ordered moved⟩

theorem Right.follow {r r' : Running} {h h' : History} (right : Right ⟨h, r.events⟩ r.store)
    {ms : List Move} (followed : Collect.follow r h ms = some (r', h')) :
    Right ⟨h', r'.events⟩ r'.store := by
  induction ms generalizing r h with
  | nil =>
      cases followed
      exact right
  | cons m ms ih =>
      obtain ⟨after, moved, rest⟩ := Option.bind_eq_some_iff.mp followed
      exact ih (right.move moved) rest

/-- The account after moves of the store that have told `r.events`. -/
theorem Right.work {a : Account} {r r' : Running} {h : History} (right : a.Right r.store)
    (silent : r.events = []) {ms : List Move}
    (followed : Collect.follow r a.history ms = some (r', h)) :
    Right ⟨h, a.told ++ r'.events⟩ r'.store := by
  refine Right.follow (r := r.toldBefore a.told) ?_ (follow_toldBefore a.told followed)
  rw [Running.toldBefore, silent, List.append_nil]
  exact right

end Account

/-- Nothing is handed in, and nobody works on what has been. -/
def Store.Resting (s : Store) : Prop :=
  s.retrier = .idle ∧ s.backlog = [] ∧ s.queue = [] ∧ s.writer = .idle

theorem Store.resting_of_ended {s : Store} (ended : s.writerEnded = true) : s.Resting :=
  (Store.writerEnded_iff.mp ended).2

theorem Account.Right.start {s : Store} (resting : s.Resting) : Right {} s where
  ordered := by
    have ⟨idle, backlog, queue, writer⟩ := resting
    refine ⟨[], [], [], [], [], ?_⟩
    exact {
      line := rfl
      finished_fate := nofun
      held_fate := nofun
      queued_fate := nofun
      sent_fate := nofun
      waiting_fate := nofun
      taken := rfl
      writer := by rw [writer]; rfl
      queue := by rw [queue]; rfl
      retrier := by rw [idle]; exact .nil
      backlog := by rw [backlog]; exact .nil }
  attempts := nofun
  dropped := .nil
  failed := nofun

/-- What a store does before it is closed leaves its sharing alone. -/
theorem alike_follow {r r' : Running} {h h' : History} {ms : List Move}
    (others : ∀ m ∈ ms, m ≠ .close) (followed : follow r h ms = some (r', h')) :
    r.store.Alike r'.store := by
  induction ms generalizing r h with
  | nil =>
      cases followed
      exact .refl _
  | cons m ms ih =>
      obtain ⟨after, moved, rest⟩ := Option.bind_eq_some_iff.mp followed
      have first := Running.alike_move (others m (by simp)) moved
      have later := ih (fun m listed => others m (by simp [listed])) rest
      exact ⟨later.path.trans first.path, later.closed.trans first.closed,
        later.ended ∘ first.ended⟩

/-! ## Closing -/

/-- What may become of a submission while nobody calls. -/
structure Proceeds (x y : Submission) : Prop where
  edit : y.edit = x.edit
  settled : x.fate.pending = false → y = x
  accepted : x.fate.pending = true → y.fate ≠ .refused

namespace Proceeds

theorem refl (x : Submission) : Proceeds x x where
  edit := rfl
  settled := fun _ => rfl
  accepted := by
    intro pending refused
    rw [refused] at pending
    cases pending

theorem trans {x y z : Submission} (first : Proceeds x y) (second : Proceeds y z) :
    Proceeds x z where
  edit := second.edit.trans first.edit
  settled := by
    intro settled
    obtain rfl := first.settled settled
    exact second.settled settled
  accepted := by
    intro pending
    cases still : y.fate.pending with
    | true => exact second.accepted still
    | false =>
        rw [second.settled still]
        exact first.accepted pending

instance : Std.Refl Proceeds := ⟨refl⟩

theorem all_advanceFirst {fate : Fate} {f : Submission → Submission}
    (pending : fate.pending = true) (edit : ∀ x, (f x).edit = x.edit)
    (accepted : ∀ x, (f x).fate ≠ .refused)
    (l : List Submission) : List.Forall₂ Proceeds l (advanceFirst fate f l) := by
  induction l with
  | nil => exact .nil
  | cons x xs ih =>
      unfold advanceFirst
      split
      · rename_i same
        refine .cons ⟨edit x, fun settled => ?_, fun _ => accepted x⟩ (List.forall₂_refl xs)
        rw [same, pending] at settled
        cases settled
      · exact .cons (.refl x) ih

end Proceeds

theorem proceeds_move {r r' : Running} {m : Move} (h : History) (background : m.isCall = false)
    (moved : r.move m = some r') :
    List.Forall₂ Proceeds h.submissions (h.note r m r').submissions := by
  have recorded := step_recorded (step_of_move h moved)
  have edits := @edits_note r r' h m
  rw [Move.edit?_background background] at edits
  generalize (h.note r m r').submissions = l at recorded edits ⊢
  cases recorded with
  | same => exact List.forall₂_refl _
  | entered => simp at edits
  | advanced _ _ pending edit accepted => exact Proceeds.all_advanceFirst pending edit accepted _

theorem proceeds_follow {r r' : Running} {h h' : History} {ms : List Move}
    (background : ∀ m ∈ ms, m.isCall = false) (followed : follow r h ms = some (r', h')) :
    List.Forall₂ Proceeds h.submissions h'.submissions := by
  induction ms generalizing r h with
  | nil =>
      cases followed
      exact List.forall₂_refl _
  | cons m ms ih =>
      obtain ⟨after, moved, rest⟩ := Option.bind_eq_some_iff.mp followed
      have first := proceeds_move h (background m (by simp)) moved
      have others := ih (fun m listed => background m (by simp [listed])) rest
      exact Lists.forall₂_trans (R := Proceeds) .trans first others

/-- What became of the writes of a store by the time it has shut down: those that were on
their way are carried out, or they were dropped, and what failed or was dropped has been
told. -/
structure Account.Settles (before after : Account) (s : Store) : Prop where
  outcome : List.Forall₂ (fun x y => y.edit = x.edit ∧
    if x.fate.pending then y.fate = .written ∨ y.fate = .failed ∨ y.fate = .dropped else y = x)
    before.history.submissions after.history.submissions
  dropped : (dropReports after.told).Perm (after.history.dropped.map (reportOf s))
  failed : ∀ x ∈ after.history.submissions, x.fate = .failed →
    ∃ cause, failureOf s x cause ∈ after.told

theorem Account.Right.settles {before after : Account} {s : Store} (right : after.Right s)
    (ended : s.writerEnded = true)
    (proceeded : List.Forall₂ Proceeds before.history.submissions after.history.submissions) :
    before.Settles after s where
  outcome := by
    have none := (right.ordered.ended ended).2.2.2
    have ⟨length, all⟩ := List.forall₂_iff_zip.mp proceeded
    refine List.forall₂_iff_zip.mpr ⟨length, fun {x y} paired => ?_⟩
    have proceeds := all paired
    have settled := none y (List.of_mem_zip paired).2
    refine ⟨proceeds.edit, ?_⟩
    split
    · rename_i pending
      have accepted := proceeds.accepted pending
      revert settled accepted
      cases y.fate <;> simp [Fate.pending]
    · rename_i decided
      exact proceeds.settled (by simpa using decided)
  dropped := right.dropped
  failed := right.failed

/-! ## Shutting down at rest -/

namespace Running
variable {r : Running}

theorem rests_of_resting (resting : r.store.Resting) : r.Rests := by
  have ⟨idle, backlog, queue, writer⟩ := resting
  have writes : r.write? = none := by rw [write?, writer]
  intro m eager
  simp only [Running.eager, List.mem_cons, List.not_mem_nil, or_false] at eager
  rcases eager with rfl | rfl | rfl | rfl | rfl | rfl
  · simp [move, apply, writes]
  · simp [move, Store.snapshot, writer]
  · simp [move, Store.take, writer, queue]
  · simp [move, Store.clear, idle]
  · simp [move, Store.send, idle]
  · simp [move, Store.pop, idle, backlog]

theorem settle_of_rests (rests : r.Rests) : r.settle = r := by
  have none : eager.findSome? r.move = none := List.findSome?_eq_none_iff.mpr rests
  unfold settle
  cases workload r.store with
  | zero => rfl
  | succ fuel => rw [settleWithin, none]

/-- The shutdown of a store at rest does nothing but close it. -/
theorem shutdown_of_resting (resting : r.store.Resting) (accepted : r.store.closed = false) :
    r.shutdown = { r with store := r.store.close }.tell
      [Store.tell .info ("closed: " ++ r.store.path)] := by
  have closing : ({ r with store := r.store.close } : Running).settle =
      { r with store := r.store.close } := settle_of_rests (rests_of_resting resting)
  rw [shutdown, accepted]
  simp only [Bool.false_eq_true, if_false, closing]
  rfl

end Running

/-! ## Pipes -/

/-- Every pipe has a reader. -/
def Heard (files : Files.Tree) : Prop := ∀ p ∈ files.pipes, p.reading = true

namespace Heard
variable {files files' : Files.Tree} {path text : String} {changes : List Files.Change}

theorem ready (heard : Heard files) (path : String) : files.appendWaits path = false := by
  unfold Files.Tree.appendWaits
  split
  · rename_i id _
    cases there : files.pipes[id]? with
    | none => rfl
    | some pipe => simp [heard pipe (List.mem_of_getElem? there)]
  · rfl

theorem append (heard : Heard files) (done : files.append path text = .ok (files', changes)) :
    Heard files' := by
  unfold Files.Tree.append at done
  split at done
  · cases done
  · cases done
    exact heard
  · cases done
    intro p listed
    have ⟨i, there⟩ := List.mem_iff_getElem?.mp listed
    rw [List.getElem?_modify, Option.map_eq_map, Option.map_eq_some_iff] at there
    obtain ⟨old, there, rfl⟩ := there
    have reading := heard old (List.mem_of_getElem? there)
    split <;> exact reading
  · cases done
    exact heard
  · cases done
    exact heard
  · cases done

theorem replace (heard : Heard files) (done : files.replace path text = .ok (files', changes)) :
    Heard files' := by
  unfold Files.Tree.replace at done
  split at done <;> cases done <;> exact heard

/-- What a store writes takes no reader away. -/
theorem step {r r' : Running} {h h' : History} (heard : Heard r.files) (step : Step r h r' h') :
    Heard r'.files := by
  cases step with
  | appended _ done => exact heard.append done
  | replaced _ done => exact heard.replace done
  | _ => exact heard

theorem follow {r r' : Running} {h h' : History} {ms : List Move} (heard : Heard r.files)
    (followed : Collect.follow r h ms = some (r', h')) : Heard r'.files := by
  induction ms generalizing r h with
  | nil =>
      cases followed
      exact heard
  | cons m ms ih =>
      obtain ⟨after, moved, rest⟩ := Option.bind_eq_some_iff.mp followed
      exact ih (heard.step (step_of_move h moved)) rest

end Heard
end LiveRules.Collect
