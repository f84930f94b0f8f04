import LiveRules.Proofs.Collect.Step

/-!
# Shutting down

The background work that is left shrinks with every move that waits for nothing,
and as long as the writer has not ended there is such a move, unless the writer
waits for the reader of a pipe. So the moves that a shutdown makes are enough.
-/
namespace LiveRules.Collect

/-- How many moves the retrier's write still calls for. -/
def Retrier.work : Retrier → Nat
  | .idle => 0
  | .done => 1
  | .sending _ => 5

def Writer.work : Writer → Nat
  | .idle => 0
  | .holding .replaceAll => 2
  | .holding (.append _) | .replacing _ => 1

def Store.work (s : Store) : Nat :=
  3 * s.queue.length + 6 * s.backlog.length + s.retrier.work + s.writer.work

theorem Retrier.work_le (r : Retrier) : r.work ≤ 5 := by
  cases r <;> simp [Retrier.work]

theorem Writer.work_le (w : Writer) : w.work ≤ 2 := by
  unfold Writer.work
  split <;> omega

theorem Store.work_le (s : Store) : s.work ≤ Running.workload s := by
  have retrier := s.retrier.work_le
  have writer := s.writer.work_le
  unfold Store.work Running.workload
  omega

namespace Running
variable {r r' : Running}

theorem store_of_apply (moved : r.move .apply = some r') :
    r.store.writer ≠ .idle ∧ r'.store = { r.store with writer := .idle } := by
  simp only [move, apply, Option.map_eq_some_iff, Prod.exists] at moved
  obtain ⟨op, result, write, rfl⟩ := moved
  constructor
  · intro idle
    simp [write?, idle] at write
  · cases result <;> rfl

theorem work_lt {m : Move} (eager : m ∈ eager) (moved : r.move m = some r') :
    r'.store.work < r.store.work := by
  simp only [Running.eager, List.mem_cons, List.not_mem_nil, or_false] at eager
  rcases eager with rfl | rfl | rfl | rfl | rfl | rfl
  · obtain ⟨busy, after⟩ := store_of_apply moved
    have some : 0 < r.store.writer.work := by
      unfold Writer.work
      split <;> simp_all
    rw [after]
    simp only [Store.work, Writer.work.eq_1]
    omega
  · obtain ⟨s, read, rfl⟩ := Option.map_eq_some_iff.mp moved
    obtain ⟨holding, rfl⟩ := Store.snapshot_eq_some.mp read
    simp [Store.work, Writer.work, holding]
  · obtain ⟨s, taken, rfl⟩ := Option.map_eq_some_iff.mp moved
    obtain ⟨op, rest, idle, oldest, rfl⟩ := Store.take_eq_some.mp taken
    have held := (Writer.holding op).work_le
    simp only [Store.work, idle, oldest, List.length_cons, Writer.work.eq_1]
    omega
  · obtain ⟨s, cleared, rfl⟩ := Option.map_eq_some_iff.mp moved
    obtain ⟨finished, rfl⟩ := Store.clear_eq_some.mp cleared
    simp [Store.work, Retrier.work, finished]
  · obtain ⟨s, sent, rfl⟩ := Option.map_eq_some_iff.mp moved
    obtain ⟨w, sending, -, rfl⟩ := Store.send_eq_some.mp sent
    simp only [Store.work, Retrier.work, sending, List.length_append, List.length_singleton]
    omega
  · obtain ⟨s, popped, rfl⟩ := Option.map_eq_some_iff.mp moved
    obtain ⟨w, rest, idle, oldest, rfl⟩ := Store.pop_eq_some.mp popped
    simp only [Store.work, Retrier.work, idle, oldest, List.length_cons]
    omega

/-- The background work has come to rest. -/
def Rests (r : Running) : Prop := ∀ m ∈ eager, r.move m = none

theorem settleWithin_rests {fuel : Nat} (enough : r.store.work ≤ fuel) :
    (r.settleWithin fuel).Rests := by
  induction fuel generalizing r with
  | zero =>
      intro m hm
      rw [settleWithin, Option.eq_none_iff_forall_ne_some]
      intro r' moved
      have less := work_lt hm moved
      omega
  | succ fuel ih =>
      rw [settleWithin]
      split
      · rename_i none
        exact List.findSome?_eq_none_iff.mp none
      · rename_i r' found
        obtain ⟨m, hm, moved⟩ := List.exists_of_findSome?_eq_some found
        have less := work_lt hm moved
        exact ih (by omega)

/-- Settling makes moves in the background, one after the other. -/
theorem settleWithin_follow (r : Running) (h : History) (fuel : Nat) :
    ∃ ms h', follow r h ms = some (r.settleWithin fuel, h') ∧ ∀ m ∈ ms, m ∈ eager := by
  induction fuel generalizing r h with
  | zero => exact ⟨[], h, rfl, by simp⟩
  | succ fuel ih =>
      rw [settleWithin]
      split
      · exact ⟨[], h, rfl, by simp⟩
      · rename_i r' found
        obtain ⟨m, hm, moved⟩ := List.exists_of_findSome?_eq_some found
        obtain ⟨ms, h', followed, background⟩ := ih r' (h.note r m r')
        exact ⟨m :: ms, h', by rw [follow, moved, Option.bind_some, followed],
          List.forall_mem_cons.mpr ⟨hm, background⟩⟩

/-- The writer cannot go on before somebody reads the pipe that it writes to. -/
def Waits (r : Running) : Prop :=
  ∃ e, r.store.writer = .holding (.append e) ∧ r.files.appendWaits r.store.path = true

theorem Rests.writer (rests : r.Rests) : r.store.writer = .idle ∨ r.Waits := by
  have apply := rests .apply (by simp [eager])
  have snapshot := rests .snapshot (by simp [eager])
  rw [move, Running.apply, Option.map_eq_none_iff] at apply
  cases writer : r.store.writer with
  | idle => exact .inl rfl
  | replacing entries => simp [write?, writer] at apply
  | holding op =>
      cases op with
      | replaceAll => simp [move, Store.snapshot, writer] at snapshot
      | append e =>
          refine .inr ⟨e, writer, ?_⟩
          simpa [write?, writer] using apply

/-- At rest, a closed store has shut down, or its writer waits. -/
theorem Rests.ended (rests : r.Rests) (closed : r.store.closed = true) :
    r.store.writerEnded = true ∨ r.Waits := by
  rcases rests.writer with idle | waits
  · left
    have take := rests .take (by simp [eager])
    have clear := rests .clear (by simp [eager])
    have send := rests .send (by simp [eager])
    have pop := rests .pop (by simp [eager])
    simp only [move, Option.map_eq_none_iff] at take clear send pop
    have queue : r.store.queue = [] := by
      cases queue : r.store.queue with
      | nil => rfl
      | cons op rest => simp [Store.take, idle, queue] at take
    have resting : r.store.retrier = .idle := by
      cases retrier : r.store.retrier with
      | idle => rfl
      | done => simp [Store.clear, retrier] at clear
      | sending w =>
          have room : 0 < r.store.capacity := by
            unfold Store.capacity
            omega
          simp [Store.send, retrier, queue, room] at send
    have backlog : r.store.backlog = [] := by
      cases backlog : r.store.backlog with
      | nil => rfl
      | cons w rest => simp [Store.pop, resting, backlog] at pop
    simp [Store.writerEnded, Store.retrierEnded, Store.retrying, Store.inFlight, closed, queue,
      resting, backlog, idle]
  · exact .inr waits

end Running

/-- A shutdown closes the store and goes on with moves in the background. It comes back
when the writer has ended, unless the writer waits for ever. -/
theorem shutdown_eager {r : Running} (h : History) (accepted : r.store.closed = false) :
    ∃ ms r' h', follow r h (.close :: ms) = some (r', h') ∧ (∀ m ∈ ms, m ∈ Running.eager) ∧
      r.shutdown = r'.tell [Store.tell .info ("closed: " ++ r.store.path)] ∧
      (r'.store.writerEnded = true ∨ r'.Waits) := by
  let closing : Running := { r with store := r.store.close }
  obtain ⟨ms, h', followed, background⟩ := closing.settleWithin_follow
    (h.note r .close closing) (Running.workload closing.store)
  -- The same moves make a run from the closing store on, which keeps path and mark.
  obtain ⟨_, _, fresh, -⟩ := closing.settleWithin_follow {} (Running.workload closing.store)
  have run := Run.start.follow fresh
  have path : closing.settle.store.path = r.store.path := run.place.1
  refine ⟨ms, closing.settle, h', followed, background, ?_, ?_⟩
  · rw [← path]
    simp only [Running.shutdown, accepted, Bool.false_eq_true, if_false]
    rfl
  · exact (Running.settleWithin_rests closing.store.work_le).ended (run.closed rfl)

theorem shutdown_follow {r : Running} (h : History) (accepted : r.store.closed = false) :
    ∃ ms r' h', follow r h (.close :: ms) = some (r', h') ∧
      r.shutdown = r'.tell [Store.tell .info ("closed: " ++ r.store.path)] ∧
      (r'.store.writerEnded = true ∨ r'.Waits) := by
  obtain ⟨ms, r', h', followed, -, rest⟩ := shutdown_eager h accepted
  exact ⟨ms, r', h', followed, rest⟩

end LiveRules.Collect
