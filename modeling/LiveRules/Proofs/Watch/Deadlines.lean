import LiveRules.Proofs.Clock
import LiveRules.Proofs.Watch.Events

/-!
# Deadlines that the clock can read

A watcher waits until its window has passed since the first of the changes that it has
noted. It notes a change when it happens, so the deadline is at most one window ahead of the
present. A window is a number of 64 bits in milliseconds, which is so short in seconds that
the clock can read the deadline as long as it is in the first half of its readings.
-/
namespace LiveRules.Watch
variable {now later : Nat}

namespace Debouncer
variable {d : Debouncer} {start reading : Instant}

/-- No change is noted before it happens. -/
def Past (d : Debouncer) (now : Nat) : Prop := ∀ p ∈ d.pending, p.2 ≤ now

theorem Past.mono (past : d.Past now) (le : now ≤ later) : d.Past later :=
  fun p pending => Nat.le_trans (past p pending) le

theorem past_record (past : d.Past now) (path : String) : (d.record path now).Past now := by
  intro p pending
  rcases known_or_new d path with known | new
  · rw [pending_record_known known] at pending
    obtain ⟨old, listed, rfl⟩ := List.mem_map.mp pending
    dsimp only
    split
    · exact Nat.le_refl now
    · exact past old listed
  · rw [pending_record_new new] at pending
    rcases List.mem_append.mp pending with old | last
    · exact past p old
    · obtain rfl := List.mem_singleton.mp last
      exact Nat.le_refl now

theorem past_recordAll (past : d.Past now) (paths : List String) :
    (d.recordAll paths now).Past now := by
  induction paths generalizing d with
  | nil => exact past
  | cons path paths ih => exact ih (past_record past path)

theorem past_take (past : d.Past now) (time : Nat) : (d.take time).2.Past now :=
  fun p pending => past p (mem_pending_take.mp pending).1

/-- The next reading is that of the deadline. -/
theorem nextReading?_eq (d : Debouncer) (start : Instant) :
    d.nextReading? start = d.deadline?.mapM fun deadline => start.later? deadline := by
  unfold nextReading? deadline?
  cases (d.pending.map (·.2)).min? with
  | none => rfl
  | some changed => exact congrArg (Option.map some) (start.later?_add changed d.window)

/-- In the first half of all readings the clock has one for the next deadline. -/
theorem isSome_nextReading? (past : d.Past now) (word : d.window < 2 ^ 64)
    (reads : start.later? now = some reading) (early : reading.seconds.toInt ≤ 2 ^ 62) :
    (d.nextReading? start).isSome = true := by
  rw [nextReading?_eq]
  cases next : d.deadline? with
  | none => rfl
  | some deadline =>
      obtain ⟨⟨p, pending, due⟩, -⟩ := deadline?_eq_some next
      have noted := past p pending
      have window := Instant.isSome_later?.mp (Instant.isSome_later?_of_word early word)
      have counted := Instant.count_of_later? reads
      have reached : (start.later? deadline).isSome = true :=
        Instant.isSome_later?.mpr (by omega)
      change ((start.later? deadline).map some).isSome = true
      rw [Option.isSome_map, reached]

/-- The longest window, at the last second of the first half. -/
example : (({ window := 2 ^ 64 - 1, pending := [("/ads", 0)] } : Debouncer).nextReading?
    { seconds := 4611686018427387904 }).isSome = true := by decide

end Debouncer

namespace Watcher
variable {w : Watcher}

theorem window_observe (w : Watcher) (now : Nat) (change : Files.Change) :
    (w.observe now change).debouncer.window = w.debouncer.window := by
  cases closed : w.closed with
  | true => rw [observe, if_pos closed]
  | false =>
      rw [observe_eq closed]
      exact window_handle w now _

theorem past_observe (past : w.debouncer.Past now) (change : Files.Change) :
    (w.observe now change).debouncer.Past now := by
  cases closed : w.closed with
  | true =>
      rw [observe, if_pos closed]
      exact past
  | false =>
      rw [observe_eq closed]
      exact Debouncer.past_recordAll past _

theorem window_take (w : Watcher) (now : Nat) :
    (w.take now).2.debouncer.window = w.debouncer.window := by
  unfold take
  split <;> rfl

theorem past_take (past : w.debouncer.Past now) (time : Nat) :
    (w.take time).2.debouncer.Past now := by
  unfold take
  split
  · exact past
  · exact Debouncer.past_take past time

theorem window_close (w : Watcher) : w.close.2.debouncer.window = w.debouncer.window := by
  unfold close
  split <;> rfl

theorem past_close (past : w.debouncer.Past now) : w.close.2.debouncer.Past now := by
  unfold close
  split
  · exact past
  · exact nofun

end Watcher
end LiveRules.Watch
