import LiveRules.Proofs.Watch.Events

/-!
# The loop of a watcher

The loop takes notices as they arrive and otherwise sleeps until the next deadline of
its one debouncer, unless it is cancelled first. Each turn takes one notice, or wakes
up and starts a reload for every path that has settled. A loop always comes to its
end, where it has been cancelled or would sleep for ever.
-/
namespace LiveRules.Watch
open Files (samePath components)

structure EventLoop where
  watcher : Watcher
  /-- What still arrives, with the times when it does. -/
  arrivals : List (Nat × Notice)
  cancel : Option Nat := none
  /-- When it woke up so far, with the paths that had settled. -/
  wakes : List (Nat × List String) := []

namespace EventLoop

/-- A loop that has nothing to wait for yet. -/
def start (name : String) (paths : PathSet) (includeRename : Bool) (window : Nat)
    (arrivals : List (Nat × Notice)) (cancel : Option Nat) : EventLoop where
  watcher := { name, paths, includeRename, debouncer := { window } }
  arrivals := arrivals
  cancel := cancel

/-- Whether it has been cancelled by a time. -/
def cancelledBy (l : EventLoop) (time : Nat) : Bool := l.cancel.any (· ≤ time)

/-- The next deadline, if nothing arrives before it or just then. -/
def due? (l : EventLoop) : Option Nat :=
  l.watcher.deadline?.filter fun deadline => l.arrivals.head?.all fun a => deadline < a.1

def wake (l : EventLoop) (now : Nat) : EventLoop :=
  { l with watcher := (l.watcher.take now).2, wakes := l.wakes ++ [(now, (l.watcher.take now).1)] }

/-- What the loop does next. It ends when it is cancelled before that. -/
def turn (l : EventLoop) : Option EventLoop :=
  match l.due? with
  | some deadline => if l.cancelledBy deadline then none else some (l.wake deadline)
  | none =>
      match l.arrivals with
      | [] => none
      | (time, n) :: rest =>
          if l.cancelledBy time then none
          else some { l with watcher := l.watcher.handle time n, arrivals := rest }

/-- The reloads that were started, with the times when they were. -/
def starts (l : EventLoop) : List (String × Nat) :=
  l.wakes.flatMap fun w => w.2.map fun path => (path, w.1)

inductive Turns : EventLoop → EventLoop → Prop
  | done (l : EventLoop) : Turns l l
  | turn {l m r : EventLoop} : l.turn = some m → Turns m r → Turns l r

variable {l m r : EventLoop}

/-- The two things that a turn can be. -/
inductive Takes (l : EventLoop) : EventLoop → Prop
  | wakes {deadline : Nat} (next : l.watcher.deadline? = some deadline)
      (first : ∀ a ∈ l.arrivals.head?, deadline < a.1) (on : l.cancelledBy deadline = false) :
      Takes l (l.wake deadline)
  | handles {time : Nat} {n : Notice} {rest : List (Nat × Notice)}
      (arrives : l.arrivals = (time, n) :: rest)
      (first : ∀ deadline ∈ l.watcher.deadline?, time ≤ deadline)
      (on : l.cancelledBy time = false) :
      Takes l { l with watcher := l.watcher.handle time n, arrivals := rest }

theorem due?_eq_some {deadline : Nat} : l.due? = some deadline ↔
    l.watcher.deadline? = some deadline ∧ ∀ a ∈ l.arrivals.head?, deadline < a.1 := by
  simp [due?, Option.filter_eq_some_iff, Option.all_eq_true]

theorem due?_eq_none : l.due? = none ↔
    ∀ deadline ∈ l.watcher.deadline?, ∃ a ∈ l.arrivals.head?, a.1 ≤ deadline := by
  simp [due?, Option.filter_eq_none_iff, Option.all_eq_true]

theorem takes_turn (moved : l.turn = some m) : Takes l m := by
  unfold turn at moved
  split at moved
  · rename_i deadline due
    obtain ⟨next, first⟩ := due?_eq_some.mp due
    split at moved
    · cases moved
    · rename_i on
      obtain rfl := Option.some.inj moved
      exact .wakes next first (by simpa using on)
  · rename_i due
    split at moved
    · cases moved
    · rename_i time n rest arrives
      split at moved
      · cases moved
      · rename_i on
        obtain rfl := Option.some.inj moved
        refine .handles arrives (fun deadline next => ?_) (by simpa using on)
        obtain ⟨a, head, le⟩ := due?_eq_none.mp due deadline next
        rw [arrives] at head
        obtain rfl := Option.mem_some.mp head
        exact le

/-- A loop that has ended had nothing left to do, or was cancelled before it. -/
theorem ended (ends : l.turn = none) :
    (∀ a ∈ l.arrivals.head?, l.cancelledBy a.1 = true ∨
      ∃ deadline ∈ l.watcher.deadline?, l.cancelledBy deadline = true ∧ deadline < a.1) ∧
    ∀ deadline ∈ l.watcher.deadline?, l.cancelledBy deadline = true ∨
      ∃ a ∈ l.arrivals.head?, l.cancelledBy a.1 = true ∧ a.1 ≤ deadline := by
  unfold turn at ends
  split at ends
  · rename_i deadline due
    obtain ⟨next, first⟩ := due?_eq_some.mp due
    split at ends
    · rename_i cancelled
      constructor
      · exact fun a head => .inr ⟨deadline, next, cancelled, first a head⟩
      · intro other next'
        obtain rfl := Option.mem_unique next' next
        exact .inl cancelled
    · cases ends
  · rename_i due
    split at ends
    · rename_i none
      rw [none]
      refine ⟨nofun, fun deadline next => ?_⟩
      obtain ⟨a, head, -⟩ := due?_eq_none.mp due deadline next
      rw [none] at head
      cases head
    · rename_i time n rest arrives
      split at ends
      · rename_i cancelled
        rw [arrives]
        constructor
        · intro a head
          obtain rfl := Option.mem_some.mp head
          exact .inl cancelled
        · intro deadline next
          obtain ⟨a, head, le⟩ := due?_eq_none.mp due deadline next
          rw [arrives] at head
          obtain rfl := Option.mem_some.mp head
          exact .inr ⟨(time, n), rfl, cancelled, le⟩
      · cases ends

end EventLoop
end LiveRules.Watch
