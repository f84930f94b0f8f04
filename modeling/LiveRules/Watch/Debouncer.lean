import LiveRules.Clock
import LiveRules.Files.Path

/-!
# Debouncing changes

A changed path is ready once nothing has touched it for a whole window. Each
path waits for itself. Times are in milliseconds and are given by the caller.
-/
namespace LiveRules.Watch

structure Debouncer where
  window : Nat
  /-- Paths with the time of their last change. -/
  pending : List (String × Nat) := []
  deriving DecidableEq, Repr

namespace Debouncer

def hasPath (path : String) (p : String × Nat) : Bool := Files.samePath p.1 path

/-- Restarts the wait of a path, which keeps its first spelling. -/
def record (d : Debouncer) (path : String) (now : Nat) : Debouncer :=
  if d.pending.any (hasPath path) then
    { d with pending := d.pending.map fun p => if hasPath path p then (p.1, now) else p }
  else { d with pending := d.pending ++ [(path, now)] }

def remove (d : Debouncer) (path : String) : Debouncer :=
  { d with pending := d.pending.filter fun p => !hasPath path p }

/-- Whether a change of time `changed` is settled. -/
def settled (d : Debouncer) (now changed : Nat) : Bool := changed + d.window ≤ now

/-- Gives up the settled paths, sorted. -/
def take (d : Debouncer) (now : Nat) : List String × Debouncer :=
  let (ready, waiting) := d.pending.partition fun p => d.settled now p.2
  ((ready.map (·.1)).mergeSort fun a b => !Files.pathBefore b a,
    { d with pending := waiting })

/-- When the next path is ready. -/
def deadline? (d : Debouncer) : Option Nat :=
  (d.pending.map (·.2)).min?.map (· + d.window)

/-- The reading of the clock when the next path is ready, if one waits. Nothing is
answered if the clock has no such reading. It reads `start` at time 0. -/
def nextReading? (d : Debouncer) (start : Instant) : Option (Option Instant) :=
  (d.pending.map (·.2)).min?.mapM fun changed => do
    let reading ← start.later? changed
    reading.later? d.window

end Debouncer
end LiveRules.Watch
