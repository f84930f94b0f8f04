/-!
# Readings of the clock

A reading has seconds of 64 bits with a sign, and nanoseconds below a second. A
later one that needs more seconds than that does not exist, and a program that
asks for it ends there.
-/
namespace LiveRules

structure Instant where
  seconds : Int64
  nanos : Nat := 0
  nanos_lt : nanos < 1000000000 := by decide
  deriving DecidableEq, Repr

namespace Instant

/-- The reading some milliseconds later, if its seconds fit. -/
def later? (t : Instant) (ms : Nat) : Option Instant :=
  let nanos := t.nanos + ms % 1000 * 1000000
  let seconds := t.seconds.toInt + (ms / 1000 + nanos / 1000000000 : Nat)
  if seconds ≤ Int64.maxValue.toInt then
    some ⟨.ofInt seconds, nanos % 1000000000, Nat.mod_lt _ (by decide)⟩
  else none

end Instant
end LiveRules
