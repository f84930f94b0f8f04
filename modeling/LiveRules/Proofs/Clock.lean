import LiveRules.Clock
import Mathlib.Algebra.Group.Int.Defs
import Mathlib.Algebra.Group.Nat.Defs

/-!
# Which readings a clock has

A reading is a number of nanoseconds, and every number up to the last second of 64 bits has
one. So waiting twice is waiting once for both times, and there is a reading some whole
seconds later exactly if the seconds themselves fit.
-/
namespace LiveRules.Instant
variable {t u : Instant} {ms : Nat}

/-- Nanoseconds since second 0. -/
def count (t : Instant) : Int := t.seconds.toInt * 1000000000 + t.nanos

/-- The first number of nanoseconds that is no reading any more. -/
def limit : Int := 2 ^ 63 * 1000000000

theorem count_lt (t : Instant) : t.count < limit := by
  have seconds := t.seconds.toInt_lt
  have nanos := t.nanos_lt
  unfold count limit
  omega

theorem eq_of_count (same : t.count = u.count) : t = u := by
  have short := t.nanos_lt
  have short' := u.nanos_lt
  have ⟨seconds, nanos⟩ : t.seconds.toInt = u.seconds.toInt ∧ t.nanos = u.nanos := by
    unfold count at same
    omega
  cases t
  cases u
  simp_all [Int64.toInt_inj]

/-- The last second. -/
theorem toInt_maxValue : Int64.maxValue.toInt = 2 ^ 63 - 1 := rfl

theorem count_of_later? (later : t.later? ms = some u) : u.count = t.count + ms * 1000000 := by
  have least := t.seconds.le_toInt
  have last := toInt_maxValue
  unfold later? at later
  dsimp only at later
  split at later
  · rename_i fits
    obtain rfl := Option.some.inj later
    unfold count
    rw [Int64.toInt_ofInt_of_le (by omega) (by omega)]
    dsimp only
    omega
  · cases later

/-- A wait leads to a reading unless it leads past the last one. -/
theorem isSome_later? : (t.later? ms).isSome = true ↔ t.count + ms * 1000000 < limit := by
  have short := t.nanos_lt
  have last := toInt_maxValue
  unfold later? count limit
  dsimp only
  split
  · simp only [Option.isSome_some, true_iff]
    omega
  · simp only [Option.isSome_none, Bool.false_eq_true, false_iff]
    omega

theorem later?_eq_none : t.later? ms = none ↔ limit ≤ t.count + ms * 1000000 := by
  rw [← Option.not_isSome_iff_eq_none, isSome_later?, Int.not_lt]

/-- Waiting twice is waiting once for both times. -/
theorem later?_add (t : Instant) (first second : Nat) :
    ((t.later? first).bind fun u => u.later? second) = t.later? (first + second) := by
  cases sooner : t.later? first with
  | none =>
      have past := later?_eq_none.mp sooner
      exact (later?_eq_none.mpr (by omega)).symm
  | some u =>
      have counted := count_of_later? sooner
      cases later : u.later? second with
      | none =>
          have past := later?_eq_none.mp later
          simp only [Option.bind_some, later]
          exact (later?_eq_none.mpr (by omega)).symm
      | some v =>
          have counted' := count_of_later? later
          have least := v.count_lt
          have reached : (t.later? (first + second)).isSome = true :=
            isSome_later?.mpr (by omega)
          obtain ⟨w, reads⟩ := Option.isSome_iff_exists.mp reached
          have counted'' := count_of_later? reads
          have same : v = w := eq_of_count (by omega)
          simp only [Option.bind_some, later, reads, same]

/-- For whole seconds only the seconds of the reading count. -/
theorem later?_seconds_eq_none {n : Nat} :
    t.later? (n * 1000) = none ↔ 2 ^ 63 ≤ t.seconds.toInt + n := by
  have short := t.nanos_lt
  rw [later?_eq_none, count, limit]
  omega

/-- In the first half of all readings every wait of 64 bits in milliseconds leads to one. -/
theorem isSome_later?_of_word (early : t.seconds.toInt ≤ 2 ^ 62) (word : ms < 2 ^ 64) :
    (t.later? ms).isSome = true := by
  have short := t.nanos_lt
  rw [isSome_later?, count, limit]
  omega

end LiveRules.Instant
