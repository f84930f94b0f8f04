/-!
# Settings of collect stores

How many writes a queue holds, and how often and how long a write that finds it
full is tried again.
-/
namespace LiveRules.Collect

structure RetryPolicy where
  attempts : Nat
  /-- How long one attempt waits, in milliseconds. -/
  backoff : Nat
  deriving DecidableEq, Repr

structure Config where
  queueCapacity : Nat := 1000
  addRetry : RetryPolicy := ⟨3, 10⟩
  deleteRetry : RetryPolicy := ⟨5, 50⟩
  deriving DecidableEq, Repr

end LiveRules.Collect
