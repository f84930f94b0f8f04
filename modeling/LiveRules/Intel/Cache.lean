import LiveRules.Clock

/-!
# Cached verdicts

Verdicts are kept for a fixed time. An expired one is never answered; it goes
away when it is asked for or in a sweep, and sweeps that are only run when due
are a whole lifetime apart. Times are in milliseconds and are given by the
caller.
-/
namespace LiveRules.Intel

structure CachedVerdict where
  malicious : Bool
  /-- The first time at which it is no longer answered. -/
  expires : Nat
  deriving DecidableEq, Repr

structure VerdictCache where
  /-- How long a verdict lives. -/
  ttl : Nat
  /-- Different keys, newest first. -/
  entries : List (String × CachedVerdict) := []
  lastSweep : Nat := 0
  deriving DecidableEq, Repr

namespace VerdictCache

def size (c : VerdictCache) : Nat := c.entries.length

def remove (c : VerdictCache) (key : String) : VerdictCache :=
  { c with entries := c.entries.filter (·.1 ≠ key) }

def insert (c : VerdictCache) (now : Nat) (key : String) (malicious : Bool) : VerdictCache :=
  { c with entries := (key, ⟨malicious, now + c.ttl⟩) :: (c.remove key).entries }

/-- Caches a verdict if there is a reading of the clock at which it expires. The
clock reads `start` at time 0. -/
def insert? (c : VerdictCache) (start : Instant) (now : Nat) (key : String)
    (malicious : Bool) : Option VerdictCache := do
  let reading ← start.later? now
  let _ ← reading.later? c.ttl
  return c.insert now key malicious

/-- The verdict for a key; an expired one is removed. -/
def get (c : VerdictCache) (now : Nat) (key : String) : Option Bool × VerdictCache :=
  match c.entries.lookup key with
  | none => (none, c)
  | some v => if v.expires ≤ now then (none, c.remove key) else (some v.malicious, c)

/-- Removes what has expired. -/
def purge (c : VerdictCache) (now : Nat) : VerdictCache :=
  { c with entries := c.entries.filter fun e => now < e.2.expires }

/-- Sweeps unless the last such sweep was less than a lifetime ago. -/
def purgeIfDue (c : VerdictCache) (now : Nat) : VerdictCache :=
  if now < c.lastSweep + c.ttl then c else { c with lastSweep := now }.purge now

end VerdictCache
end LiveRules.Intel
