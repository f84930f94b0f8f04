import LiveRules.Intel.Gate
import LiveRules.Proofs.Clock
import Mathlib.Tactic.Tauto

/-!
# Verdicts that the clock cannot see expire

To cache a verdict, a gate needs the reading at which it expires. All that a reply is cached
for expires at one time, so either the clock reads that time and the gate decides as it
should, or it does not and the first verdict of a reply ends the program. A check that has
nothing to cache never asks for that reading.
-/
namespace LiveRules.Intel
/-- The verdicts of a reply. -/
def LookupReply.results : LookupReply → List (String × Bool)
  | .verdicts results => results
  | .unknown | .failed _ => []

/-- The verdicts that there are to cache when a batch has been looked up, if one was. -/
def gained (lookup : List String → LookupReply) (batch : Option (List String)) :
    List (String × Bool) :=
  (batch.map fun batch => (lookup batch).results).getD []

namespace VerdictCache

/-- A verdict is cached if the clock reads the time when it expires. -/
theorem insert?_eq (c : VerdictCache) (start : Instant) (now : Nat) (key : String)
    (malicious : Bool) : c.insert? start now key malicious =
      (start.later? (now + c.ttl)).map fun _ => c.insert now key malicious := by
  rw [← Instant.later?_add]
  unfold insert?
  cases start.later? now with
  | none => rfl
  | some reading => cases later : reading.later? c.ttl <;> simp [later]

/-- The first verdict of a reply decides for all of them. -/
theorem foldlM_insert? (c : VerdictCache) (start : Instant) (now : Nat)
    (results : List (String × Bool)) :
    (results.foldlM (fun c r => c.insert? start now (normalize r.1) r.2) c) =
      if results = [] then some c else (start.later? (now + c.ttl)).map fun _ =>
        results.foldl (fun c r => c.insert now (normalize r.1) r.2) c := by
  induction results generalizing c with
  | nil => rfl
  | cons r rest ih =>
      rw [List.foldlM_cons, insert?_eq, if_neg (List.cons_ne_nil r rest)]
      cases later : start.later? (now + c.ttl) with
      | none => rfl
      | some expiry =>
          have same : (c.insert now (normalize r.1) r.2).ttl = c.ttl := rfl
          simp only [Option.map_some, Option.bind_eq_bind, Option.bind_some]
          rw [ih, same, later]
          split
          · rename_i none
            rw [none]
            rfl
          · rfl

theorem ttl_get (c : VerdictCache) (now : Nat) (key : String) : (c.get now key).2.ttl = c.ttl := by
  unfold get
  split
  · rfl
  · split <;> rfl

theorem ttl_purgeIfDue (c : VerdictCache) (now : Nat) : (c.purgeIfDue now).ttl = c.ttl := by
  unfold purgeIfDue
  split <;> rfl

end VerdictCache

namespace Gate
variable {g g' : Gate}

/-- What a gate is known by, and how long it keeps verdicts. -/
def lifetime (g : Gate) : String × Nat := (g.tag, g.cache.ttl)

theorem lifetime_screen (g : Gate) (now : Nat) (batch indicators : List String) :
    (g.screen now batch indicators).2.lifetime = g.lifetime := by
  induction indicators generalizing g batch with
  | nil => rfl
  | cons indicator rest ih =>
      have kept : ({ g with cache := (g.cache.get now (normalize indicator)).2 } : Gate).lifetime =
          g.lifetime := by
        rw [lifetime, lifetime, VerdictCache.ttl_get]
      unfold screen
      dsimp only
      split
      · exact ih g batch
      · split
        · exact kept
        · rw [ih, kept]
        · rw [ih, kept]

theorem lifetime_learn (g : Gate) (now : Nat) (results : List (String × Bool)) :
    (g.learn now results).lifetime = g.lifetime := by
  unfold learn lifetime
  generalize g.cache = c
  induction results generalizing c with
  | nil => rfl
  | cons r rest ih => rw [List.foldl_cons, ih]; rfl

theorem lifetime_conclude (g : Gate) (now : Nat) (batch : List String) (reply : LookupReply) :
    (g.conclude now batch reply).2.2.lifetime = g.lifetime := by
  cases reply with
  | unknown => rfl
  | failed reason => rfl
  | verdicts results =>
      unfold conclude
      dsimp only
      split <;> exact g.lifetime_learn now results

/-- A gate that is swept keeps its lifetime. -/
theorem lifetime_swept (g : Gate) (now : Nat) :
    ({ g with cache := g.cache.purgeIfDue now } : Gate).lifetime = g.lifetime := by
  rw [lifetime, lifetime, VerdictCache.ttl_purgeIfDue]

theorem lifetime_check (g : Gate) (now : Nat) (lookup : List String → LookupReply)
    (indicators : List String) : (g.check now lookup indicators).2.2.2.lifetime = g.lifetime := by
  have screened := (lifetime_screen { g with cache := g.cache.purgeIfDue now } now []
    indicators).trans (g.lifetime_swept now)
  unfold check
  dsimp only
  split
  · rename_i name g' reached
    rw [← screened, reached]
  · rename_i g' reached
    rw [← screened, reached]
  · rename_i batch g' some reached
    rw [lifetime_conclude, ← screened, reached]

theorem lifetime_reload {files : Files.Tree} (reloaded : g.reload files = .ok g') :
    g'.lifetime = g.lifetime := by
  unfold reload at reloaded
  split at reloaded
  · cases reloaded
    rfl
  · split at reloaded
    · cases reloaded
    · split at reloaded <;> cases reloaded
      rfl

/-! ## Checks that end the program -/

theorem learn?_eq (g : Gate) (start : Instant) (now : Nat) (results : List (String × Bool)) :
    g.learn? start now results = if results = [] then some g
      else (start.later? (now + g.cache.ttl)).map fun _ => g.learn now results := by
  unfold learn?
  rw [VerdictCache.foldlM_insert?]
  split
  · rfl
  · cases start.later? (now + g.cache.ttl) <;> rfl

/-- A reply without a verdict leaves the clock alone. -/
theorem conclude?_eq (g : Gate) (start : Instant) (now : Nat) (batch : List String)
    (reply : LookupReply) : g.conclude? start now batch reply =
      if reply.results = [] then some (g.conclude now batch reply)
      else (start.later? (now + g.cache.ttl)).map fun _ => g.conclude now batch reply := by
  cases reply with
  | unknown => rfl
  | failed reason => rfl
  | verdicts results =>
      unfold conclude? LookupReply.results
      dsimp only
      rw [learn?_eq]
      split
      · rfl
      · rw [Option.map_map]
        rfl

/-- A check that has verdicts to cache ends the program if the clock does not read the time
when they expire. No other check does. -/
theorem check?_eq (g : Gate) (start : Instant) (now : Nat)
    (lookup : List String → LookupReply) (indicators : List String) :
    g.check? start now lookup indicators =
      if gained lookup (g.check now lookup indicators).2.1 = [] then
        some (g.check now lookup indicators)
      else (start.later? (now + g.cache.ttl)).map fun _ => g.check now lookup indicators := by
  have kept := (lifetime_screen { g with cache := g.cache.purgeIfDue now } now []
    indicators).trans (g.lifetime_swept now)
  rcases reached : ({ g with cache := g.cache.purgeIfDue now } : Gate).screen now [] indicators
    with ⟨name | batch, g'⟩
  · simp only [check?, gained, check, reached, Option.map_none, Option.getD_none, if_true]
  · cases batch with
    | nil => simp only [check?, gained, check, reached, Option.map_none, Option.getD_none, if_true]
    | cons name rest =>
        have ttl : g'.cache.ttl = g.cache.ttl := by
          rw [reached] at kept
          exact congrArg Prod.snd kept
        simp only [check?, gained, check, reached, Option.map_some, Option.getD_some]
        rw [conclude?_eq, ttl]
        split
        · rfl
        · cases start.later? (now + g.cache.ttl) <;> rfl

/-- With a lifetime of whole seconds only the seconds of the present reading count. -/
theorem check?_seconds {start reading : Instant} {now seconds : Nat}
    (reads : start.later? now = some reading) (ttl : g.cache.ttl = seconds * 1000)
    (lookup : List String → LookupReply) (indicators : List String) :
    g.check? start now lookup indicators =
      if gained lookup (g.check now lookup indicators).2.1 = [] ∨
          reading.seconds.toInt + seconds < 2 ^ 63 then
        some (g.check now lookup indicators)
      else none := by
  have expiry : start.later? (now + g.cache.ttl) = reading.later? (seconds * 1000) := by
    rw [← Instant.later?_add, reads, ttl]
    rfl
  rw [check?_eq, expiry]
  by_cases nothing : gained lookup (g.check now lookup indicators).2.1 = []
  · rw [if_pos nothing, if_pos (.inl nothing)]
  · rw [if_neg nothing]
    by_cases fits : reading.seconds.toInt + seconds < 2 ^ 63
    · obtain ⟨u, reached⟩ := Option.ne_none_iff_exists'.mp
        (mt Instant.later?_seconds_eq_none.mp (Int.not_le.mpr fits))
      rw [reached, if_pos (.inr fits)]
      rfl
    · rw [Instant.later?_seconds_eq_none.mpr (Int.not_lt.mp fits), if_neg (by tauto)]
      rfl

end Gate
end LiveRules.Intel
