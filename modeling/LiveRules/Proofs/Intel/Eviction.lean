import Mathlib.Data.List.Induction
import LiveRules.Proofs.Intel.Remembering

/-!
# Entries that go away

What a cache answers for a key depends on the last call that cached or removed its
verdict, and on how long ago that was. Questions and sweeps take entries away in between,
but only such as have expired, and as time goes on they stay expired.
-/
namespace LiveRules.Intel.VerdictCache
variable {c c' : VerdictCache} {now later : Nat} {key : String}

inductive Call where
  | insert (key : String) (malicious : Bool)
  | get (key : String)
  | remove (key : String)
  | purge
  | purgeIfDue
  deriving DecidableEq, Repr

/-- The call caches or removes the verdict of a key. -/
def Call.writes (key : String) : Call → Bool
  | insert k _ | remove k => k = key
  | get _ | purge | purgeIfDue => false

/-- The cache after a call. -/
def after (c : VerdictCache) (now : Nat) : Call → VerdictCache
  | .insert key malicious => c.insert now key malicious
  | .get key => (c.get now key).2
  | .remove key => c.remove key
  | .purge => c.purge now
  | .purgeIfDue => c.purgeIfDue now

/-- A cache without entries, as it is made at some time. -/
def create (ttl now : Nat) : VerdictCache := { ttl, lastSweep := now }

/-- The cache after calls, of which each comes with its time. -/
def play (c : VerdictCache) (calls : List (Nat × Call)) : VerdictCache :=
  calls.foldl (fun c call => c.after call.1 call.2) c

/-- The last call that caches or removes the verdict of a key, with its time. -/
def lastWrite (calls : List (Nat × Call)) (key : String) : Option (Nat × Call) :=
  (calls.filter (·.2.writes key)).getLast?

/-- The calls come in the order of their times, and none of them is still to come. -/
structure Ordered (calls : List (Nat × Call)) (now : Nat) : Prop where
  ascending : (calls.map Prod.fst).Pairwise (· ≤ ·)
  past : ∀ call ∈ calls, call.1 ≤ now

variable {call : Call} {calls : List (Nat × Call)}

theorem play_concat (c : VerdictCache) (calls : List (Nat × Call)) (now : Nat) (call : Call) :
    c.play (calls ++ [(now, call)]) = (c.play calls).after now call := by
  rw [play, List.foldl_append, ← play]
  rfl

theorem lastWrite_concat (calls : List (Nat × Call)) (now : Nat) (call : Call) (key : String) :
    lastWrite (calls ++ [(now, call)]) key =
      if call.writes key then some (now, call) else lastWrite calls key := by
  rw [lastWrite, List.filter_append, lastWrite, List.filter_singleton]
  by_cases writes : call.writes key = true <;> simp [writes]

theorem writes_of_lastWrite (last : lastWrite calls key = some (now, call)) :
    call.writes key = true :=
  (List.mem_filter.mp (List.mem_of_getLast? last)).2

theorem Ordered.init (ordered : Ordered (calls ++ [(now, call)]) later) :
    Ordered calls now ∧ now ≤ later := by
  obtain ⟨ascending, past⟩ := ordered
  rw [List.map_append, List.pairwise_append] at ascending
  refine ⟨⟨ascending.1, fun earlier listed => ?_⟩, past (now, call) (by simp)⟩
  exact ascending.2.2 earlier.1 (List.mem_map_of_mem listed) now (by simp)

theorem Ordered.mono (ordered : Ordered calls now) (le : now ≤ later) : Ordered calls later where
  ascending := ordered.ascending
  past call listed := Nat.le_trans (ordered.past call listed) le

/-! ## One call -/

theorem Pruned.mono (pruned : Pruned now c c') (le : now ≤ later) : Pruned later c c' where
  ttl := pruned.ttl
  fewer := pruned.fewer
  kept e listed fresh := pruned.kept e listed (Nat.lt_of_le_of_lt le fresh)

theorem live_remove (c : VerdictCache) (later : Nat) (key other : String) :
    (c.remove key).live later other = if key = other then none else c.live later other := by
  by_cases same : key = other
  · subst same
    have gone : key ∉ (c.remove key).entries.map Prod.fst := fun listed => by
      obtain ⟨e, kept, same⟩ := List.mem_map.mp listed
      exact of_decide_eq_true (List.mem_filter.mp kept).2 same
    rw [if_pos rfl, live, Lists.lookup_eq_none_of_not_mem gone]
    rfl
  · rw [if_neg same, live, remove, Lists.lookup_filter_ne c.entries (Ne.symm same), live]

/-- The entry that a call leaves for the key that it writes. -/
def Call.stored (ttl now : Nat) : Call → Option CachedVerdict
  | insert _ malicious => some ⟨malicious, now + ttl⟩
  | _ => none

/-- From the time of a call on, a key is known by the call if that writes it, and as before
if not. -/
theorem live_after (distinct : c.Distinct) (call : Call) (le : now ≤ later) (key : String) :
    (c.after now call).live later key =
      if call.writes key then (call.stored c.ttl now).filter (later < ·.expires)
      else c.live later key := by
  have kept {c' : VerdictCache} (pruned : Pruned now c c') :
      c'.live later key = c.live later key :=
    congrFun ((pruned.mono le).live_eq distinct) key
  cases call with
  | insert k malicious => simp only [after, live_insert, Call.writes, Call.stored, decide_eq_true_iff]
  | remove k =>
      simp only [after, live_remove, Call.writes, Call.stored, Option.filter_none,
        decide_eq_true_iff]
  | get k => exact kept (get_pruned distinct now k)
  | purge => exact kept (purge_pruned c now)
  | purgeIfDue => exact kept (purgeIfDue_pruned c now)

theorem after_sound (distinct : c.Distinct) (now : Nat) (call : Call) :
    (c.after now call).Distinct ∧ (c.after now call).ttl = c.ttl := by
  have kept {c' : VerdictCache} (pruned : Pruned now c c') : c'.Distinct ∧ c'.ttl = c.ttl :=
    ⟨pruned.distinct distinct, pruned.ttl⟩
  cases call with
  | insert k malicious => exact ⟨distinct_insert distinct now k malicious, rfl⟩
  | remove k => exact ⟨(List.filter_sublist.map Prod.fst).nodup distinct, rfl⟩
  | get k => exact kept (get_pruned distinct now k)
  | purge => exact kept (purge_pruned c now)
  | purgeIfDue => exact kept (purgeIfDue_pruned c now)

/-! ## Many calls -/

theorem play_sound (distinct : c.Distinct) (calls : List (Nat × Call)) :
    (c.play calls).Distinct ∧ (c.play calls).ttl = c.ttl := by
  induction calls using List.reverseRecOn with
  | nil => exact ⟨distinct, rfl⟩
  | append_singleton calls call ih =>
      obtain ⟨distinct', ttl⟩ := after_sound ih.1 call.1 call.2
      rw [play_concat]
      exact ⟨distinct', ttl.trans ih.2⟩

theorem distinct_create (ttl start : Nat) : (create ttl start).Distinct := .nil

/-- What is known of a key is what the last call that wrote it left, until it expires. -/
theorem live_play (ordered : Ordered calls now) (ttl start : Nat) (key : String) :
    ((create ttl start).play calls).live now key =
      ((lastWrite calls key).bind fun last => last.2.stored ttl last.1).filter
        (now < ·.expires) := by
  induction calls using List.reverseRecOn generalizing now with
  | nil => rfl
  | append_singleton calls call ih =>
      obtain ⟨time, call⟩ := call
      obtain ⟨earlier, le⟩ := ordered.init
      obtain ⟨distinct, same⟩ := play_sound (distinct_create ttl start) calls
      rw [play_concat, live_after distinct call le, lastWrite_concat]
      by_cases writes : call.writes key = true
      · rw [if_pos writes, if_pos writes, same]
        rfl
      · rw [if_neg writes, if_neg writes, ih (earlier.mono le)]

/-- A question is answered with a verdict exactly if the last call that wrote the key cached
it less than a lifetime ago. So the answer is the same whatever other calls there were. -/
theorem eviction_unseen (ttl start : Nat) (ordered : Ordered calls now) (key : String) :
    (∀ malicious, (((create ttl start).play calls).get now key).1 = some malicious ↔
      ∃ time, lastWrite calls key = some (time, .insert key malicious) ∧ now < time + ttl) ∧
    ∀ others, Ordered others now →
      others.filter (·.2.writes key) = calls.filter (·.2.writes key) →
      (((create ttl start).play others).get now key).1 =
        (((create ttl start).play calls).get now key).1 := by
  constructor
  · intro malicious
    rw [get_fst, verdict, live_play ordered, Option.map_eq_some_iff]
    constructor
    · intro found
      obtain ⟨v, known, same⟩ := found
      subst same
      obtain ⟨kept, fresh⟩ := Option.filter_eq_some_iff.mp known
      obtain ⟨⟨time, call⟩, last, left⟩ := Option.bind_eq_some_iff.mp kept
      have writes := writes_of_lastWrite last
      cases call with
      | insert k malicious =>
          obtain rfl : k = key := of_decide_eq_true writes
          cases left
          exact ⟨time, last, of_decide_eq_true fresh⟩
      | remove k => cases left
      | get k | purge | purgeIfDue => cases writes
    · intro written
      obtain ⟨time, last, fresh⟩ := written
      refine ⟨⟨malicious, time + ttl⟩, ?_, rfl⟩
      rw [last, Option.bind_some, Call.stored, Option.filter_some, if_pos (decide_eq_true fresh)]
  · intro others ordered' same
    have last : lastWrite others key = lastWrite calls key := congrArg List.getLast? same
    rw [get_fst, get_fst, verdict, verdict, live_play ordered, live_play ordered', last]

/-- Sweeps and a question come between, and one of them takes the first verdict away. -/
def visits : List (Nat × Call) :=
  [(0, .insert "a.test" true), (4, .get "a.test"), (12, .purgeIfDue), (12, .get "a.test"),
    (15, .insert "a.test" false), (15, .insert "b.test" true), (20, .purge), (22, .purgeIfDue)]

/-- The second verdict counts, and it counts for a lifetime of its own. -/
theorem eviction_unseen_renewed :
    Ordered visits 24 ∧ (((create 10 0).play visits).get 24 "a.test").1 = some false := by
  have ordered : Ordered visits 24 := ⟨by decide, by decide⟩
  exact ⟨ordered, ((eviction_unseen 10 0 ordered "a.test").1 false).mpr
    ⟨15, by decide, by decide⟩⟩

end LiveRules.Intel.VerdictCache
