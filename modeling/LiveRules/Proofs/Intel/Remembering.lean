import LiveRules.Intel.Cache
import LiveRules.Proofs.Lists

/-!
# What a cache remembers

A verdict is remembered until it expires. Sweeps and questions only take expired ones
away, and of several verdicts that are cached one after another each is found under its
own key.
-/
namespace LiveRules.Intel.VerdictCache
variable {c c' c'' : VerdictCache} {now later : Nat} {key : String}

/-- No key has two entries. -/
def Distinct (c : VerdictCache) : Prop := (c.entries.map Prod.fst).Nodup

/-- The entry of a key unless it has expired. -/
def live (c : VerdictCache) (now : Nat) (key : String) : Option CachedVerdict :=
  (c.entries.lookup key).filter (now < ·.expires)

/-- What is answered for a key. -/
def verdict (c : VerdictCache) (now : Nat) (key : String) : Option Bool :=
  (c.live now key).map (·.malicious)

/-- Caches verdicts one after another. -/
def insertAll (c : VerdictCache) (now : Nat) (pairs : List (String × Bool)) : VerdictCache :=
  pairs.foldl (fun c pair => c.insert now pair.1 pair.2) c

/-- A second cache is the first without some of the entries that have expired. -/
structure Pruned (now : Nat) (c c' : VerdictCache) : Prop where
  ttl : c'.ttl = c.ttl
  fewer : c'.entries.Sublist c.entries
  kept : ∀ e ∈ c.entries, now < e.2.expires → e ∈ c'.entries

/-- A second cache has the verdicts of some pairs besides, from now on for a lifetime. -/
structure Learned (now : Nat) (pairs : List (String × Bool)) (c c' : VerdictCache) : Prop where
  ttl : c'.ttl = c.ttl
  cached : ∀ pair ∈ pairs, c'.entries.lookup pair.1 = some ⟨pair.2, now + c.ttl⟩
  others : ∀ key ∉ pairs.map Prod.fst, c'.live now key = c.live now key

namespace Pruned

theorem refl (now : Nat) (c : VerdictCache) : Pruned now c c :=
  ⟨rfl, .refl _, fun _ listed _ => listed⟩

theorem trans (first : Pruned now c c') (second : Pruned now c' c'') : Pruned now c c'' where
  ttl := second.ttl.trans first.ttl
  fewer := second.fewer.trans first.fewer
  kept e listed fresh := second.kept e (first.kept e listed fresh) fresh

theorem distinct (pruned : Pruned now c c') (distinct : c.Distinct) : c'.Distinct :=
  (pruned.fewer.map Prod.fst).nodup distinct

end Pruned

theorem live_eq_some (distinct : c.Distinct) {v : CachedVerdict} :
    c.live now key = some v ↔ (key, v) ∈ c.entries ∧ now < v.expires := by
  rw [live, Option.filter_eq_some_iff, Lists.lookup_eq_some_iff_mem distinct,
    decide_eq_true_iff]

theorem Pruned.live_eq (pruned : Pruned now c c') (distinct : c.Distinct) :
    c'.live now = c.live now := by
  funext key
  ext v
  rw [live_eq_some distinct, live_eq_some (pruned.distinct distinct)]
  exact ⟨fun ⟨listed, fresh⟩ => ⟨pruned.fewer.subset listed, fresh⟩,
    fun ⟨listed, fresh⟩ => ⟨pruned.kept _ listed fresh, fresh⟩⟩

theorem Pruned.verdict_eq (pruned : Pruned now c c') (distinct : c.Distinct) :
    c'.verdict now = c.verdict now := by
  funext key
  rw [verdict, verdict, pruned.live_eq distinct]

theorem verdict_eq_none : c.verdict now key = none ↔ c.live now key = none := Option.map_eq_none_iff

/-- What has expired stays so. -/
theorem live_eq_none_of_le (gone : c.live now key = none) (le : now ≤ later) :
    c.live later key = none := by
  rw [live, Option.filter_eq_none_iff] at gone ⊢
  intro v found fresh
  refine gone v found (decide_eq_true ?_)
  exact Nat.lt_of_le_of_lt le (of_decide_eq_true fresh)

/-! ## Questions and sweeps -/

theorem get_fst (c : VerdictCache) (now : Nat) (key : String) :
    (c.get now key).1 = c.verdict now key := by
  rw [get, verdict, live]
  cases c.entries.lookup key with
  | none => rfl
  | some v =>
      by_cases expired : v.expires ≤ now
      · simp [Option.filter_some, expired, Nat.not_lt.mpr expired]
      · simp [Option.filter_some, expired, Nat.not_le.mp expired]

theorem get_pruned (distinct : c.Distinct) (now : Nat) (key : String) :
    Pruned now c (c.get now key).2 := by
  rw [get]
  cases found : c.entries.lookup key with
  | none => exact .refl now c
  | some v =>
      by_cases expired : v.expires ≤ now
      · simp only [expired, if_true]
        refine ⟨rfl, List.filter_sublist, fun e listed fresh => ?_⟩
        refine List.mem_filter.mpr ⟨listed, decide_eq_true fun same => ?_⟩
        -- the entry that goes is the only one of its key, and it has expired
        obtain ⟨k, w⟩ := e
        obtain rfl : k = key := same
        have same := (Lists.lookup_eq_some_iff_mem distinct).mpr listed
        obtain rfl := Option.some.inj (found.symm.trans same)
        exact absurd fresh (Nat.not_lt.mpr expired)
      · simp only [expired, if_false]
        exact .refl now c

theorem purge_pruned (c : VerdictCache) (now : Nat) : Pruned now c (c.purge now) :=
  ⟨rfl, List.filter_sublist,
    fun _ listed fresh => List.mem_filter.mpr ⟨listed, decide_eq_true fresh⟩⟩

theorem purgeIfDue_pruned (c : VerdictCache) (now : Nat) : Pruned now c (c.purgeIfDue now) := by
  rw [purgeIfDue]
  split
  · exact .refl now c
  · have swept := purge_pruned { c with lastSweep := now } now
    exact ⟨swept.ttl, swept.fewer, swept.kept⟩

/-! ## Caching -/

theorem distinct_insert (distinct : c.Distinct) (now : Nat) (key : String) (malicious : Bool) :
    (c.insert now key malicious).Distinct := by
  refine List.nodup_cons.mpr ⟨fun listed => ?_, (List.filter_sublist.map Prod.fst).nodup distinct⟩
  obtain ⟨e, kept, same⟩ := List.mem_map.mp listed
  exact of_decide_eq_true (List.mem_filter.mp kept).2 same

theorem lookup_insert_self (c : VerdictCache) (now : Nat) (key : String) (malicious : Bool) :
    (c.insert now key malicious).entries.lookup key = some ⟨malicious, now + c.ttl⟩ :=
  List.lookup_cons_self

theorem lookup_insert_of_ne (c : VerdictCache) (now : Nat) {key other : String}
    (malicious : Bool) (apart : other ≠ key) :
    (c.insert now key malicious).entries.lookup other = c.entries.lookup other := by
  rw [insert, List.lookup_cons, beq_false_of_ne apart]
  exact Lists.lookup_filter_ne c.entries apart

theorem live_insert (c : VerdictCache) (now later : Nat) (key other : String)
    (malicious : Bool) : (c.insert now key malicious).live later other =
      if key = other then (some ⟨malicious, now + c.ttl⟩).filter (later < ·.expires)
      else c.live later other := by
  by_cases same : key = other
  · subst same
    rw [if_pos rfl, live, lookup_insert_self]
  · rw [if_neg same, live, lookup_insert_of_ne c now malicious (Ne.symm same), live]

theorem insertAll_ttl (c : VerdictCache) (now : Nat) (pairs : List (String × Bool)) :
    (c.insertAll now pairs).ttl = c.ttl := by
  induction pairs generalizing c with
  | nil => rfl
  | cons pair pairs ih => exact ih _

theorem distinct_insertAll (distinct : c.Distinct) (now : Nat) (pairs : List (String × Bool)) :
    (c.insertAll now pairs).Distinct := by
  induction pairs generalizing c with
  | nil => exact distinct
  | cons pair pairs ih => exact ih (distinct_insert distinct now pair.1 pair.2)

/-- A later verdict of another key does not touch an earlier one. -/
theorem lookup_insertAll (c : VerdictCache) (now : Nat) {pairs : List (String × Bool)}
    (different : (pairs.map Prod.fst).Nodup) (key : String) :
    (c.insertAll now pairs).entries.lookup key
      = ((pairs.lookup key).map fun malicious => ⟨malicious, now + c.ttl⟩).or
          (c.entries.lookup key) := by
  induction pairs generalizing c with
  | nil => rfl
  | cons pair pairs ih =>
      obtain ⟨k, malicious⟩ := pair
      obtain ⟨unbound, different⟩ := List.nodup_cons.mp different
      rw [insertAll, List.foldl_cons, ← insertAll, ih _ different, List.lookup_cons]
      by_cases here : key = k
      · subst here
        rw [Lists.lookup_eq_none_of_not_mem unbound, lookup_insert_self, beq_self_eq_true]
        rfl
      · rw [lookup_insert_of_ne c now malicious here, beq_false_of_ne here]
        rfl

theorem learned_insertAll (pruned : Pruned now c c') (distinct : c.Distinct)
    {pairs : List (String × Bool)} (different : (pairs.map Prod.fst).Nodup) :
    Learned now pairs c (c'.insertAll now pairs) where
  ttl := (insertAll_ttl c' now pairs).trans pruned.ttl
  cached pair listed := by
    rw [lookup_insertAll c' now different,
      (Lists.lookup_eq_some_iff_mem different).mpr listed, pruned.ttl]
    rfl
  others key unlisted := by
    rw [← pruned.live_eq distinct, live, live, lookup_insertAll c' now different,
      Lists.lookup_eq_none_of_not_mem unlisted]
    rfl

end LiveRules.Intel.VerdictCache
