import Mathlib.Data.List.Sort
import LiveRules.Intel.Gate
import LiveRules.Proofs.Intel.Remembering
import LiveRules.Proofs.Text.Bytes

/-!
# What a gate decides

A check is decided by the first exposed indicator that is known to be malicious. If there
is none, it is decided by what the lookup says about those of which nothing is known: they
are asked for once, in the order of their bytes, and the answers are cached.
-/
namespace LiveRules.Intel
open VerdictCache

def Verdict.isBlock : Verdict → Bool
  | .block _ => true
  | .pass => false

namespace Gate
variable {g : Gate} {now : Nat} {names batch : List String} {name : String}

/-- The normal forms of indicators that are neither empty nor whitelisted. -/
def exposed (g : Gate) (indicators : List String) : List String :=
  (indicators.map normalize).filter fun name => !(name.isEmpty || g.whitelist.contains name)

/-- The first exposed name that is known to be malicious. -/
def known? (g : Gate) (now : Nat) (indicators : List String) : Option String :=
  (g.exposed indicators).find? fun name => g.cache.verdict now name = some true

/-- What there is to ask about indicators: in the order of bytes and without repetitions
the exposed names of which nothing is known. -/
structure Asks (g : Gate) (now : Nat) (indicators batch : List String) : Prop where
  sorted : batch.Pairwise fun s t => Text.bytes s < Text.bytes t
  names : ∀ name, name ∈ batch ↔ name ∈ g.exposed indicators ∧ g.cache.live now name = none

/-- Of the names that an answer calls malicious, the first in the order of bytes. -/
structure Least (batch : List String) (pairs : List (String × Bool)) (name : String) : Prop where
  asked : name ∈ batch
  malicious : (name, true) ∈ pairs
  first : ∀ other ∈ batch, (other, true) ∈ pairs → Text.bytes name ≤ Text.bytes other

/-- An answer under normal forms. -/
def pairs (results : List (String × Bool)) : List (String × Bool) :=
  results.map fun r => (normalize r.1, r.2)

/-- How a check turns out: the verdict, what was asked, and the cache afterwards. -/
inductive Decides (g : Gate) (now : Nat) (lookup : List String → LookupReply)
    (indicators : List String) : Verdict → Option (List String) → VerdictCache → Prop
  | known (name : String) (cache : VerdictCache)
      (known : g.known? now indicators = some name) (pruned : Pruned now g.cache cache) :
      Decides g now lookup indicators (.block name) none cache
  | quiet (cache : VerdictCache) (unknown : g.known? now indicators = none)
      (asks : g.Asks now indicators []) (pruned : Pruned now g.cache cache) :
      Decides g now lookup indicators .pass none cache
  | unanswered (batch : List String) (cache : VerdictCache)
      (unknown : g.known? now indicators = none) (asks : g.Asks now indicators batch)
      (asking : batch ≠ []) (reply : ∀ results, lookup batch ≠ .verdicts results)
      (pruned : Pruned now g.cache cache) :
      Decides g now lookup indicators .pass (some batch) cache
  | condemned (batch : List String) (results : List (String × Bool)) (name : String)
      (cache : VerdictCache) (unknown : g.known? now indicators = none)
      (asks : g.Asks now indicators batch) (asking : batch ≠ [])
      (reply : lookup batch = .verdicts results)
      (learned : Learned now (pairs results) g.cache cache)
      (least : Least batch (pairs results) name) :
      Decides g now lookup indicators (.block name) (some batch) cache
  | cleared (batch : List String) (results : List (String × Bool)) (cache : VerdictCache)
      (unknown : g.known? now indicators = none) (asks : g.Asks now indicators batch)
      (asking : batch ≠ []) (reply : lookup batch = .verdicts results)
      (learned : Learned now (pairs results) g.cache cache)
      (harmless : ∀ name ∈ batch, (name, true) ∉ pairs results) :
      Decides g now lookup indicators .pass (some batch) cache

/-! ## Sorted lists of names -/

theorem mem_insertSorted {s t : String} : t ∈ insertSorted s names ↔ t = s ∨ t ∈ names := by
  induction names with
  | nil => simp [insertSorted]
  | cons head tail ih =>
      rw [insertSorted]
      split
      · rename_i same
        simp [same]
      · split
        · exact List.mem_cons
        · rw [List.mem_cons, ih, List.mem_cons]
          exact or_left_comm

theorem sorted_insertSorted (s : String) (sorted : names.Pairwise (· < ·)) :
    (insertSorted s names).Pairwise (· < ·) := by
  induction names with
  | nil => exact List.pairwise_singleton _ _
  | cons head tail ih =>
      obtain ⟨above, rest⟩ := List.pairwise_cons.mp sorted
      rw [insertSorted]
      split
      · exact sorted
      · rename_i apart
        split
        · rename_i before
          refine List.pairwise_cons.mpr ⟨fun t listed => ?_, sorted⟩
          rcases List.mem_cons.mp listed with rfl | listed
          · exact before
          · exact before.trans (above t listed)
        · rename_i after
          refine List.pairwise_cons.mpr ⟨fun t listed => ?_, ih rest⟩
          rcases mem_insertSorted.mp listed with rfl | listed
          · exact lt_of_le_of_ne (not_lt.mp after) (Ne.symm apart)
          · exact above t listed

/-- Names put in one after another. -/
def insertEach (names batch : List String) : List String :=
  names.foldl (fun batch name => insertSorted name batch) batch

theorem mem_insertEach : name ∈ insertEach names batch ↔ name ∈ names ∨ name ∈ batch := by
  induction names generalizing batch with
  | nil => simp [insertEach]
  | cons head tail ih =>
      rw [insertEach, List.foldl_cons, ← insertEach, ih, mem_insertSorted, List.mem_cons]
      exact or_left_comm.trans or_assoc.symm

theorem sorted_insertEach (names : List String) (sorted : batch.Pairwise (· < ·)) :
    (insertEach names batch).Pairwise (· < ·) := by
  induction names generalizing batch with
  | nil => exact sorted
  | cons head tail ih => exact ih (sorted_insertSorted head sorted)

/-- In a sorted list the first name with a property is the least. -/
theorem find?_eq_some_iff_least {p : String → Bool} (sorted : names.Pairwise (· < ·)) :
    names.find? p = some name ↔
      name ∈ names ∧ p name = true ∧ ∀ other ∈ names, p other = true → name ≤ other := by
  induction names with
  | nil => simp
  | cons head tail ih =>
      obtain ⟨above, rest⟩ := List.pairwise_cons.mp sorted
      by_cases here : p head = true
      · rw [List.find?_cons_of_pos here, Option.some.injEq]
        constructor
        · rintro rfl
          refine ⟨List.mem_cons_self, here, fun other listed _ => ?_⟩
          rcases List.mem_cons.mp listed with rfl | listed
          · exact le_rfl
          · exact (above other listed).le
        · intro ⟨listed, _, least⟩
          rcases List.mem_cons.mp listed with rfl | listed
          · rfl
          · exact absurd (above name listed) (not_lt.mpr (least head List.mem_cons_self here))
      · rw [List.find?_cons_of_neg here, ih rest]
        simp only [List.mem_cons, forall_eq_or_imp, here, Bool.false_eq_true, false_imp_iff,
          true_and]
        refine ⟨fun ⟨listed, right, least⟩ => ⟨.inr listed, right, least⟩,
          fun ⟨listed, right, least⟩ => ⟨?_, right, least⟩⟩
        rcases listed with rfl | listed
        · exact absurd right here
        · exact listed

/-! ## Screening -/

/-- The exposed names of which nothing is known, in the order of the indicators. -/
def unknown (g : Gate) (now : Nat) (indicators : List String) : List String :=
  (g.exposed indicators).filter fun name => (g.cache.verdict now name).isNone

/-- The gate after a question to its cache. -/
def remind (g : Gate) (now : Nat) (name : String) : Gate :=
  { g with cache := (g.cache.get now name).2 }

/-- An indicator that is empty or whitelisted. -/
def skips (g : Gate) (indicator : String) : Bool :=
  (normalize indicator).isEmpty || g.whitelist.contains (normalize indicator)

section Cons
variable {indicator : String} (indicators : List String)

theorem exposed_skipped (skipped : g.skips indicator = true) :
    g.exposed (indicator :: indicators) = g.exposed indicators := by
  rw [exposed, List.map_cons, List.filter_cons_of_neg]
  · rfl
  · rw [← skips, skipped]
    decide

theorem exposed_cons (shown : g.skips indicator = false) :
    g.exposed (indicator :: indicators) = normalize indicator :: g.exposed indicators := by
  rw [exposed, List.map_cons, List.filter_cons_of_pos]
  · rfl
  · rw [← skips, shown]
    decide

theorem screen_skipped (skipped : g.skips indicator = true) :
    g.screen now batch (indicator :: indicators) = g.screen now batch indicators := by
  rw [screen, if_pos (by exact skipped)]

theorem screen_cons (shown : g.skips indicator = false) :
    g.screen now batch (indicator :: indicators) =
      match g.cache.verdict now (normalize indicator) with
      | some true => (.blocked (normalize indicator), g.remind now (normalize indicator))
      | some false => screen (g.remind now (normalize indicator)) now batch indicators
      | none =>
          screen (g.remind now (normalize indicator)) now
            (insertSorted (normalize indicator) batch) indicators := by
  rw [screen, if_neg (by rw [← skips, shown]; decide)]
  simp only [← get_fst]
  rfl

end Cons

theorem known?_pruned {cache : VerdictCache} (pruned : Pruned now g.cache cache)
    (distinct : g.cache.Distinct) (indicators : List String) :
    known? { g with cache } now indicators = g.known? now indicators := by
  rw [known?, known?, pruned.verdict_eq distinct]
  rfl

theorem unknown_pruned {cache : VerdictCache} (pruned : Pruned now g.cache cache)
    (distinct : g.cache.Distinct) (indicators : List String) :
    unknown { g with cache } now indicators = g.unknown now indicators := by
  rw [unknown, unknown, pruned.verdict_eq distinct]
  rfl

theorem screen_spec (distinct : g.cache.Distinct) (now : Nat)
    (batch indicators : List String) :
    ∃ cache, Pruned now g.cache cache ∧
      g.screen now batch indicators =
        (match g.known? now indicators with
          | some name => .blocked name
          | none => .undecided (insertEach (g.unknown now indicators) batch),
          { g with cache }) := by
  induction indicators generalizing g batch with
  | nil => exact ⟨g.cache, .refl now g.cache, rfl⟩
  | cons indicator indicators ih =>
      cases skipped : g.skips indicator with
      | true =>
          rw [screen_skipped indicators skipped, known?, unknown,
            exposed_skipped indicators skipped]
          exact ih distinct batch
      | false =>
          have pruned := get_pruned distinct now (normalize indicator)
          have sameKnown : (g.remind now (normalize indicator)).known? now indicators
              = g.known? now indicators := known?_pruned pruned distinct indicators
          have sameUnknown : (g.remind now (normalize indicator)).unknown now indicators
              = g.unknown now indicators := unknown_pruned pruned distinct indicators
          have after := ih (g := g.remind now (normalize indicator)) (pruned.distinct distinct)
          simp only [sameKnown, sameUnknown] at after
          rw [screen_cons indicators skipped, known?, unknown, exposed_cons indicators skipped]
          cases verdict : g.cache.verdict now (normalize indicator) with
          | none =>
              obtain ⟨cache, further, screened⟩ := after (insertSorted (normalize indicator) batch)
              refine ⟨cache, pruned.trans further, ?_⟩
              rw [List.find?_cons_of_neg (by simp [verdict]),
                List.filter_cons_of_pos (by simp [verdict])]
              exact screened
          | some malicious =>
              rw [List.filter_cons_of_neg (by simp [verdict])]
              cases malicious with
              | true =>
                  rw [List.find?_cons_of_pos (by simp [verdict])]
                  exact ⟨_, pruned, rfl⟩
              | false =>
                  obtain ⟨cache, further, screened⟩ := after batch
                  refine ⟨cache, pruned.trans further, ?_⟩
                  rw [List.find?_cons_of_neg (by simp [verdict])]
                  exact screened

/-! ## Asking -/

theorem asks_unknown (g : Gate) (now : Nat) (indicators : List String) :
    g.Asks now indicators (insertEach (g.unknown now indicators) []) where
  sorted := (sorted_insertEach _ .nil).imp Text.bytes_lt_iff.mpr
  names name := by
    rw [mem_insertEach, or_iff_left List.not_mem_nil, unknown, List.mem_filter,
      Option.isNone_iff_eq_none, verdict_eq_none]

theorem mem_exposed_congr {indicators others : List String}
    (same : ∀ s, s ∈ others ↔ s ∈ indicators) :
    name ∈ g.exposed others ↔ name ∈ g.exposed indicators := by
  simp only [exposed, List.mem_filter, List.mem_map, same]

/-- What there is to ask depends on the indicators as a set. -/
theorem Asks.unique {indicators others batch' : List String}
    (asks : g.Asks now indicators batch) (asks' : g.Asks now others batch')
    (same : ∀ s, s ∈ others ↔ s ∈ indicators) : batch' = batch := by
  refine List.Pairwise.eq_of_mem_iff (asks'.sorted.imp Text.bytes_lt_iff.mp)
    (asks.sorted.imp Text.bytes_lt_iff.mp) fun name => ?_
  rw [asks'.names, asks.names, mem_exposed_congr same]

/-- A check stops at a known name, finds nothing to ask for, or asks, and which of these it
does, is settled before the lookup is called. -/
theorem check_cases (distinct : g.cache.Distinct) (now : Nat) (indicators : List String) :
    ∃ cache, Pruned now g.cache cache ∧
      ((∃ name, g.known? now indicators = some name ∧ ∀ lookup,
        g.check now lookup indicators = (.block name, none, [], { g with cache })) ∨
      g.known? now indicators = none ∧ ∃ batch, g.Asks now indicators batch ∧
        (batch = [] ∧ (∀ lookup,
          g.check now lookup indicators = (.pass, none, [], { g with cache })) ∨
        batch ≠ [] ∧ ∀ lookup, ∃ concluded,
          concluded = conclude { g with cache } now batch (lookup batch) ∧
          g.check now lookup indicators =
            (concluded.1, some batch, concluded.2.1, concluded.2.2))) := by
  have swept := purgeIfDue_pruned g.cache now
  obtain ⟨cache, pruned, screened⟩ := screen_spec
    (g := { g with cache := g.cache.purgeIfDue now }) (swept.distinct distinct) now [] indicators
  rw [known?_pruned swept distinct, unknown_pruned swept distinct] at screened
  refine ⟨cache, swept.trans pruned, ?_⟩
  simp only [check, screened]
  cases known : g.known? now indicators with
  | some name => exact .inl ⟨name, rfl, fun _ => rfl⟩
  | none =>
      refine .inr ⟨rfl, _, asks_unknown g now indicators, ?_⟩
      cases batch : insertEach (g.unknown now indicators) [] with
      | nil => exact .inl ⟨rfl, fun _ => rfl⟩
      | cons name names => exact .inr ⟨List.cons_ne_nil name names, fun _ => ⟨_, rfl, rfl⟩⟩

/-! ## Answers -/

theorem conclude_unanswered (g : Gate) (now : Nat) (batch : List String) {reply : LookupReply}
    (none : ∀ results, reply ≠ .verdicts results) :
    (g.conclude now batch reply).1 = .pass ∧ (g.conclude now batch reply).2.2 = g := by
  cases reply with
  | verdicts results => exact absurd rfl (none results)
  | unknown => exact ⟨rfl, rfl⟩
  | failed reason => exact ⟨rfl, rfl⟩

theorem learn_eq (g : Gate) (now : Nat) (results : List (String × Bool)) :
    g.learn now results = { g with cache := g.cache.insertAll now (pairs results) } := by
  rw [learn, insertAll, pairs, List.foldl_map]

theorem verdictOf_eq_some_true {results : List (String × Bool)}
    (different : ((pairs results).map Prod.fst).Nodup) :
    verdictOf results name = some true ↔ (name, true) ∈ pairs results := by
  rw [verdictOf, Option.map_eq_some_iff]
  constructor
  · intro ⟨r, found, malicious⟩
    have listed := List.mem_reverse.mp (List.mem_of_find?_eq_some found)
    have same : normalize r.1 = name := by simpa using List.find?_some found
    exact List.mem_map.mpr ⟨r, listed, by rw [same, malicious]⟩
  · intro listed
    obtain ⟨r, member, eq⟩ := List.mem_map.mp listed
    have some : (results.reverse.find? fun r => normalize r.1 = name).isSome :=
      List.find?_isSome.mpr
        ⟨r, List.mem_reverse.mpr member, decide_eq_true (congrArg Prod.fst eq)⟩
    obtain ⟨found, there⟩ := Option.isSome_iff_exists.mp some
    have member' := List.mem_reverse.mp (List.mem_of_find?_eq_some there)
    have same : normalize found.1 = name := by simpa using List.find?_some there
    have listed' : (name, found.2) ∈ pairs results :=
      List.mem_map.mpr ⟨found, member', by rw [same]⟩
    -- no name is answered twice
    have one := (Lists.lookup_eq_some_iff_mem different).mpr listed
    have two := (Lists.lookup_eq_some_iff_mem different).mpr listed'
    exact ⟨found, there, (Option.some.inj (one.symm.trans two)).symm⟩

/-- The name that an answer makes a gate block. -/
def condemned? (batch : List String) (results : List (String × Bool)) : Option String :=
  batch.find? fun name => verdictOf results name = some true

theorem conclude_answered (g : Gate) (now : Nat) (batch : List String)
    (results : List (String × Bool)) :
    (g.conclude now batch (.verdicts results)).1 =
        (match condemned? batch results with
        | some name => .block name
        | none => .pass) ∧
      (g.conclude now batch (.verdicts results)).2.2 = g.learn now results := by
  rw [conclude, ← condemned?]
  cases condemned? batch results with
  | none => exact ⟨rfl, rfl⟩
  | some name => exact ⟨rfl, rfl⟩

theorem condemned?_eq_some {results : List (String × Bool)}
    (sorted : batch.Pairwise fun s t => Text.bytes s < Text.bytes t)
    (different : ((pairs results).map Prod.fst).Nodup) :
    condemned? batch results = some name ↔ Least batch (pairs results) name := by
  have order {s t : String} : s ≤ t ↔ Text.bytes s ≤ Text.bytes t := by
    rw [← not_lt, ← Text.bytes_lt_iff, List.not_lt]
  rw [condemned?, find?_eq_some_iff_least (sorted.imp Text.bytes_lt_iff.mp)]
  simp only [decide_eq_true_iff, verdictOf_eq_some_true different, order]
  exact ⟨fun ⟨asked, malicious, first⟩ => ⟨asked, malicious, first⟩,
    fun ⟨asked, malicious, first⟩ => ⟨asked, malicious, first⟩⟩

theorem condemned?_eq_none {results : List (String × Bool)}
    (different : ((pairs results).map Prod.fst).Nodup) :
    condemned? batch results = none ↔ ∀ name ∈ batch, (name, true) ∉ pairs results := by
  rw [condemned?, List.find?_eq_none]
  simp only [decide_eq_true_iff, verdictOf_eq_some_true different]

/-! ## Checks -/

theorem decides_check (distinct : g.cache.Distinct) {lookup : List String → LookupReply}
    {indicators : List String}
    (different : ∀ batch results, (g.check now lookup indicators).2.1 = some batch →
      lookup batch = .verdicts results → ((pairs results).map Prod.fst).Nodup) :
    ∃ cache, cache.Distinct ∧ (g.check now lookup indicators).2.2.2 = { g with cache } ∧
      g.Decides now lookup indicators (g.check now lookup indicators).1
        (g.check now lookup indicators).2.1 cache := by
  obtain ⟨cache, pruned, ⟨name, known, checked⟩ |
    ⟨unknown, batch, asks, ⟨rfl, checked⟩ | ⟨asking, checked⟩⟩⟩ :=
    check_cases distinct now indicators
  · rw [checked]
    exact ⟨cache, pruned.distinct distinct, rfl, .known name cache known pruned⟩
  · rw [checked]
    exact ⟨cache, pruned.distinct distinct, rfl, .quiet cache unknown asks pruned⟩
  · obtain ⟨concluded, rfl, checked⟩ := checked lookup
    rw [checked] at different ⊢
    by_cases answered : ∃ results, lookup batch = .verdicts results
    · obtain ⟨results, reply⟩ := answered
      have different := different batch results rfl reply
      have learned := learned_insertAll pruned distinct different
      obtain ⟨verdict, after⟩ := conclude_answered { g with cache } now batch results
      refine ⟨cache.insertAll now (pairs results),
        distinct_insertAll (pruned.distinct distinct) now _, ?_, ?_⟩
      · rw [reply, after, learn_eq]
      · simp only [reply, verdict]
        cases found : condemned? batch results with
        | some name =>
            exact .condemned batch results name _ unknown asks asking reply learned
              ((condemned?_eq_some asks.sorted different).mp found)
        | none =>
            exact .cleared batch results _ unknown asks asking reply learned
              ((condemned?_eq_none different).mp found)
    · have reply := not_exists.mp answered
      obtain ⟨verdict, after⟩ := conclude_unanswered { g with cache } now batch reply
      refine ⟨cache, pruned.distinct distinct, after, ?_⟩
      simp only [verdict]
      exact .unanswered batch cache unknown asks asking reply pruned

/-- The lookup matters for the batch only that it is called with. -/
theorem check_eq_of_sent {lookup lookup' : List String → LookupReply} {indicators : List String}
    (agree : ∀ batch, (g.check now lookup indicators).2.1 = some batch →
      lookup' batch = lookup batch) :
    g.check now lookup' indicators = g.check now lookup indicators := by
  simp only [check] at agree ⊢
  generalize screen _ now [] indicators = screened at agree ⊢
  obtain ⟨⟨name⟩ | ⟨_ | ⟨name, names⟩⟩, after⟩ := screened
  · rfl
  · rfl
  · simp only [agree (name :: names) rfl]

/-- The verdict on a batch does not depend on the gate. -/
theorem conclude_verdict (g g' : Gate) (now : Nat) (batch : List String) (reply : LookupReply) :
    (g.conclude now batch reply).1 = (g'.conclude now batch reply).1 := by
  cases reply with
  | verdicts results =>
      rw [(conclude_answered g now batch results).1, (conclude_answered g' now batch results).1]
  | unknown => rfl
  | failed reason => rfl

theorem isBlock_check (distinct : g.cache.Distinct) (lookup : List String → LookupReply)
    {indicators : List String} (asks : g.Asks now indicators batch) :
    (g.check now lookup indicators).1.isBlock =
      ((g.known? now indicators).isSome || (g.conclude now batch (lookup batch)).1.isBlock) := by
  obtain ⟨cache, -, ⟨name, known, checked⟩ | ⟨unknown, batch', asks', found⟩⟩ :=
    check_cases distinct now indicators
  · rw [checked, known]
    rfl
  · obtain rfl := asks'.unique asks fun _ => Iff.rfl
    rcases found with ⟨rfl, checked⟩ | ⟨_, checked⟩
    · rw [checked, unknown]
      cases lookup [] <;> rfl
    · obtain ⟨concluded, rfl, checked⟩ := checked lookup
      rw [checked, unknown, conclude_verdict { g with cache } g]
      rfl

/-- Whether a check blocks depends on the indicators as a set. -/
theorem isBlock_congr (distinct : g.cache.Distinct) (lookup : List String → LookupReply)
    {indicators others : List String} (same : ∀ s, s ∈ others ↔ s ∈ indicators) :
    (g.check now lookup others).1.isBlock = (g.check now lookup indicators).1.isBlock := by
  have asks := asks_unknown g now indicators
  have asks' := asks_unknown g now others
  have known : (g.known? now others).isSome = (g.known? now indicators).isSome := by
    rw [Bool.eq_iff_iff, known?, known?, List.find?_isSome, List.find?_isSome]
    simp only [mem_exposed_congr same]
  rw [isBlock_check distinct lookup asks, isBlock_check distinct lookup asks', known,
    asks.unique asks' same]

/-- A check decides as `Decides` says, asks at most once and blocks or passes whatever the
order and the repetitions of the indicators. -/
theorem check_settles (g : Gate) (distinct : g.cache.Distinct) (now : Nat)
    (lookup : List String → LookupReply) (indicators : List String)
    (different : ∀ batch results, (g.check now lookup indicators).2.1 = some batch →
      lookup batch = .verdicts results → ((pairs results).map Prod.fst).Nodup) :
    (∃ cache, cache.Distinct ∧ (g.check now lookup indicators).2.2.2 = { g with cache } ∧
      g.Decides now lookup indicators (g.check now lookup indicators).1
        (g.check now lookup indicators).2.1 cache) ∧
    (∀ lookup', (∀ batch, (g.check now lookup indicators).2.1 = some batch →
        lookup' batch = lookup batch) →
      g.check now lookup' indicators = g.check now lookup indicators) ∧
    ∀ others, (∀ s, s ∈ others ↔ s ∈ indicators) →
      (g.check now lookup others).1.isBlock = (g.check now lookup indicators).1.isBlock :=
  ⟨decides_check distinct different, fun _ agree => check_eq_of_sent agree,
    fun _ same => isBlock_congr distinct lookup same⟩

/-- A gate that knows one harmless name and one of which the verdict has expired. -/
def seasoned : Gate where
  tag := "mail"
  whitelist := { names := ["ours.test"] }
  cache := { ttl := 100, entries := [("fine.test", ⟨false, 90⟩), ("old.test", ⟨true, 5⟩)] }

def arrivals : List String :=
  ["old.test", "Ours.test", "bad.test.", ".", "fine.test", " OLD.TEST"]

def twoBad (_ : List String) : LookupReply := .verdicts [("OLD.test.", true), ("bad.test", true)]

/-- Both names that are asked for are malicious, and the first in order is blocked. -/
theorem check_settles_seasoned : seasoned.cache.Distinct ∧
    ∃ cache, cache.Distinct ∧
      (seasoned.check 10 twoBad arrivals).2.2.2 = { seasoned with cache } ∧
      seasoned.Decides 10 twoBad arrivals (.block "bad.test") (some ["bad.test", "old.test"])
        cache := by
  have distinct : seasoned.cache.Distinct := by unfold Distinct; decide
  have verdict : (seasoned.check 10 twoBad arrivals).1 = .block "bad.test" := by decide +kernel
  have sent : (seasoned.check 10 twoBad arrivals).2.1 = some ["bad.test", "old.test"] := by
    decide +kernel
  have settled := check_settles seasoned distinct 10 twoBad arrivals fun batch results _ reply => by
    obtain rfl := LookupReply.verdicts.inj reply
    decide +kernel
  rw [verdict, sent] at settled
  exact ⟨distinct, settled.1⟩

end Gate
end LiveRules.Intel
