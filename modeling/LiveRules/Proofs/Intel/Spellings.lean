import Mathlib.Data.List.Induction
import LiveRules.Proofs.Intel.Names

/-!
# Spellings of one name in an answer

An answer comes in any order, and a gate takes the names in it to their normal forms. If two
spellings of a name have different verdicts, the one that comes last counts. So the order
is settled to mean nothing for a name exactly if its spellings agree, and for a check if an
earlier name makes it block in any case.
-/
namespace LiveRules.Intel
open VerdictCache

/-- A second reply has the same verdicts in some order. -/
inductive LookupReply.Reorders : LookupReply → LookupReply → Prop
  | verdicts {results order : List (String × Bool)} :
      order.Perm results → Reorders (.verdicts results) (.verdicts order)
  | same (reply : LookupReply) : Reorders reply reply

/-- A second lookup gives the same answers, each in some order. -/
def Reordered (lookup lookup' : List String → LookupReply) : Prop :=
  ∀ batch, (lookup batch).Reorders (lookup' batch)

/-- What depends on the answer to one batch alone is the same in any order if it is for the
orders of that answer. -/
theorem forall_reordered_iff {α : Type} {batch : List String}
    {f : (List String → LookupReply) → α} {F : LookupReply → α}
    (only : ∀ lookup, f lookup = F (lookup batch)) (lookup : List String → LookupReply) :
    (∀ lookup', Reordered lookup lookup' → f lookup' = f lookup) ↔
      ∀ reply, (lookup batch).Reorders reply → F reply = F (lookup batch) := by
  simp only [only]
  constructor
  · intro same reply reorders
    have reordered : Reordered lookup (Function.update lookup batch reply) := by
      intro other
      by_cases here : other = batch
      · rw [here, Function.update_self]
        exact reorders
      · rw [Function.update_of_ne here]
        exact .same _
    have there := same _ reordered
    rwa [Function.update_self] at there
  · exact fun same lookup' reordered => same _ (reordered batch)

namespace Gate
variable {g : Gate} {now later : Nat} {batch : List String} {name : String}
variable {results order : List (String × Bool)}

/-- Some spelling of the name is called malicious and another one is not. -/
def Disputed (results : List (String × Bool)) (name : String) : Prop :=
  (name, true) ∈ pairs results ∧ (name, false) ∈ pairs results

/-- Some spelling of the name is called malicious and none is not. -/
def Convicted (results : List (String × Bool)) (name : String) : Prop :=
  (name, true) ∈ pairs results ∧ (name, false) ∉ pairs results

/-- Before every disputed name of a batch there is one that is convicted. -/
def Foregone (batch : List String) (results : List (String × Bool)) : Prop :=
  ∀ name ∈ batch, Disputed results name →
    ∃ other ∈ batch, Text.bytes other < Text.bytes name ∧ Convicted results other

/-! ## The last verdict on a name -/

theorem verdictOf_append (first last : List (String × Bool)) (name : String) :
    verdictOf (first ++ last) name = (verdictOf last name).or (verdictOf first name) := by
  rw [verdictOf, List.reverse_append, List.find?_append, Option.map_or, verdictOf, verdictOf]

theorem mem_pairs_of_verdictOf {malicious : Bool} (said : verdictOf results name = some malicious) :
    (name, malicious) ∈ pairs results := by
  obtain ⟨r, found, last⟩ := Option.map_eq_some_iff.mp said
  have listed := List.mem_reverse.mp (List.mem_of_find?_eq_some found)
  have same : normalize r.1 = name := by simpa using List.find?_some found
  exact List.mem_map.mpr ⟨r, listed, by rw [same, last]⟩

theorem verdictOf_eq_none :
    verdictOf results name = none ↔ ∀ malicious, (name, malicious) ∉ pairs results := by
  rw [verdictOf, Option.map_eq_none_iff, List.find?_eq_none]
  constructor
  · intro none malicious listed
    obtain ⟨r, member, same⟩ := List.mem_map.mp listed
    exact none r (List.mem_reverse.mpr member) (decide_eq_true (congrArg Prod.fst same))
  · intro none r member same
    refine none r.2 (List.mem_map.mpr ⟨r, List.mem_reverse.mp member, ?_⟩)
    rw [of_decide_eq_true same]

/-- Spellings that agree have the last word, in whatever order they come. -/
theorem verdictOf_of_agreed {malicious : Bool} (listed : (name, malicious) ∈ pairs results)
    (agreed : (name, !malicious) ∉ pairs results) : verdictOf results name = some malicious := by
  cases said : verdictOf results name with
  | none => exact absurd listed (verdictOf_eq_none.mp said malicious)
  | some other =>
      have listed' := mem_pairs_of_verdictOf said
      by_contra apart
      have opposite : other = !malicious := by
        revert apart
        cases other <;> cases malicious <;> simp
      exact agreed (opposite ▸ listed')

theorem mem_pairs_perm (perm : order.Perm results) {pair : String × Bool} :
    pair ∈ pairs order ↔ pair ∈ pairs results := (perm.map _).mem_iff

/-- The answer with all spellings that have one of the verdicts at the end. -/
def puttingLast (malicious : Bool) (results : List (String × Bool)) : List (String × Bool) :=
  results.filter (·.2 = !malicious) ++ results.filter (·.2 = malicious)

theorem puttingLast_perm (malicious : Bool) (results : List (String × Bool)) :
    (puttingLast malicious results).Perm results := by
  have rest : results.filter (·.2 = !malicious) =
      results.filter fun r => !(decide (r.2 = malicious)) :=
    List.filter_congr fun r _ => by cases r.2 <;> cases malicious <;> rfl
  rw [puttingLast, rest]
  exact List.perm_append_comm.trans (List.filter_append_perm _ results)

theorem verdictOf_puttingLast {malicious : Bool} (listed : (name, malicious) ∈ pairs results) :
    verdictOf (puttingLast malicious results) name = some malicious := by
  have here : verdictOf (results.filter (·.2 = malicious)) name = some malicious := by
    obtain ⟨r, member, same⟩ := List.mem_map.mp listed
    refine verdictOf_of_agreed (List.mem_map.mpr ⟨r, ?_, same⟩) fun listed => ?_
    · exact List.mem_filter.mpr ⟨member, decide_eq_true (congrArg Prod.snd same)⟩
    · obtain ⟨r, kept, same⟩ := List.mem_map.mp listed
      have agrees : r.2 = malicious := of_decide_eq_true (List.mem_filter.mp kept).2
      have opposite : r.2 = !malicious := congrArg Prod.snd same
      rw [agrees] at opposite
      cases malicious <;> cases opposite
  rw [puttingLast, verdictOf_append, here]
  rfl

theorem verdictOf_congr_iff : (∀ order, order.Perm results →
    verdictOf order name = verdictOf results name) ↔ ¬ Disputed results name := by
  constructor
  · intro same ⟨malicious, harmless⟩
    have last := verdictOf_puttingLast malicious
    rw [same _ (puttingLast_perm true results),
      ← same _ (puttingLast_perm false results), verdictOf_puttingLast harmless] at last
    cases last
  · intro agreed order perm
    cases said : verdictOf results name with
    | none =>
        refine verdictOf_eq_none.mpr fun malicious listed => ?_
        exact verdictOf_eq_none.mp said malicious ((mem_pairs_perm perm).mp listed)
    | some malicious =>
        have listed := mem_pairs_of_verdictOf said
        refine verdictOf_of_agreed ((mem_pairs_perm perm).mpr listed) fun other => agreed ?_
        have other := (mem_pairs_perm perm).mp other
        cases malicious with
        | true => exact ⟨listed, other⟩
        | false => exact ⟨other, listed⟩

/-! ## The verdict of a check -/

/-- How a check ends that has asked for a batch. -/
def sentence : Option String → Verdict
  | some name => .block name
  | none => .pass

theorem sentence_inj {first second : Option String} (same : sentence first = sentence second) :
    first = second := by
  cases first with
  | none => cases second with
    | none => rfl
    | some name => cases same
  | some name => cases second with
    | none => cases same
    | some other => rw [Verdict.block.inj same]

theorem conclude_sentence (g : Gate) (now : Nat) (batch : List String)
    (results : List (String × Bool)) :
    (g.conclude now batch (.verdicts results)).1 = sentence (condemned? batch results) := by
  rw [(conclude_answered g now batch results).1]
  cases condemned? batch results <;> rfl

theorem Foregone.perm (foregone : Foregone batch results) (perm : order.Perm results) :
    Foregone batch order := by
  simp only [Foregone, Disputed, Convicted, mem_pairs_perm perm]
  exact foregone

/-- A name with a spelling that is called malicious has one that is convicted at the same
place or before it. -/
theorem Foregone.exists_convicted (foregone : Foregone batch results) (asked : name ∈ batch)
    (malicious : (name, true) ∈ pairs results) :
    ∃ other ∈ batch, (other = name ∨ Text.bytes other < Text.bytes name) ∧
      Convicted results other := by
  by_cases harmless : (name, false) ∈ pairs results
  · obtain ⟨other, asked', before, convicted⟩ := foregone name asked ⟨malicious, harmless⟩
    exact ⟨other, asked', .inr before, convicted⟩
  · exact ⟨name, asked, .inl rfl, malicious, harmless⟩

/-- The first name that is condemned in one order is convicted, so it is in any other. -/
theorem condemned?_of_foregone (sorted : batch.Pairwise (· < ·))
    (foregone : Foregone batch results) (perm : order.Perm results)
    (condemned : condemned? batch results = some name) : condemned? batch order = some name := by
  rw [condemned?, find?_eq_some_iff_least sorted] at condemned ⊢
  simp only [decide_eq_true_iff] at condemned ⊢
  obtain ⟨asked, said, least⟩ := condemned
  have upTo {other : String} (asked : other ∈ batch) (malicious : (other, true) ∈ pairs results) :
      name ≤ other := by
    obtain ⟨first, asked', place, convicted⟩ := foregone.exists_convicted asked malicious
    have le := least first asked' (verdictOf_of_agreed convicted.1 convicted.2)
    rcases place with rfl | before
    · exact le
    · exact le.trans (Text.bytes_lt_iff.mp before).le
  refine ⟨asked, ?_, fun other asked' said' => ?_⟩
  · obtain ⟨first, asked', place, convicted⟩ :=
      foregone.exists_convicted asked (mem_pairs_of_verdictOf said)
    have le := least first asked' (verdictOf_of_agreed convicted.1 convicted.2)
    rcases place with rfl | before
    · exact verdictOf_of_agreed ((mem_pairs_perm perm).mpr convicted.1) fun harmless =>
        convicted.2 ((mem_pairs_perm perm).mp harmless)
    · exact absurd le (not_le.mpr (Text.bytes_lt_iff.mp before))
  · exact upTo asked' ((mem_pairs_perm perm).mp (mem_pairs_of_verdictOf said'))

theorem condemned?_congr_iff (sorted : batch.Pairwise (· < ·)) :
    (∀ order, order.Perm results → condemned? batch order = condemned? batch results) ↔
      Foregone batch results := by
  constructor
  · intro same name asked disputed
    by_contra late
    -- with the malicious verdicts last, some name up to the disputed one is condemned
    have said := verdictOf_puttingLast disputed.1
    have found : (condemned? batch (puttingLast true results)).isSome :=
      List.find?_isSome.mpr ⟨name, asked, decide_eq_true said⟩
    obtain ⟨first, condemned⟩ := Option.isSome_iff_exists.mp found
    have least := condemned
    rw [condemned?, find?_eq_some_iff_least sorted] at least
    simp only [decide_eq_true_iff] at least
    obtain ⟨asked', said', least⟩ := least
    have malicious := (mem_pairs_perm (puttingLast_perm true results)).mp
      (mem_pairs_of_verdictOf said')
    -- it is no convicted one, so with the harmless verdicts last it is not condemned
    have harmless : (first, false) ∈ pairs results := by
      by_contra convicted
      rcases eq_or_lt_of_le (least name asked said) with same | before
      · exact convicted (same ▸ disputed.2)
      · exact late ⟨first, asked', Text.bytes_lt_iff.mpr before, malicious, convicted⟩
    rw [same _ (puttingLast_perm true results),
      ← same _ (puttingLast_perm false results)] at condemned
    have last := List.find?_some condemned
    rw [verdictOf_puttingLast harmless] at last
    cases of_decide_eq_true last
  · intro foregone order perm
    ext name
    exact ⟨condemned?_of_foregone sorted (foregone.perm perm) perm.symm,
      condemned?_of_foregone sorted foregone perm⟩

/-! ## What a check caches -/

theorem verdictOf_concat (results : List (String × Bool)) (r : String × Bool) (name : String) :
    verdictOf (results ++ [r]) name =
      if normalize r.1 = name then some r.2 else verdictOf results name := by
  rw [verdictOf_append]
  by_cases here : normalize r.1 = name <;> simp [verdictOf, here]

theorem learn_concat (g : Gate) (now : Nat) (results : List (String × Bool)) (r : String × Bool) :
    (g.learn now (results ++ [r])).cache =
      (g.learn now results).cache.insert now (normalize r.1) r.2 := by
  rw [learn, List.foldl_append]
  rfl

/-- A name is known by the last verdict on it, for a lifetime, or else as before. -/
theorem verdict_learn (g : Gate) (now later : Nat) (results : List (String × Bool))
    (name : String) : (g.learn now results).cache.verdict later name =
      match verdictOf results name with
      | some malicious => if later < now + g.cache.ttl then some malicious else none
      | none => g.cache.verdict later name := by
  induction results using List.reverseRecOn with
  | nil => rfl
  | append_singleton results r ih =>
      have ttl : (g.learn now results).cache.ttl = g.cache.ttl := by
        rw [learn_eq]
        exact insertAll_ttl g.cache now (pairs results)
      rw [learn_concat, verdictOf_concat, verdict, live_insert, ttl]
      by_cases here : normalize r.1 = name
      · rw [if_pos here, if_pos here, Option.filter_some]
        by_cases fresh : later < now + g.cache.ttl <;> simp [fresh]
      · rw [if_neg here, if_neg here, ← verdict, ih]

/-- The order is settled to mean nothing for what is cached of a name if its spellings agree,
or if it is not known any more. -/
theorem verdict_learn_congr_iff : (∀ order, order.Perm results →
    (g.learn now order).cache.verdict later name =
      (g.learn now results).cache.verdict later name) ↔
    (Disputed results name → now + g.cache.ttl ≤ later) := by
  simp only [verdict_learn]
  constructor
  · intro same ⟨malicious, harmless⟩
    by_contra fresh
    have last := same _ (puttingLast_perm true results)
    rw [← same _ (puttingLast_perm false results), verdictOf_puttingLast malicious,
      verdictOf_puttingLast harmless] at last
    simp [Nat.not_le.mp fresh] at last
  · intro agreed order perm
    by_cases disputed : Disputed results name
    · have gone := Nat.not_lt.mpr (agreed disputed)
      have known {order : List (String × Bool)} (perm : order.Perm results) :
          ∃ malicious, verdictOf order name = some malicious := by
        refine Option.ne_none_iff_exists'.mp fun none => ?_
        exact verdictOf_eq_none.mp none true ((mem_pairs_perm perm).mpr disputed.1)
      obtain ⟨first, said⟩ := known perm
      obtain ⟨second, said'⟩ := known (.refl results)
      simp only [said, said', gone, if_false]
    · rw [verdictOf_congr_iff.mpr disputed order perm]

/-! ## Checks -/

/-- Whatever a check asks for, the verdict and what it caches depend on the answer alone. -/
theorem check_of_sent (distinct : g.cache.Distinct) {lookup : List String → LookupReply}
    {indicators : List String} (sent : (g.check now lookup indicators).2.1 = some batch) :
    ∃ cache, Pruned now g.cache cache ∧ batch.Pairwise (· < ·) ∧ ∀ lookup',
      (g.check now lookup' indicators).1 =
        (conclude { g with cache } now batch (lookup' batch)).1 ∧
      (g.check now lookup' indicators).2.2.2 =
        (conclude { g with cache } now batch (lookup' batch)).2.2 := by
  obtain ⟨cache, pruned, ⟨name, known, checked⟩ |
    ⟨unknown, batch', asks, ⟨rfl, checked⟩ | ⟨asking, checked⟩⟩⟩ :=
    check_cases distinct now indicators
  · rw [checked] at sent
    cases sent
  · rw [checked] at sent
    cases sent
  · obtain ⟨_, -, here⟩ := checked lookup
    rw [here] at sent
    obtain rfl := Option.some.inj sent
    refine ⟨cache, pruned, asks.sorted.imp Text.bytes_lt_iff.mp, fun lookup' => ?_⟩
    obtain ⟨_, rfl, there⟩ := checked lookup'
    rw [there]
    exact ⟨rfl, rfl⟩

/-- What a check that has asked for a batch shows of the answer is the same in any order if
it is for the orders of the verdicts in it. -/
theorem forall_answers_iff {α : Type} {f : (List String → LookupReply) → α}
    {F : LookupReply → α} (only : ∀ lookup, f lookup = F (lookup batch))
    (lookup : List String → LookupReply) :
    (∀ lookup', Reordered lookup lookup' → f lookup' = f lookup) ↔
      ∀ results, lookup batch = .verdicts results → ∀ order, order.Perm results →
        F (.verdicts order) = F (.verdicts results) := by
  rw [forall_reordered_iff only]
  constructor
  · intro same results answered order perm
    rw [answered] at same
    exact same _ (.verdicts perm)
  · intro same reply reorders
    generalize lookup batch = answer at same reorders
    cases reorders with
    | same => rfl
    | verdicts perm => exact same _ rfl _ perm

/-- The verdict of a check does not depend on the order in which the answer lists its
verdicts, exactly if every disputed name that it has asked for comes after a convicted one.
And it leaves the same cached verdict for a name in any order exactly while that is not
disputed. -/
theorem same_in_any_order_iff (distinct : g.cache.Distinct) (now : Nat)
    (lookup : List String → LookupReply) (indicators : List String) :
    ((∀ lookup', Reordered lookup lookup' →
        (g.check now lookup' indicators).1 = (g.check now lookup indicators).1) ↔
      ∀ batch, (g.check now lookup indicators).2.1 = some batch →
        ∀ results, lookup batch = .verdicts results → Foregone batch results) ∧
    ∀ later name, ((∀ lookup', Reordered lookup lookup' →
        (g.check now lookup' indicators).2.2.2.cache.verdict later name =
          (g.check now lookup indicators).2.2.2.cache.verdict later name) ↔
      ∀ batch, (g.check now lookup indicators).2.1 = some batch →
        ∀ results, lookup batch = .verdicts results → Disputed results name →
          now + g.cache.ttl ≤ later) := by
  cases sent : (g.check now lookup indicators).2.1 with
  | none =>
      have alone (lookup' : List String → LookupReply) :
          g.check now lookup' indicators = g.check now lookup indicators := by
        refine check_eq_of_sent fun batch asked => ?_
        rw [sent] at asked
        cases asked
      refine ⟨iff_of_true (fun lookup' _ => ?_) nofun,
        fun later name => iff_of_true (fun lookup' _ => ?_) nofun⟩ <;> rw [alone]
  | some batch =>
      obtain ⟨cache, pruned, sorted, settled⟩ := check_of_sent distinct sent
      simp only [Option.some.injEq, forall_eq']
      constructor
      · rw [forall_answers_iff (F := fun reply => (conclude { g with cache } now batch reply).1)
          fun lookup => (settled lookup).1]
        refine forall₂_congr fun results _ => ?_
        rw [← condemned?_congr_iff sorted]
        refine forall₂_congr fun order _ => ?_
        rw [conclude_sentence, conclude_sentence]
        exact ⟨sentence_inj, congrArg sentence⟩
      · intro later name
        rw [forall_answers_iff
          (F := fun reply =>
            (conclude { g with cache } now batch reply).2.2.cache.verdict later name)
          fun lookup => congrArg (·.cache.verdict later name) (settled lookup).2]
        refine forall₂_congr fun results _ => ?_
        simp only [(conclude_answered _ now batch _).2]
        rw [verdict_learn_congr_iff, pruned.ttl]

/-- A lookup that calls one spelling of a name malicious and another one harmless. -/
def twoSpellings (_ : List String) : LookupReply :=
  .verdicts [("Bad.test", true), ("bad.test.", false)]

/-- The harmless spelling comes last, so the name passes, and is known as harmless. In the
other order it is blocked. -/
theorem same_in_any_order_disputed : fresh.cache.Distinct ∧
    (fresh.check 0 twoSpellings ["bad.test"]).1 = .pass ∧
    ¬ (∀ lookup', Reordered twoSpellings lookup' →
      (fresh.check 0 lookup' ["bad.test"]).1 = (fresh.check 0 twoSpellings ["bad.test"]).1) ∧
    ¬ ∀ lookup', Reordered twoSpellings lookup' →
      (fresh.check 0 lookup' ["bad.test"]).2.2.2.cache.verdict 1 "bad.test" =
        (fresh.check 0 twoSpellings ["bad.test"]).2.2.2.cache.verdict 1 "bad.test" := by
  have distinct : fresh.cache.Distinct := .nil
  have sent : (fresh.check 0 twoSpellings ["bad.test"]).2.1 = some ["bad.test"] := by
    decide +kernel
  have disputed : Disputed [("Bad.test", true), ("bad.test.", false)] "bad.test" := by
    unfold Disputed
    decide +kernel
  obtain ⟨verdict, cached⟩ := same_in_any_order_iff distinct 0 twoSpellings ["bad.test"]
  refine ⟨distinct, by decide +kernel, fun same => ?_, fun same => ?_⟩
  · obtain ⟨other, asked, before, -⟩ :=
      verdict.mp same _ sent _ rfl "bad.test" List.mem_cons_self disputed
    obtain rfl := List.mem_singleton.mp asked
    exact List.lt_irrefl _ before
  · exact absurd ((cached 1 "bad.test").mp same _ sent _ rfl disputed) (by decide)

end Gate
end LiveRules.Intel
