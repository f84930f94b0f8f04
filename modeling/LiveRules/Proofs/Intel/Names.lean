import LiveRules.Proofs.Intel.Deciding
import LiveRules.Proofs.Rules.NormalForms

/-!
# Names that are brought into normal form twice

A gate asks for the normal form of an indicator, but the whitelist and the answers are
compared with the normal form of what they are given, so here it is taken once more. That
changes nothing unless the first one ends in white space. Then a listed name may be asked
for, and what an answer says about it is cached where no check will look.
-/
namespace LiveRules.Intel
open VerdictCache Text

namespace Whitelist
variable {w : Whitelist} {names : List String} {name : String}

theorem mem_normalNames :
    name ∈ normalNames names ↔ name ≠ "" ∧ ∃ d ∈ names, normalize d = name := by
  rw [normalNames, List.mem_eraseDups, List.mem_filter, List.mem_map, and_comm]
  simp

theorem contains_of_name (unnumbered : Net.Address.parse? name = none) :
    w.contains name = w.names.contains (normalize name) := by
  rw [contains, unnumbered]
  rfl

end Whitelist

namespace Gate
variable {g : Gate} {now later : Nat} {s : String}

/-- A lookup that calls every name malicious and answers with the names as it was given
them. -/
def accuse (batch : List String) : LookupReply := .verdicts (batch.map (·, true))

/-- An answer under a name is an answer about it only if the name is its own normal form. -/
theorem condemned?_echo (name : String) : condemned? [name] [(name, true)] =
    if normalize name = name then some name else none := by
  by_cases stable : normalize name = name <;> simp [condemned?, verdictOf, stable]

/-- The verdict on a name that a lookup has called malicious. -/
def accused (name : String) : Verdict := if normalize name = name then .block name else .pass

theorem check_skipped (skipped : g.skips s = true) (now : Nat)
    (lookup : List String → LookupReply) :
    (g.check now lookup [s]).1 = .pass ∧ (g.check now lookup [s]).2.1 = none := by
  have screened := @screen_skipped { g with cache := g.cache.purgeIfDue now } now [] s [] skipped
  rw [check]
  simp only [screened]
  exact ⟨rfl, rfl⟩

section Shown
variable (distinct : g.cache.Distinct) (shown : g.skips s = false)
include shown

theorem known?_single : g.known? now [s] =
    if g.cache.verdict now (normalize s) = some true then some (normalize s) else none := by
  rw [known?, exposed_cons [] shown, List.find?_cons]
  by_cases known : g.cache.verdict now (normalize s) = some true <;> simp [known, exposed]

theorem asks_single (unknown : g.cache.live now (normalize s) = none) :
    g.Asks now [s] [normalize s] where
  sorted := List.pairwise_singleton _ _
  names name := by
    have exposed : name ∈ g.exposed [s] ↔ name = normalize s := by
      rw [exposed_cons [] shown]
      exact List.mem_singleton
    rw [List.mem_singleton, exposed]
    exact ⟨fun same => ⟨same, same ▸ unknown⟩, And.left⟩

include distinct

/-- A name of which nothing is known is asked for. -/
theorem check_unknown (unknown : g.cache.live now (normalize s) = none)
    (lookup : List String → LookupReply) :
    ∃ cache, Pruned now g.cache cache ∧ ∃ concluded,
      concluded = conclude { g with cache } now [normalize s] (lookup [normalize s]) ∧
      g.check now lookup [s] =
        (concluded.1, some [normalize s], concluded.2.1, concluded.2.2) := by
  obtain ⟨cache, pruned, ⟨name, known, -⟩ | ⟨-, batch, asks, found⟩⟩ :=
    check_cases distinct now [s]
  · rw [known?_single shown, verdict_eq_none.mpr unknown] at known
    cases known
  · obtain rfl := asks.unique (asks_single shown unknown) fun _ => Iff.rfl
    rcases found with ⟨empty, -⟩ | ⟨-, checked⟩
    · cases empty
    · exact ⟨cache, pruned, checked lookup⟩

/-- A name that is called malicious is blocked if its normal form is stable. -/
theorem check_accuse (unknown : g.cache.live now (normalize s) = none) :
    (g.check now accuse [s]).1 = accused (normalize s) ∧
    (g.check now accuse [s]).2.1 = some [normalize s] ∧
    ∃ cache, (g.check now accuse [s]).2.2.2 = { g with cache } ∧ cache.Distinct ∧
      Learned now [(normalize (normalize s), true)] g.cache cache := by
  obtain ⟨cache, pruned, concluded, conclusion, checked⟩ :=
    check_unknown distinct shown unknown accuse
  obtain ⟨verdict, after⟩ :=
    conclude_answered { g with cache } now [normalize s] [(normalize s, true)]
  have answer : pairs [(normalize s, true)] = [(normalize (normalize s), true)] := rfl
  rw [learn_eq, answer] at after
  have different : ([(normalize (normalize s), true)].map Prod.fst).Nodup := by simp
  rw [checked, conclusion, accuse, List.map_singleton, verdict, after]
  refine ⟨?_, rfl, _, rfl, distinct_insertAll (pruned.distinct distinct) now _,
    learned_insertAll pruned distinct different⟩
  rw [condemned?_echo, accused]
  by_cases stable : normalize (normalize s) = normalize s
  · rw [if_pos stable, if_pos stable]
  · rw [if_neg stable, if_neg stable]

/-- A name that is known to be malicious is not asked for. -/
theorem check_known (known : g.cache.verdict now (normalize s) = some true)
    (lookup : List String → LookupReply) :
    (g.check now lookup [s]).1 = .block (normalize s) ∧
      (g.check now lookup [s]).2.1 = none := by
  have first : g.known? now [s] = some (normalize s) := by rw [known?_single shown, if_pos known]
  obtain ⟨cache, -, ⟨name, here, checked⟩ | ⟨unknown, -⟩⟩ := check_cases distinct now [s]
  · obtain rfl := Option.some.inj (first.symm.trans here)
    rw [checked]
    exact ⟨rfl, rfl⟩
  · rw [first] at unknown
    cases unknown

/-- Within the lifetime of the verdict the name is checked again. -/
theorem check_accuse_again (unknown : g.cache.live now (normalize s) = none)
    (le : now ≤ later) (within : later < now + g.cache.ttl) :
    ((g.check now accuse [s]).2.2.2.check later accuse [s]).1 = accused (normalize s) ∧
    ((g.check now accuse [s]).2.2.2.check later accuse [s]).2.1 =
      if normalize (normalize s) = normalize s then none else some [normalize s] := by
  obtain ⟨-, -, cache, after, distinct', learned⟩ := check_accuse distinct shown unknown
  rw [after]
  have shown' : skips { g with cache } s = false := shown
  by_cases stable : normalize (normalize s) = normalize s
  · have cached := learned.cached _ (List.mem_singleton_self _)
    have known : cache.verdict later (normalize s) = some true := by
      rw [verdict, live, ← stable, cached, Option.filter_some, if_pos (decide_eq_true within)]
      rfl
    obtain ⟨verdict, sent⟩ := check_known (g := { g with cache }) distinct' shown' known accuse
    rw [verdict, sent, accused, if_pos stable, if_pos stable]
    exact ⟨rfl, rfl⟩
  · have still : cache.live now (normalize s) = none := by
      rw [learned.others _ fun listed => stable (List.mem_singleton.mp listed).symm, unknown]
    obtain ⟨verdict, sent, -⟩ := check_accuse (g := { g with cache }) distinct' shown'
      (live_eq_none_of_le still le)
    rw [verdict, sent, if_neg stable]
    exact ⟨rfl, rfl⟩

end Shown

/-- The normal form of a listed name that is passed over: it is stable, or it has the normal
form of some listed name. -/
def Excused (names : List String) (name : String) : Prop :=
  normalize name = name ∨ normalize name ≠ "" ∧ ∃ d ∈ names, normalize d = normalize name

/-- What becomes of a name in a gate, by the normal form of its normal form. -/
structure Restated (s : String) : Prop where
  stable : normalize (normalize s) = normalize s ↔
    ∀ c, (normalize s).toList.getLast? = some c → isBlank c = false
  /-- A listed name is passed over if it is excused, and otherwise it is asked for. -/
  listed : ∀ (g : Gate) (names : List String) (now : Nat) (lookup : List String → LookupReply),
    g.whitelist.names = Whitelist.normalNames names → s ∈ names →
    (Excused names (normalize s) →
      (g.check now lookup [s]).1 = .pass ∧ (g.check now lookup [s]).2.1 = none) ∧
    (¬ Excused names (normalize s) → g.cache.Distinct →
      g.cache.live now (normalize s) = none →
      (g.check now lookup [s]).2.1 = some [normalize s])
  /-- One that is neither whitelisted nor known, and that the lookup calls malicious, is
  blocked, and once more without a lookup, if its normal form is stable. If not, it passes
  both times, and both times the lookup is asked. -/
  accused : ∀ (g : Gate) (now : Nat), g.whitelist.contains (normalize s) = false →
    g.cache.Distinct → g.cache.live now (normalize s) = none →
    (g.check now accuse [s]).1 = accused (normalize s) ∧
    (g.check now accuse [s]).2.1 = some [normalize s] ∧
    ∀ later, now ≤ later → later < now + g.cache.ttl →
      ((g.check now accuse [s]).2.2.2.check later accuse [s]).1 = Gate.accused (normalize s) ∧
      ((g.check now accuse [s]).2.2.2.check later accuse [s]).2.1 =
        if normalize (normalize s) = normalize s then none else some [normalize s]

theorem names_restated (s : String) (some : normalize s ≠ "")
    (unnumbered : Net.Address.parse? (normalize s) = none) : Restated s where
  stable := normalize_eq_self_iff s
  listed g names now lookup listing listed := by
    have skips : g.skips s = true ↔ normalize (normalize s) ≠ "" ∧
        ∃ d ∈ names, normalize d = normalize (normalize s) := by
      rw [Gate.skips, Whitelist.contains_of_name unnumbered, Bool.or_eq_true, String.isEmpty_iff,
        or_iff_right some, List.contains_iff_mem, listing, Whitelist.mem_normalNames]
    constructor
    · intro excused
      refine check_skipped (skips.mpr (excused.elim (fun stable => ?_) id)) now lookup
      exact ⟨stable.symm ▸ some, s, listed, stable.symm⟩
    · intro exposed distinct unknown
      have shown : g.skips s = false :=
        Bool.eq_false_iff.mpr fun skipped => exposed (.inr (skips.mp skipped))
      obtain ⟨cache, -, concluded, -, checked⟩ := check_unknown distinct shown unknown lookup
      rw [checked]
  accused g now unlisted distinct unknown := by
    have shown : g.skips s = false := by
      rw [Gate.skips, unlisted, Bool.or_false]
      exact Bool.eq_false_iff.mpr fun empty => some (String.isEmpty_iff.mp empty)
    obtain ⟨verdict, sent, -⟩ := check_accuse distinct shown unknown
    exact ⟨verdict, sent, fun _ le within => check_accuse_again distinct shown unknown le within⟩

/-- A gate that has no whitelist and knows nothing. -/
def fresh : Gate := { tag := "mail", cache := { ttl := 100 } }

/-- The white space before the last dot survives the first time, but not the second. -/
theorem names_restated_blank :
    normalize "bad.test ." = "bad.test " ∧ normalize (normalize "bad.test .") = "bad.test" ∧
    (fresh.check 0 accuse ["bad.test ."]).1 = .pass ∧
    ((fresh.check 0 accuse ["bad.test ."]).2.2.2.check 1 accuse ["bad.test ."]).1 = .pass := by
  have once : normalize "bad.test ." = "bad.test " := by decide +kernel
  have twice : normalize "bad.test " = "bad.test" := by decide +kernel
  have unnumbered : Net.Address.parse? "bad.test " = none := by decide +kernel
  have restated := names_restated "bad.test ." (once ▸ by decide) (once ▸ unnumbered)
  obtain ⟨first, -, later⟩ := restated.accused fresh 0 (once ▸ by decide +kernel) .nil rfl
  have pass : accused (normalize "bad.test .") = .pass := by
    rw [once, accused, twice, if_neg (by decide)]
  exact ⟨once, once ▸ twice, first.trans pass, (later 1 (by decide) (by decide)).1.trans pass⟩

end Gate
end LiveRules.Intel
