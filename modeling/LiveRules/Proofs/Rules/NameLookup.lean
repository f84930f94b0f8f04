import LiveRules.Proofs.Rules.DomainRules
import LiveRules.Proofs.Rules.NormalForms

/-!
# Which value a name has

A matcher is filled by calls, some of which are refused. The value of a name is that of
one of the accepted rules: of the last full rule for it; else of the last of the longest
domain rules above it; else of the first keyword in it; else of the first expression that
matches in it. No store of the matcher is part of that.
-/
namespace LiveRules

/-! ## One rule of many -/

section Choices
variable {α β : Type} {P : α → Prop} {rules : List α} {r : α}

/-- The first entry that satisfies `P`. -/
def FirstOf (P : α → Prop) (rules : List α) (r : α) : Prop :=
  ∃ before after, rules = before ++ r :: after ∧ P r ∧ ∀ x ∈ before, ¬ P x

/-- The last entry that satisfies `P`. -/
def LastOf (P : α → Prop) (rules : List α) (r : α) : Prop :=
  ∃ before after, rules = before ++ r :: after ∧ P r ∧ ∀ x ∈ after, ¬ P x

/-- The last entry of those that satisfy `P` with the highest rank. -/
def HighestOf (P : α → Prop) (rank : α → Nat) (rules : List α) (r : α) : Prop :=
  ∃ before after, rules = before ++ r :: after ∧ P r ∧
    (∀ x ∈ before, P x → rank x ≤ rank r) ∧ ∀ x ∈ after, P x → rank x < rank r

theorem firstOf_reverse : FirstOf P rules.reverse r ↔ LastOf P rules r := by
  constructor
  · intro ⟨before, after, whole, here, unmet⟩
    refine ⟨after.reverse, before.reverse, ?_, here, fun x hx => unmet x (List.mem_reverse.mp hx)⟩
    rw [← List.reverse_reverse rules, whole]
    simp
  · intro ⟨before, after, whole, here, unmet⟩
    refine ⟨after.reverse, before.reverse, ?_, here, fun x hx => unmet x (List.mem_reverse.mp hx)⟩
    rw [whole]
    simp

variable {f : α → Option β} {value : α → β} {v : β}

theorem findSome?_eq_none_iff_forall (chooses : ∀ x v, f x = some v ↔ P x ∧ value x = v) :
    rules.findSome? f = none ↔ ∀ r ∈ rules, ¬ P r := by
  rw [List.findSome?_eq_none_iff]
  refine forall₂_congr fun x _ => ?_
  rw [Option.eq_none_iff_forall_ne_some]
  simp only [Ne, chooses, not_and]
  exact ⟨fun none holds => none _ holds rfl, fun fails v holds => absurd holds fails⟩

theorem findSome?_eq_some_iff_firstOf (chooses : ∀ x v, f x = some v ↔ P x ∧ value x = v) :
    rules.findSome? f = some v ↔ ∃ r, FirstOf P rules r ∧ value r = v := by
  rw [List.findSome?_eq_some_iff]
  constructor
  · intro ⟨before, r, after, whole, found, passed⟩
    have ⟨holds, same⟩ := (chooses r v).mp found
    have unmet := (findSome?_eq_none_iff_forall chooses).mp (List.findSome?_eq_none_iff.mpr passed)
    exact ⟨r, ⟨before, after, whole, holds, unmet⟩, same⟩
  · intro ⟨r, ⟨before, after, whole, holds, unmet⟩, same⟩
    have passed := List.findSome?_eq_none_iff.mp ((findSome?_eq_none_iff_forall chooses).mpr unmet)
    exact ⟨before, r, after, whole, (chooses r v).mpr ⟨holds, same⟩, passed⟩

theorem findSome?_filterMap_eq {γ : Type} (f : α → Option γ) (g : γ → Option β)
    (rules : List α) :
    (rules.filterMap f).findSome? g = rules.findSome? fun x => (f x).bind g := by
  induction rules with
  | nil => rfl
  | cons x rules ih => cases found : f x <;> simp [List.findSome?_cons, found, ih]

theorem LastOf.mem (last : LastOf P rules r) : r ∈ rules := by
  have ⟨before, after, whole, _⟩ := last
  simp [whole]

theorem LastOf.unique {r' : α} (last : LastOf P rules r) (last' : LastOf P rules r') :
    r = r' := by
  classical
  have chooses (x v : α) : (if P x then some x else none) = some v ↔ P x ∧ id x = v := by
    simp
  have found := (findSome?_eq_some_iff_firstOf chooses).mpr ⟨r, firstOf_reverse.mpr last, rfl⟩
  have found' := (findSome?_eq_some_iff_firstOf chooses).mpr ⟨r', firstOf_reverse.mpr last', rfl⟩
  exact Option.some.inj (found.symm.trans found')

theorem HighestOf.imp {Q : α → Prop} {rank : α → Nat} (same : ∀ x ∈ rules, P x ↔ Q x)
    (highest : HighestOf P rank rules r) : HighestOf Q rank rules r := by
  have ⟨before, after, whole, here, earlier, later⟩ := highest
  rw [whole] at same
  exact ⟨before, after, whole, (same r (by simp)).mp here,
    fun x hx holds => earlier x hx ((same x (by simp [hx])).mpr holds),
    fun x hx holds => later x hx ((same x (by simp [hx])).mpr holds)⟩

section Walk
variable {σ : Type} {key : α → σ} {height : σ → Nat} {s : σ} {steps : List σ}

/-- If an entry is for the highest step, the last one for it is the last of the highest. -/
theorem highestOf_iff_lastOf (lower : ∀ t ∈ steps, height t < height s)
    (top : ∃ x ∈ rules, P x ∧ key x = s) :
    HighestOf (fun x => P x ∧ key x ∈ s :: steps) (fun x => height (key x)) rules r ↔
      LastOf (fun x => P x ∧ key x = s) rules r := by
  constructor
  · intro ⟨before, after, whole, ⟨holds, onStep⟩, earlier, later⟩
    have ⟨x, listed, holdsToo, atTop⟩ := top
    rw [whole, List.mem_append, List.mem_cons] at listed
    have candidate : P x ∧ key x ∈ s :: steps := ⟨holdsToo, by simp [atTop]⟩
    have reaches : height s ≤ height (key r) := by
      rcases listed with before | same | after
      · exact atTop ▸ earlier x before candidate
      · rw [← same, atTop]
      · exact atTop ▸ (later x after candidate).le
    have here : key r = s := by
      rcases List.mem_cons.mp onStep with here | below
      · exact here
      · have := lower _ below
        omega
    refine ⟨before, after, whole, ⟨holds, here⟩, fun x hx ⟨again, same⟩ => ?_⟩
    have less := later x hx ⟨again, by simp [same]⟩
    simp only [same, here] at less
    omega
  · intro ⟨before, after, whole, ⟨holds, here⟩, unmet⟩
    refine ⟨before, after, whole, ⟨holds, by simp [here]⟩, ?_, ?_⟩
    · intro x hx ⟨_, onStep⟩
      rcases List.mem_cons.mp onStep with same | below
      · simp only [same, here, le_refl]
      · simpa only [here] using (lower _ below).le
    · intro x hx ⟨also, onStep⟩
      rcases List.mem_cons.mp onStep with same | below
      · exact absurd ⟨also, same⟩ (unmet x hx)
      · simpa only [here] using lower _ below

/-- A walk down some steps ends at the first one that has an entry. The last entry for
that step is the last of the highest ones. -/
theorem findSome?_walk (shrink : steps.Pairwise fun s t => height t < height s)
    {store : σ → Option β}
    (stored : ∀ s v, store s = some v ↔
      ∃ r, LastOf (fun x => P x ∧ key x = s) rules r ∧ value r = v)
    (absent : ∀ s, store s = none ↔ ∀ r ∈ rules, ¬ (P r ∧ key r = s)) :
    steps.findSome? store = some v ↔
      ∃ r, HighestOf (fun x => P x ∧ key x ∈ steps) (fun x => height (key x)) rules r ∧
        value r = v := by
  induction steps with
  | nil => simp [HighestOf]
  | cons s steps ih =>
      have ⟨lower, rest⟩ := List.pairwise_cons.mp shrink
      rw [List.findSome?_cons]
      cases found : store s with
      | none =>
          have elsewhere := (absent s).mp found
          have same (x : α) (listed : x ∈ rules) :
              (P x ∧ key x ∈ steps) ↔ P x ∧ key x ∈ s :: steps := by
            have := elsewhere x listed
            grind
          rw [ih rest]
          exact ⟨fun ⟨r, highest, hv⟩ => ⟨r, highest.imp same, hv⟩,
            fun ⟨r, highest, hv⟩ => ⟨r, highest.imp fun x hx => (same x hx).symm, hv⟩⟩
      | some w =>
          have ⟨r, last, _⟩ := (stored s w).mp found
          have ⟨_, _, _, here, _⟩ := last
          simp only [highestOf_iff_lastOf lower ⟨r, last.mem, here⟩]
          rw [← stored, found]

end Walk

end Choices

/-! ## Rules and the names they speak of -/

/-- A rule whose tag is read, with its value. -/
structure NameRule (V : Type) where
  kind : RuleKind
  pattern : String
  value : V

namespace NameRule
variable {V : Type}

/-- What a call asks to add. -/
def read (default : RuleKind) (call : String × V) : NameRule V :=
  let said := RuleKind.split default (Text.trim call.1)
  ⟨said.1, Text.trim said.2, call.2⟩

/-- The full rule for a name. -/
def Full (name : String) (r : NameRule V) : Prop :=
  r.kind = .full ∧ normalize r.pattern = name

/-- A domain rule for a name or for a domain above it. -/
def Above (name : String) (r : NameRule V) : Prop :=
  r.kind = .domain ∧ (normalize r.pattern = name ∨
    '.' :: (normalize r.pattern).toList <:+ name.toList)

/-- A keyword in a name. -/
def Within (name : String) (r : NameRule V) : Prop :=
  r.kind = .keyword ∧ (Text.lower r.pattern).toList <:+: name.toList

/-- An expression that matches in a name. -/
def Matches [PatternLanguage] (name : String) (r : NameRule V) : Prop :=
  r.kind = .regexp ∧
    ∃ p, PatternLanguage.compile r.pattern = .ok p ∧ PatternLanguage.isMatch p name = true

/-- The length of the domain a rule is for. -/
def length (r : NameRule V) : Nat := (normalize r.pattern).toList.length

end NameRule

/-- The value of a name in normal form. -/
inductive Finds [PatternLanguage] {V : Type} (rules : List (NameRule V)) (name : String) :
    Option V → Prop
  | root : name = "" → Finds rules name none
  | full (r : NameRule V) : name ≠ "" → LastOf (NameRule.Full name) rules r →
      Finds rules name (some r.value)
  | domain (r : NameRule V) : name ≠ "" → (∀ x ∈ rules, ¬ x.Full name) →
      HighestOf (NameRule.Above name) NameRule.length rules r → Finds rules name (some r.value)
  | keyword (r : NameRule V) : name ≠ "" → (∀ x ∈ rules, ¬ x.Full name) →
      (∀ x ∈ rules, ¬ x.Above name) → FirstOf (NameRule.Within name) rules r →
      Finds rules name (some r.value)
  | regexp (r : NameRule V) : name ≠ "" → (∀ x ∈ rules, ¬ x.Full name) →
      (∀ x ∈ rules, ¬ x.Above name) → (∀ x ∈ rules, ¬ x.Within name) →
      FirstOf (NameRule.Matches name) rules r → Finds rules name (some r.value)
  | unknown : name ≠ "" → (∀ x ∈ rules, ¬ x.Full name) → (∀ x ∈ rules, ¬ x.Above name) →
      (∀ x ∈ rules, ¬ x.Within name) → (∀ x ∈ rules, ¬ x.Matches name) → Finds rules name none

namespace DomainMatcher
variable [PatternLanguage] {V : Type} {m m' : DomainMatcher V}

/-- The matcher after some calls; the ones it refuses leave it as it was. -/
def adds (m : DomainMatcher V) (calls : List (String × V)) : DomainMatcher V :=
  calls.foldl (fun m call => (m.add call.1 call.2).toOption.getD m) m

/-- A matcher of the kind accepts the rule of a call. -/
def accepts (default : RuleKind) (call : String × V) : Bool :=
  (DomainMatcher.add { default } call.1 call.2).isOk

/-- The rules of the accepted calls, oldest first. -/
def accepted (default : RuleKind) (calls : List (String × V)) : List (NameRule V) :=
  (calls.filter (accepts default)).map (NameRule.read default)

end DomainMatcher

/-! ## What the stores hold -/

theorem Bindings.lookup_insert {V : Type} (m : Bindings V) (key k : String) (value : V) :
    (m.insert key value).lookup k = if key = k then some value else m.lookup k := by
  have other (different : key ≠ k) : (m.filter (·.1 ≠ key)).lookup k = m.lookup k := by
    induction m with
    | nil => rfl
    | cons p m ih =>
        rw [List.filter_cons]
        by_cases dropped : p.1 = key
        · have not : (k == p.1) = false :=
            beq_false_of_ne fun same => different (dropped.symm.trans same.symm)
          rw [if_neg (by simpa using dropped), ih, List.lookup_cons, not]
        · rw [if_pos (by simpa using dropped), List.lookup_cons, List.lookup_cons, ih]
  rw [insert, List.lookup_cons]
  by_cases same : key = k
  · simp [same]
  · have not : (k == key) = false := beq_false_of_ne fun h => same h.symm
    rw [not, if_neg same]
    exact other same

namespace NameRule
variable {V : Type}

/-- The value of a rule of some kind for exactly this domain. -/
def exactly (kind : RuleKind) (domain : String) (r : NameRule V) : Option V :=
  if r.kind = kind ∧ normalize r.pattern = domain then some r.value else none

def keyword? (r : NameRule V) : Option (String × V) :=
  if r.kind = .keyword then some (Text.lower r.pattern, r.value) else none

def regexp? [PatternLanguage] (r : NameRule V) : Option (PatternLanguage.Compiled × V) :=
  if r.kind = .regexp then (PatternLanguage.compile r.pattern).toOption.map (·, r.value) else none

theorem exactly_eq_some (kind : RuleKind) (domain : String) (r : NameRule V) (v : V) :
    r.exactly kind domain = some v ↔ (r.kind = kind ∧ normalize r.pattern = domain) ∧
      r.value = v := by
  simp [exactly]

end NameRule

namespace DomainMatcher
variable [PatternLanguage] {V : Type} {m m' : DomainMatcher V} {rules : List (NameRule V)}

/-- What the stores of a matcher have of the rules it took: the newest value of each full
and each domain rule, and the others in their order. -/
structure Holds (m : DomainMatcher V) (rules : List (NameRule V)) : Prop where
  full : ∀ name, m.full.lookup name = rules.reverse.findSome? (NameRule.exactly .full name)
  domain : ∀ name, m.domain.lookup name = rules.reverse.findSome? (NameRule.exactly .domain name)
  keyword : m.keyword = rules.filterMap NameRule.keyword?
  regexp : m.regexp = rules.filterMap NameRule.regexp?

theorem holds_empty (default : RuleKind) : Holds ({ default } : DomainMatcher V) [] :=
  ⟨fun _ => rfl, fun _ => rfl, rfl, rfl⟩

omit [PatternLanguage] in
/-- The newest rule for a domain is the one added last, if it is for that domain. -/
theorem newest_concat (kind : RuleKind) (domain : String) (r : NameRule V) :
    (rules ++ [r]).reverse.findSome? (NameRule.exactly kind domain) =
      if r.kind = kind ∧ normalize r.pattern = domain then some r.value
      else rules.reverse.findSome? (NameRule.exactly kind domain) := by
  rw [List.reverse_append, List.reverse_singleton, List.singleton_append, List.findSome?_cons,
    NameRule.exactly]
  by_cases same : r.kind = kind ∧ normalize r.pattern = domain
  · rw [if_pos same, if_pos same]
  · rw [if_neg same, if_neg same]

theorem holds_add (holds : m.Holds rules) {call : String × V}
    (added : m.add call.1 call.2 = .ok m') :
    m'.Holds (rules ++ [NameRule.read m.default call]) := by
  unfold add at added
  dsimp only at added
  unfold NameRule.read
  dsimp only
  generalize (RuleKind.split m.default (Text.trim call.1)).1 = kind at added ⊢
  generalize Text.trim (RuleKind.split m.default (Text.trim call.1)).2 = pattern at added ⊢
  split at added
  · cases added
  cases kind with
  | full =>
      cases added
      constructor
      · intro name
        simp only [newest_concat, Bindings.lookup_insert, holds.full, true_and]
      · simp only [newest_concat, holds.domain, reduceCtorEq, false_and, if_false, implies_true]
      · simp [NameRule.keyword?, holds.keyword]
      · simp [NameRule.regexp?, holds.regexp]
  | domain =>
      cases added
      constructor
      · simp only [newest_concat, holds.full, reduceCtorEq, false_and, if_false, implies_true]
      · intro name
        simp only [newest_concat, Bindings.lookup_insert, holds.domain, true_and]
      · simp [NameRule.keyword?, holds.keyword]
      · simp [NameRule.regexp?, holds.regexp]
  | keyword =>
      cases added
      constructor
      · simp only [newest_concat, holds.full, reduceCtorEq, false_and, if_false, implies_true]
      · simp only [newest_concat, holds.domain, reduceCtorEq, false_and, if_false, implies_true]
      · simp [NameRule.keyword?, holds.keyword]
      · simp [NameRule.regexp?, holds.regexp]
  | regexp =>
      dsimp only at added
      split at added
      · rename_i p parsed
        cases added
        constructor
        · simp only [newest_concat, holds.full, reduceCtorEq, false_and, if_false, implies_true]
        · simp only [newest_concat, holds.domain, reduceCtorEq, false_and, if_false, implies_true]
        · simp [NameRule.keyword?, holds.keyword]
        · simp [NameRule.regexp?, holds.regexp, parsed, Except.toOption]
      · cases added

/-- Whether a rule is accepted does not depend on the rules before it. -/
theorem isOk_add_eq_accepts (m : DomainMatcher V) (call : String × V) :
    (m.add call.1 call.2).isOk = accepts m.default call := by
  have same : m.default = (DomainMatcher.mk (V := V) m.default [] [] [] []).default := rfl
  rw [isOk_add same, accepts]

theorem adds_cons_ok {call : String × V} (added : m.add call.1 call.2 = .ok m')
    (calls : List (String × V)) : m.adds (call :: calls) = m'.adds calls := by
  simp only [adds, List.foldl_cons, added, Except.toOption, Option.getD_some]

theorem adds_cons_error {call : String × V} {cause : RuleError}
    (refused : m.add call.1 call.2 = .error cause) (calls : List (String × V)) :
    m.adds (call :: calls) = m.adds calls := by
  simp only [adds, List.foldl_cons, refused, Except.toOption, Option.getD_none]

theorem accepts_of_ok {call : String × V} (added : m.add call.1 call.2 = .ok m') :
    accepts m.default call = true := by
  rw [← isOk_add_eq_accepts, added]
  rfl

theorem not_accepts_of_error {call : String × V} {cause : RuleError}
    (refused : m.add call.1 call.2 = .error cause) : ¬ accepts m.default call = true := by
  rw [← isOk_add_eq_accepts, refused]
  exact Bool.false_ne_true

theorem holds_adds (holds : m.Holds rules) (calls : List (String × V)) :
    (m.adds calls).Holds (rules ++ accepted m.default calls) := by
  induction calls generalizing m rules with
  | nil => simpa [adds, accepted] using holds
  | cons call calls ih =>
      rw [accepted, List.filter_cons]
      cases added : m.add call.1 call.2 with
      | error cause =>
          rw [adds_cons_error added, if_neg (not_accepts_of_error added)]
          exact ih holds
      | ok m' =>
          have rest := ih (holds_add holds added)
          rw [default_add added] at rest
          rw [adds_cons_ok added, if_pos (accepts_of_ok added), List.map_cons, List.append_cons]
          exact rest

/-- Calls that are refused can be left out. -/
theorem adds_accepted (m : DomainMatcher V) (calls : List (String × V)) :
    m.adds (calls.filter (accepts m.default)) = m.adds calls := by
  induction calls generalizing m with
  | nil => rfl
  | cons call calls ih =>
      rw [List.filter_cons]
      cases added : m.add call.1 call.2 with
      | error cause =>
          rw [adds_cons_error added, if_neg (not_accepts_of_error added)]
          exact ih m
      | ok m' =>
          rw [adds_cons_ok added, if_pos (accepts_of_ok added), adds_cons_ok added,
            ← default_add added]
          exact ih m'

end DomainMatcher

/-! ## Names and the domains above them -/

/-- The domains above a name come longest first. -/
theorem nameAndSuffixes_shrink (cs : List Char) :
    (nameAndSuffixes cs).Pairwise fun s t => t.length < s.length := by
  have shorter {s cs : List Char} (later : s ∈ nameAndSuffixes.after cs) :
      s.length < cs.length := by
    have := (mem_after.mp later).2.length_le
    simp at this
    omega
  have rest (cs : List Char) :
      (nameAndSuffixes.after cs).Pairwise fun s t => t.length < s.length := by
    induction cs with
    | nil => exact .nil
    | cons c cs ih =>
        rw [nameAndSuffixes.after]
        split
        · exact .cons (fun s later => shorter later) ih
        · exact ih
  cases cs with
  | nil => exact List.pairwise_singleton _ _
  | cons c cs => exact .cons (fun s later => shorter later) (rest _)

namespace NameRule
variable {V : Type} {name : String} {r : NameRule V}

theorem above_iff (some : name ≠ "") (undotted : ¬ ['.'] <:+ name.toList) :
    r.Above name ↔
      r.kind = .domain ∧ (normalize r.pattern).toList ∈ nameAndSuffixes name.toList := by
  have proper : name.toList ≠ [] := by simpa using some
  rw [Above, mem_nameAndSuffixes proper, String.toList_inj]
  constructor
  · intro ⟨domain, above⟩
    refine ⟨domain, above.imp_right fun below => ⟨fun root => ?_, below⟩⟩
    rw [root] at below
    exact undotted below
  · intro ⟨domain, above⟩
    exact ⟨domain, above.imp_right fun below => below.2⟩

end NameRule

namespace DomainMatcher
variable [PatternLanguage] {V : Type} {m : DomainMatcher V} {rules : List (NameRule V)}
  {name : String} {v : V}

omit [PatternLanguage] in
/-- A store of full or of domain rules has the last value for each domain. -/
theorem newest_eq_some (kind : RuleKind) (domain : String) :
    rules.reverse.findSome? (NameRule.exactly kind domain) = some v ↔
      ∃ r, LastOf (fun r => r.kind = kind ∧ normalize r.pattern = domain) rules r ∧
        r.value = v := by
  simp only [findSome?_eq_some_iff_firstOf (NameRule.exactly_eq_some kind domain),
    firstOf_reverse]

omit [PatternLanguage] in
theorem newest_eq_none (kind : RuleKind) (domain : String) :
    rules.reverse.findSome? (NameRule.exactly kind domain) = none ↔
      ∀ r ∈ rules, ¬ (r.kind = kind ∧ normalize r.pattern = domain) := by
  simp only [findSome?_eq_none_iff_forall (NameRule.exactly_eq_some kind domain),
    List.mem_reverse]

/-- One stage of a lookup: it has the value of the rule that is chosen, unless no rule
is for the name. -/
structure Decides (found : Option V) (rules : List (NameRule V))
    (Chosen For : NameRule V → Prop) : Prop where
  some_iff : ∀ v, found = some v ↔ ∃ r, Chosen r ∧ r.value = v
  none_iff : found = none ↔ ∀ x ∈ rules, ¬ For x

theorem Holds.decides_full (holds : m.Holds rules) (name : String) :
    Decides (m.full.lookup name) rules (LastOf (NameRule.Full name) rules)
      (NameRule.Full name) := by
  rw [holds.full]
  exact ⟨fun v => newest_eq_some .full name, newest_eq_none .full name⟩

/-- The walk up from a name ends at the longest domain with a rule. -/
theorem Holds.decides_domain (holds : m.Holds rules) (proper : name ≠ "")
    (undotted : ¬ ['.'] <:+ name.toList) :
    Decides ((nameAndSuffixes name.toList).findSome? fun s => m.domain.lookup (.ofList s)) rules
      (HighestOf (NameRule.Above name) NameRule.length rules) (NameRule.Above name) := by
  have above : NameRule.Above (V := V) name = fun r =>
      r.kind = .domain ∧ (normalize r.pattern).toList ∈ nameAndSuffixes name.toList :=
    funext fun r => propext (NameRule.above_iff proper undotted)
  have place (r : NameRule V) (s : List Char) :
      normalize r.pattern = .ofList s ↔ (normalize r.pattern).toList = s := by
    rw [← String.toList_inj, String.toList_ofList]
  have stored (s : List Char) (v : V) : m.domain.lookup (.ofList s) = some v ↔
      ∃ r, LastOf (fun r => r.kind = .domain ∧ (normalize r.pattern).toList = s) rules r ∧
        r.value = v := by
    simp only [holds.domain, newest_eq_some, place]
  have absent (s : List Char) : m.domain.lookup (.ofList s) = none ↔
      ∀ r ∈ rules, ¬ (r.kind = .domain ∧ (normalize r.pattern).toList = s) := by
    simp only [holds.domain, newest_eq_none, place]
  rw [above]
  constructor
  · intro v
    exact findSome?_walk (nameAndSuffixes_shrink name.toList) stored absent
  · rw [List.findSome?_eq_none_iff]
    simp only [absent]
    constructor
    · intro none x listed ⟨domain, step⟩
      exact none _ step x listed ⟨domain, rfl⟩
    · intro none s step x listed ⟨domain, same⟩
      rw [← same] at step
      exact none x listed ⟨domain, step⟩

theorem Holds.decides_keyword (holds : m.Holds rules) (name : String) :
    Decides (m.keyword.findSome? fun r => if Text.contains name r.1 then some r.2 else none)
      rules (FirstOf (NameRule.Within name) rules) (NameRule.Within name) := by
  have chooses (r : NameRule V) (v : V) :
      (r.keyword?.bind fun r => if Text.contains name r.1 then some r.2 else none) = some v ↔
        r.Within name ∧ r.value = v := by
    by_cases kind : r.kind = .keyword
    · simp [NameRule.keyword?, NameRule.Within, kind, Text.contains, Text.occurs_iff]
    · simp [NameRule.keyword?, NameRule.Within, kind]
  rw [holds.keyword, findSome?_filterMap_eq]
  exact ⟨fun v => findSome?_eq_some_iff_firstOf chooses, findSome?_eq_none_iff_forall chooses⟩

theorem Holds.decides_regexp (holds : m.Holds rules) (name : String) :
    Decides (m.regexp.findSome? fun r =>
      if PatternLanguage.isMatch r.1 name then some r.2 else none)
      rules (FirstOf (NameRule.Matches name) rules) (NameRule.Matches name) := by
  have chooses (r : NameRule V) (v : V) :
      (r.regexp?.bind fun r => if PatternLanguage.isMatch r.1 name then some r.2 else none) =
        some v ↔ r.Matches name ∧ r.value = v := by
    by_cases kind : r.kind = .regexp
    · cases parsed : PatternLanguage.compile r.pattern with
      | error why => simp [NameRule.regexp?, NameRule.Matches, kind, parsed, Except.toOption]
      | ok p => simp [NameRule.regexp?, NameRule.Matches, kind, parsed, Except.toOption]
    · simp [NameRule.regexp?, NameRule.Matches, kind]
  rw [holds.regexp, findSome?_filterMap_eq]
  exact ⟨fun v => findSome?_eq_some_iff_firstOf chooses, findSome?_eq_none_iff_forall chooses⟩

/-- The rules a matcher took decide which value a name has. -/
theorem Holds.find_iff (holds : m.Holds rules) (key : String) (answer : Option V) :
    m.find? key = answer ↔ Finds rules (normalize key) answer := by
  have undotted : ¬ ['.'] <:+ (normalize key).toList := by
    rw [toList_normalize]
    exact normalChars_undotted _
  unfold find?
  dsimp only
  generalize normalize key = name at undotted ⊢
  by_cases root : name = ""
  · rw [if_pos (by simp [root])]
    exact ⟨fun same => same ▸ .root root, fun finds => by cases finds <;> trivial⟩
  have full := holds.decides_full name
  have domain := holds.decides_domain root undotted
  have keyword := holds.decides_keyword name
  have regexp := holds.decides_regexp name
  rw [if_neg (by simp [root]), lookup]
  simp only [Option.orElse_eq_orElse, Option.orElse_eq_or]
  generalize m.full.lookup name = inFull at full ⊢
  generalize (nameAndSuffixes name.toList).findSome?
    (fun s => m.domain.lookup (.ofList s)) = inDomain at domain ⊢
  generalize m.keyword.findSome? _ = inKeyword at keyword ⊢
  generalize m.regexp.findSome? _ = inRegexp at regexp ⊢
  constructor
  · intro same
    subst same
    cases inFull with
    | some v =>
        obtain ⟨r, chosen, rfl⟩ := (full.some_iff v).mp rfl
        exact .full r root chosen
    | none =>
    have noFull := full.none_iff.mp rfl
    cases inDomain with
    | some v =>
        obtain ⟨r, chosen, rfl⟩ := (domain.some_iff v).mp rfl
        exact .domain r root noFull chosen
    | none =>
    have noDomain := domain.none_iff.mp rfl
    cases inKeyword with
    | some v =>
        obtain ⟨r, chosen, rfl⟩ := (keyword.some_iff v).mp rfl
        exact .keyword r root noFull noDomain chosen
    | none =>
    have noKeyword := keyword.none_iff.mp rfl
    cases inRegexp with
    | some v =>
        obtain ⟨r, chosen, rfl⟩ := (regexp.some_iff v).mp rfl
        exact .regexp r root noFull noDomain noKeyword chosen
    | none => exact .unknown root noFull noDomain noKeyword (regexp.none_iff.mp rfl)
  · intro finds
    cases finds with
    | root same => exact absurd same root
    | full r _ chosen => simp [(full.some_iff r.value).mpr ⟨r, chosen, rfl⟩]
    | domain r _ noFull chosen =>
        simp [full.none_iff.mpr noFull, (domain.some_iff r.value).mpr ⟨r, chosen, rfl⟩]
    | keyword r _ noFull noDomain chosen =>
        simp [full.none_iff.mpr noFull, domain.none_iff.mpr noDomain,
          (keyword.some_iff r.value).mpr ⟨r, chosen, rfl⟩]
    | regexp r _ noFull noDomain noKeyword chosen =>
        simp [full.none_iff.mpr noFull, domain.none_iff.mpr noDomain,
          keyword.none_iff.mpr noKeyword, (regexp.some_iff r.value).mpr ⟨r, chosen, rfl⟩]
    | unknown _ noFull noDomain noKeyword noRegexp =>
        simp [full.none_iff.mpr noFull, domain.none_iff.mpr noDomain,
          keyword.none_iff.mpr noKeyword, regexp.none_iff.mpr noRegexp]

/-- A query finds the value that the accepted rules give its name, and rules that were
refused change no answer. -/
theorem finds_by_priority (default : RuleKind) (calls : List (String × V)) (key : String) :
    (∀ answer, (adds { default } calls).find? key = answer ↔
      Finds (accepted default calls) (normalize key) answer) ∧
    (adds { default } (calls.filter (accepts default))).find? key =
      (adds { default } calls).find? key := by
  have holds := holds_adds (holds_empty default) calls
  rw [List.nil_append] at holds
  exact ⟨holds.find_iff key, by rw [adds_accepted { default } calls]⟩

end DomainMatcher
end LiveRules
