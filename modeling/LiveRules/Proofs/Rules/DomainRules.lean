import LiveRules.Proofs.Rules.Records

/-!
# Which names a domain rule finds

A matcher keeps its rules by kind and looks a name up kind by kind. Whether it finds
the name depends on its rules one by one: each rule finds names of its own, by the
pattern after its tag.
-/
namespace LiveRules

/-- A text after a dot. -/
theorem mem_after {s cs : List Char} :
    s ∈ nameAndSuffixes.after cs ↔ s ≠ [] ∧ '.' :: s <:+ cs := by
  induction cs with
  | nil => simp [nameAndSuffixes.after]
  | cons c cs ih =>
      rw [List.suffix_cons_iff, nameAndSuffixes.after, List.cons.injEq]
      split
      · rename_i dot
        obtain ⟨rfl, more⟩ := dot
        rw [List.mem_cons, ih]
        constructor
        · rintro (rfl | ⟨some, later⟩)
          · exact ⟨by simpa using more, .inl ⟨rfl, rfl⟩⟩
          · exact ⟨some, .inr later⟩
        · rintro ⟨some, ⟨-, rfl⟩ | later⟩
          · exact .inl rfl
          · exact .inr ⟨some, later⟩
      · rename_i noDot
        rw [ih]
        refine and_congr_right fun some => (or_iff_right ?_).symm
        rintro ⟨rfl, rfl⟩
        exact noDot ⟨rfl, by simpa using some⟩

theorem mem_nameAndSuffixes {s cs : List Char} (some : cs ≠ []) :
    s ∈ nameAndSuffixes cs ↔ s = cs ∨ s ≠ [] ∧ '.' :: s <:+ cs := by
  rw [nameAndSuffixes, List.mem_cons, mem_after]
  exact some

theorem Bindings.isSome_insert {V : Type} (m : Bindings V) (key k : String) (value : V) :
    ((m.insert key value).lookup k).isSome = true ↔
      k = key ∨ (m.lookup k).isSome = true := by
  simp only [Bindings.insert, List.lookup_isSome_iff, List.mem_cons, List.mem_filter,
    beq_iff_eq, decide_eq_true_eq]
  constructor
  · rintro ⟨p, rfl | ⟨old, -⟩, rfl⟩
    · exact .inl rfl
    · exact .inr ⟨p, old, rfl⟩
  · rintro (rfl | ⟨p, old, rfl⟩)
    · exact ⟨_, .inl rfl, rfl⟩
    · by_cases same : p.1 = key
      · exact ⟨_, .inl rfl, same⟩
      · exact ⟨p, .inr ⟨old, same⟩, rfl⟩

variable [PatternLanguage]

/-- The pattern of a rule of some kind finds a name in normal form. -/
def RuleKind.Hits (kind : RuleKind) (pattern name : String) : Prop :=
  match kind with
  | .full => name = normalize pattern
  | .domain => (normalize pattern).toList ∈ nameAndSuffixes name.toList
  | .keyword => Text.contains name (Text.lower pattern) = true
  | .regexp => ∃ p, PatternLanguage.compile pattern = .ok p ∧ PatternLanguage.isMatch p name = true

/-- A rule finds a name in normal form. -/
@[irreducible] def RuleKind.RuleHits (default : RuleKind) (rule name : String) : Prop :=
  (RuleKind.split default (Text.trim rule)).1.Hits
    (Text.trim (RuleKind.split default (Text.trim rule)).2) name

namespace DomainMatcher
variable {V : Type} {m m' : DomainMatcher V}

theorem isSome_lookup (m : DomainMatcher V) (name : String) :
    (m.lookup name).isSome = true ↔ (m.full.lookup name).isSome = true ∨
      (∃ s ∈ nameAndSuffixes name.toList, (m.domain.lookup (.ofList s)).isSome = true) ∨
      (∃ r ∈ m.keyword, Text.contains name r.1 = true) ∨
      ∃ r ∈ m.regexp, PatternLanguage.isMatch r.1 name = true := by
  have here (b : Bool) (v : V) : (if b = true then some v else none).isSome = true ↔ b = true := by
    cases b <;> simp
  simp only [lookup, Option.orElse_eq_orElse, Option.orElse_eq_or, Option.isSome_or,
    Bool.or_eq_true, List.findSome?_isSome_iff, here]

/-- A rule is refused if it has no pattern, or one that is no regular expression where
one is asked for. -/
theorem isOk_add_iff (m : DomainMatcher V) (rule : String) (value : V) :
    (m.add rule value).isOk = true ↔
      Text.trim (RuleKind.split m.default (Text.trim rule)).2 ≠ "" ∧
      ((RuleKind.split m.default (Text.trim rule)).1 = .regexp →
        (PatternLanguage.compile
          (Text.trim (RuleKind.split m.default (Text.trim rule)).2)).isOk = true) := by
  unfold add
  dsimp only
  generalize (RuleKind.split m.default (Text.trim rule)).1 = kind
  generalize Text.trim (RuleKind.split m.default (Text.trim rule)).2 = pattern
  rw [Ne, ← String.isEmpty_iff]
  split
  · rename_i none
    simp [none, Except.isOk, Except.toBool]
  · rename_i some
    cases kind with
    | full | domain | keyword => simp [some, Except.isOk, Except.toBool]
    | regexp => cases PatternLanguage.compile pattern <;> simp [some, Except.isOk, Except.toBool]

/-- A rule that is added finds what it finds by itself; all else is found as before. -/
theorem isSome_lookup_add {rule : String} {value : V} (added : m.add rule value = .ok m')
    (name : String) : (m'.lookup name).isSome = true ↔
      (m.lookup name).isSome = true ∨ RuleKind.RuleHits m.default rule name := by
  unfold RuleKind.RuleHits
  unfold add at added
  dsimp only at added
  generalize (RuleKind.split m.default (Text.trim rule)).1 = kind at added ⊢
  generalize Text.trim (RuleKind.split m.default (Text.trim rule)).2 = pattern at added ⊢
  rw [isSome_lookup, isSome_lookup]
  split at added
  · cases added
  cases kind with
  | full =>
      cases added
      simp only [RuleKind.Hits, Bindings.isSome_insert, or_assoc, or_comm]
  | domain =>
      cases added
      have found : (∃ s ∈ nameAndSuffixes name.toList, String.ofList s = normalize pattern) ↔
          (normalize pattern).toList ∈ nameAndSuffixes name.toList := by
        simp only [← String.toList_inj, String.toList_ofList, exists_eq_right]
      simp only [RuleKind.Hits, Bindings.isSome_insert, and_or_left, exists_or, found,
        or_assoc, or_comm, or_left_comm]
  | keyword =>
      cases added
      simp only [RuleKind.Hits, List.mem_append, List.mem_singleton, or_and_right, exists_or,
        exists_eq_left, or_assoc, or_comm, or_left_comm]
  | regexp =>
      dsimp only at added
      split at added
      · rename_i p parsed
        cases added
        simp only [RuleKind.Hits, List.mem_append, List.mem_singleton, or_and_right, exists_or,
          exists_eq_left, parsed, Except.ok.injEq, exists_eq_left', or_assoc]
      · cases added

theorem isSome_find (m : DomainMatcher V) (key : String) :
    (m.find? key).isSome = true ↔
      normalize key ≠ "" ∧ (m.lookup (normalize key)).isSome = true := by
  unfold find?
  dsimp only
  by_cases root : normalize key = ""
  · simp [root]
  · simp [root]

theorem not_found_empty (default : RuleKind) (key : String) :
    ¬ (({ default } : DomainMatcher V).find? key).isSome = true := by
  simp [isSome_find, isSome_lookup]

end DomainMatcher

theorem Recipe.domains_add (m : DomainMatcher Unit) (rule : String) :
    Recipe.domains.add m rule = m.add rule () := by
  simp only [Recipe.domains]

theorem Recipe.domains_accepts (rule : String) : Recipe.domains.Accepts rule ↔
    (DomainMatcher.add { default := .domain } rule ()).isOk = true := by
  simp only [Recipe.Accepts, Recipe.domains]

theorem Recipe.domains_probe (m : DomainMatcher Unit) (key : String) :
    (Dialect.domains.probe key (Recipe.domains.finish m)).isSome = true ↔
      (m.find? key).isSome = true := by
  simp only [Recipe.domains]

theorem Recipe.domains_found {m m' : DomainMatcher Unit} {rule : String} (key : String)
    (default : m.default = .domain) (added : Recipe.domains.add m rule = .ok m') :
    (m'.find? key).isSome = true ↔ (m.find? key).isSome = true ∨
      normalize key ≠ "" ∧ RuleKind.RuleHits .domain rule (normalize key) := by
  rw [domains_add] at added
  rw [DomainMatcher.isSome_find, DomainMatcher.isSome_find,
    DomainMatcher.isSome_lookup_add added, default, and_or_left]

/-- Domain sets are looked up by normal forms; nothing finds the root name. -/
def Recipe.Lookup.domains : Recipe.domains.Lookup where
  Hits rule key := normalize key ≠ "" ∧ RuleKind.RuleHits .domain rule (normalize key)
  Found m key := (DomainMatcher.find? m key).isSome = true
  not_found_start := DomainMatcher.not_found_empty .domain
  found_add := Recipe.domains_found
  probe_finish := Recipe.domains_probe

end LiveRules
