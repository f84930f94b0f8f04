import LiveRules.Pattern.Parser
import LiveRules.Proofs.Rules.Composite
import LiveRules.Proofs.Rules.NameLookup

/-!
# Rules that no name matches

A rule without a pattern is refused, so that a rule that counts can match. What is stored
and looked up, however, is the normal form, and the normal form of a pattern that consists
of dots is empty as well: a full or domain rule like that is accepted and counted, and no
query name has it. All other full, domain and keyword rules match some name.
-/
namespace LiveRules

theorem normalize_eq_empty_iff {s : String} (trim : Text.trimmed s.toList = s.toList) :
    normalize s = "" ↔ ∀ c ∈ s.toList, c = '.' := by
  rw [← String.toList_inj, toList_normalize, normalChars, trim, String.toList_empty,
    List.map_eq_nil_iff, Text.dropEndWhile_eq_nil]
  simp only [decide_eq_true_eq]

/-- A letter on either side keeps all that stands between. -/
theorem toList_normalize_enclosed (s : String) :
    (normalize ("x" ++ s ++ "x")).toList = 'x' :: ((Text.lower s).toList ++ ['x']) := by
  have ends : ('x' :: (s.toList ++ ['x'])).getLast? = some 'x' := by
    rw [← List.cons_append, List.getLast?_concat]
  have front : ('x' :: (s.toList ++ ['x'])).dropWhile Text.isBlank = 'x' :: (s.toList ++ ['x']) :=
    List.dropWhile_cons_of_neg (by decide)
  have trim : Text.trimmed ('x' :: (s.toList ++ ['x'])) = 'x' :: (s.toList ++ ['x']) := by
    rw [Text.trimmed, front]
    refine Text.dropEndWhile_eq_self fun c last => ?_
    obtain rfl : 'x' = c := Option.some.inj (ends.symm.trans last)
    decide
  have dots : Text.dropEndWhile (· = '.') ('x' :: (s.toList ++ ['x'])) =
      'x' :: (s.toList ++ ['x']) := by
    refine Text.dropEndWhile_eq_self fun c last => ?_
    obtain rfl : 'x' = c := Option.some.inj (ends.symm.trans last)
    decide
  have chars : ("x" ++ s ++ "x").toList = 'x' :: (s.toList ++ ['x']) := by simp
  have low : 'x'.toLower = 'x' := by decide
  rw [toList_normalize, normalChars, chars, trim, dots, Text.toList_lower]
  simp [low]

namespace NameRule
variable [PatternLanguage] {V : Type} {default : RuleKind} {call : String × V}

/-- The rule speaks of a name in normal form. -/
def For (name : String) (r : NameRule V) : Prop :=
  r.Full name ∨ r.Above name ∨ r.Within name ∨ r.Matches name

/-- The rule is for the name of some query. -/
def Live (r : NameRule V) : Prop :=
  ∃ key, normalize key ≠ "" ∧ r.For (normalize key)

/-- A full or domain rule with nothing but dots for a pattern. -/
def OfDots (r : NameRule V) : Prop :=
  (r.kind = .full ∨ r.kind = .domain) ∧ ∀ c ∈ r.pattern.toList, c = '.'

omit [PatternLanguage] in
theorem trimmed_pattern_read (default : RuleKind) (call : String × V) :
    Text.trimmed (read default call).pattern.toList = (read default call).pattern.toList := by
  rw [read, Text.toList_trim, Text.trimmed_trimmed]

/-- A rule for its own pattern is live, unless that is the root name. -/
theorem live_of_pattern {r : NameRule V} (kind : r.kind = .full ∨ r.kind = .domain)
    (named : normalize r.pattern ≠ "") : r.Live := by
  refine ⟨r.pattern, named, ?_⟩
  rcases kind with full | domain
  · exact .inl ⟨full, rfl⟩
  · exact .inr (.inl ⟨domain, .inl rfl⟩)

/-- Some name holds the keyword. -/
theorem live_of_keyword {r : NameRule V} (kind : r.kind = .keyword) : r.Live := by
  have chars := toList_normalize_enclosed r.pattern
  refine ⟨"x" ++ r.pattern ++ "x", fun root => ?_, .inr (.inr (.inl ⟨kind, ?_⟩))⟩
  · rw [root] at chars
    cases chars
  · rw [chars]
    exact ⟨['x'], ['x'], rfl⟩

/-- No name ends in a dot, let alone is empty. -/
theorem not_live_of_root {r : NameRule V} (kind : r.kind = .full ∨ r.kind = .domain)
    (root : normalize r.pattern = "") : ¬ r.Live := by
  intro ⟨key, named, aims⟩
  rcases aims with ⟨-, same⟩ | ⟨-, same | above⟩ | ⟨keyword, -⟩ | ⟨regexp, -⟩
  · exact named (same.symm.trans root)
  · exact named (same.symm.trans root)
  · rw [root, toList_normalize] at above
    exact normalChars_undotted key.toList above
  · rcases kind with kind | kind <;> cases kind.symm.trans keyword
  · rcases kind with kind | kind <;> cases kind.symm.trans regexp

theorem live_read_iff (named : (read default call).kind ≠ .regexp) :
    (read default call).Live ↔ ¬ (read default call).OfDots := by
  have dots := normalize_eq_empty_iff (trimmed_pattern_read default call)
  have own (kind : (read default call).kind = .full ∨ (read default call).kind = .domain) :
      (read default call).Live ↔ ¬ (read default call).OfDots := by
    rw [OfDots, ← dots, and_iff_right kind]
    exact ⟨fun live root => not_live_of_root kind root live, live_of_pattern kind⟩
  cases kind : (read default call).kind with
  | full => exact own (.inl kind)
  | domain => exact own (.inr kind)
  | keyword =>
      refine iff_of_true (live_of_keyword kind) fun ⟨other, _⟩ => ?_
      rcases other with other | other <;> cases kind.symm.trans other
  | regexp => exact absurd kind named

end NameRule

/-- A name is found if a rule is for it, and its value is that of such a rule. -/
theorem Finds.for [PatternLanguage] {V : Type} {rules : List (NameRule V)} {name : String}
    {answer : Option V} (finds : Finds rules name answer) :
    (answer.isSome = true ↔ name ≠ "" ∧ ∃ r ∈ rules, r.For name) ∧
      ∀ v, answer = some v → ∃ r ∈ rules, r.value = v := by
  have found {r : NameRule V} (some_ : name ≠ "") (listed : r ∈ rules) (aims : r.For name) :
      ((some r.value).isSome = true ↔ name ≠ "" ∧ ∃ r ∈ rules, r.For name) ∧
        ∀ v, some r.value = some v → ∃ r ∈ rules, r.value = v :=
    ⟨iff_of_true rfl ⟨some_, r, listed, aims⟩, fun v same => ⟨r, listed, Option.some.inj same⟩⟩
  cases finds with
  | root same => exact ⟨iff_of_false nofun fun ⟨named, _⟩ => named same, nofun⟩
  | full r named chosen =>
      have ⟨_, _, _, here, _⟩ := chosen
      exact found named chosen.mem (.inl here)
  | domain r named _ chosen =>
      obtain ⟨before, after, rfl, here, _⟩ := chosen
      exact found named (by simp) (.inr (.inl here))
  | keyword r named _ _ chosen =>
      obtain ⟨before, after, rfl, here, _⟩ := chosen
      exact found named (by simp) (.inr (.inr (.inl here)))
  | regexp r named _ _ _ chosen =>
      obtain ⟨before, after, rfl, here, _⟩ := chosen
      exact found named (by simp) (.inr (.inr (.inr here)))
  | unknown named noFull noDomain noKeyword noRegexp =>
      refine ⟨iff_of_false nofun fun ⟨_, r, listed, aims⟩ => ?_, nofun⟩
      rcases aims with full | domain | keyword | regexp
      · exact noFull r listed full
      · exact noDomain r listed domain
      · exact noKeyword r listed keyword
      · exact noRegexp r listed regexp

namespace DomainMatcher
variable [PatternLanguage] {V : Type} {m m' : DomainMatcher V} {calls : List (String × V)}

/-- Rules are added one by one, and all of them are accepted. -/
inductive Takes : DomainMatcher V → List (String × V) → DomainMatcher V → Prop
  | nil (m : DomainMatcher V) : Takes m [] m
  | cons {m m' m'' : DomainMatcher V} (call : String × V) {calls : List (String × V)} :
      m.add call.1 call.2 = .ok m' → Takes m' calls m'' → Takes m (call :: calls) m''

/-- The calls that are accepted fill a matcher. -/
theorem takes_adds (m : DomainMatcher V) (calls : List (String × V)) :
    Takes m (calls.filter (accepts m.default)) (m.adds calls) := by
  induction calls generalizing m with
  | nil => exact .nil m
  | cons call calls ih =>
      rw [List.filter_cons]
      cases added : m.add call.1 call.2 with
      | error cause =>
          rw [adds_cons_error added, if_neg (not_accepts_of_error added)]
          exact ih m
      | ok m' =>
          rw [adds_cons_ok added, if_pos (accepts_of_ok added), ← default_add added]
          exact .cons call added (ih m')

theorem Takes.holds {rules : List (NameRule V)} (takes : Takes m calls m')
    (holds : m.Holds rules) : m'.Holds (rules ++ calls.map (NameRule.read m.default)) := by
  induction takes generalizing rules with
  | nil => simpa using holds
  | cons call added _ ih =>
      rw [default_add added] at ih
      rw [List.map_cons, List.append_cons]
      exact ih (holds_add holds added)

theorem size_add_pos {rule : String} {value : V} (added : m.add rule value = .ok m') :
    0 < m'.size := by
  unfold add at added
  dsimp only at added
  split at added
  · cases added
  · split at added
    · cases added
      simp only [size, Bindings.insert, List.length_cons]
      omega
    · cases added
      simp only [size, Bindings.insert, List.length_cons]
      omega
    · cases added
      simp only [size, List.length_append, List.length_cons]
      omega
    · split at added
      · cases added
        simp only [size, List.length_append, List.length_cons]
        omega
      · cases added

theorem Takes.size_pos_iff (takes : Takes m calls m') :
    0 < m'.size ↔ 0 < m.size ∨ calls ≠ [] := by
  induction takes with
  | nil => simp
  | cons call added _ ih => simp [ih, size_add_pos added]

/-- What the number of rules says about the names that can match. -/
structure CountTells (rules : List (NameRule V)) (m : DomainMatcher V) : Prop where
  counted : 0 < m.size ↔ rules ≠ []
  found : ∀ key, (m.find? key).isSome = true ↔
    normalize key ≠ "" ∧ ∃ r ∈ rules, r.For (normalize key)
  some_found : (∃ key, (m.find? key).isSome = true) ↔ ∃ r ∈ rules, r.Live
  live : ∀ r ∈ rules, r.kind ≠ .regexp → (r.Live ↔ ¬ r.OfDots)

theorem Takes.countTells {default : RuleKind} (takes : Takes { default } calls m) :
    CountTells (calls.map (NameRule.read default)) m := by
  have holds := takes.holds (holds_empty default)
  rw [List.nil_append] at holds
  have found (key : String) : (m.find? key).isSome = true ↔
      normalize key ≠ "" ∧ ∃ r ∈ calls.map (NameRule.read default), r.For (normalize key) :=
    ((holds.find_iff key _).mp rfl).for.1
  refine ⟨?_, found, ?_, ?_⟩
  · rw [takes.size_pos_iff]
    simp [size]
  · simp only [found, NameRule.Live]
    constructor
    · rintro ⟨key, named, r, listed, aims⟩
      exact ⟨r, listed, key, named, aims⟩
    · rintro ⟨r, listed, key, named, aims⟩
      exact ⟨key, named, r, listed, aims⟩
  · intro r listed named
    obtain ⟨call, -, rfl⟩ := List.mem_map.mp listed
    exact NameRule.live_read_iff named

/-- A matcher with one rule finds that rule's value if anything. -/
theorem Takes.find_one_iff {default : RuleKind} {call : String × V}
    (takes : Takes { default } [call] m) (key : String) :
    m.find? key = some call.2 ↔ (m.find? key).isSome = true := by
  have holds := takes.holds (holds_empty default)
  constructor
  · intro found
    rw [found]
    rfl
  · intro found
    obtain ⟨v, found⟩ := Option.isSome_iff_exists.mp found
    obtain ⟨r, listed, rfl⟩ := ((holds.find_iff key _).mp rfl).for.2 v found
    rw [List.nil_append, List.map_singleton, List.mem_singleton] at listed
    rw [found, listed, NameRule.read]

end DomainMatcher

/-! ## Sets and tables -/

section
variable [PatternLanguage]

theorem Recipe.takes_domains {m m' : Recipe.domains.State} {rules : List String}
    (adds : Recipe.domains.Adds m rules m') :
    DomainMatcher.Takes m (rules.map fun rule => (rule, ())) m' := by
  induction adds with
  | nil => exact .nil _
  | @cons m _ _ rule _ added _ ih =>
      exact .cons (rule, ()) ((Recipe.domains_add m rule).symm.trans added) ih

/-- The records that some texts are read as. -/
abbrev HostRecord.Reads (texts : List String) (records : List HostRecord) : Prop :=
  List.Forall₂ (fun text record => HostRecord.parse text = .ok record) texts records

theorem HostRecord.parse_of_added {m m' : DomainMatcher (List Net.Address)} {text : String}
    (added : Dialect.addHost m text = .ok m') :
    ∃ r, HostRecord.parse text = .ok r ∧ m.add r.rule r.addresses = .ok m' := by
  rw [Recipe.addHost_eq] at added
  split at added
  · rename_i r parsed
    exact ⟨r, parsed, added⟩
  · cases added

theorem Recipe.takes_hosts {m m' : Recipe.hosts.State} {texts : List String}
    (adds : Recipe.hosts.Adds m texts m') : ∃ records, HostRecord.Reads texts records ∧
      DomainMatcher.Takes m (records.map fun r => (r.rule, r.addresses)) m' := by
  induction adds with
  | nil => exact ⟨[], .nil, .nil _⟩
  | cons added _ ih =>
      obtain ⟨records, read, takes⟩ := ih
      obtain ⟨r, parsed, taken⟩ := HostRecord.parse_of_added added
      exact ⟨r :: records, .cons parsed read, .cons (r.rule, r.addresses) taken takes⟩

namespace DomainMatcher
variable {V : Type}

/-- Which rules are live, and what a positive number of rules says. -/
structure LiveUnlessOfDots (V : Type) : Prop where
  /-- A matcher that holds only one rule. -/
  alone : ∀ (default : RuleKind) (rule : String) (value : V) (m : DomainMatcher V),
    DomainMatcher.add { default } rule value = .ok m →
    (NameRule.read default (rule, value)).kind ≠ .regexp →
    0 < m.size ∧ ((∃ key, m.find? key = some value) ↔
      ¬ (NameRule.read default (rule, value)).OfDots)
  filled : ∀ (default : RuleKind) (calls : List (String × V)),
    CountTells (accepted default calls) (adds { default } calls)
  /-- A domain set with a rule of its own puts its table into its group. -/
  sets : ∀ (source : RuleSource) (files : Files.Tree) (table : DomainMatcher Unit),
    Dialect.domains.compile source files = .ok table →
    CountTells ((source.rules files).map fun rule => NameRule.read .domain (rule, ())) table ∧
    ∀ references, Member.table table ∈ Family.members (D := .domains) table references ↔
      source.rules files ≠ []
  /-- A hosts table with a record is taken at a reload, and put into its group. -/
  hosts : ∀ (source : RuleSource) (files : Files.Tree) (table : DomainMatcher (List Net.Address)),
    Dialect.hosts.compile source files = .ok table → ∃ records,
    HostRecord.Reads (source.rules files) records ∧
    CountTells (records.map fun r => NameRule.read .full (r.rule, r.addresses)) table ∧
    (Dialect.hosts.acceptsReload table = true ↔ records ≠ []) ∧
    ∀ references, Member.table table ∈ Family.members (D := .hosts) table references ↔
      records ≠ []

theorem Takes.alone {default : RuleKind} {call : String × V} {m : DomainMatcher V}
    (takes : Takes { default } [call] m) (named : (NameRule.read default call).kind ≠ .regexp) :
    0 < m.size ∧ ((∃ key, m.find? key = some call.2) ↔ ¬ (NameRule.read default call).OfDots) := by
  have tells := takes.countTells
  rw [List.map_singleton] at tells
  refine ⟨tells.counted.mpr (by simp), ?_⟩
  simp only [takes.find_one_iff, tells.some_found, List.mem_singleton, exists_eq_left,
    NameRule.live_read_iff named]

/-- A full, domain or keyword rule that is accepted matches some name, unless it is a full
or domain rule of dots; and a positive number of rules says no more than that some rule is
there, whether it decides on a set's table or on a reload of hosts. -/
theorem live_unless_of_dots (V : Type) : LiveUnlessOfDots V := by
  refine ⟨fun default rule value m added named => ?_, fun default calls => ?_,
    fun source files table compiled => ?_, fun source files table compiled => ?_⟩
  · exact (Takes.cons (rule, value) added (.nil m)).alone named
  · exact (takes_adds { default } calls).countTells
  · obtain ⟨m, adds, rfl⟩ := Recipe.adds_of_compile compiled (R := Recipe.domains)
    have tells := (Recipe.takes_domains adds).countTells
    rw [List.map_map] at tells
    refine ⟨tells, fun references => Family.table_mem_self.trans (tells.counted.trans ?_)⟩
    simp
  · obtain ⟨m, adds, rfl⟩ := Recipe.adds_of_compile compiled (R := Recipe.hosts)
    obtain ⟨records, read, takes⟩ := Recipe.takes_hosts adds
    have tells := takes.countTells
    rw [List.map_map] at tells
    have counted := tells.counted.trans (by rw [Ne, List.map_eq_nil_iff] : _ ↔ records ≠ [])
    refine ⟨records, read, tells, ?_, fun references => Family.table_mem_self.trans counted⟩
    rw [← counted, Nat.pos_iff_ne_zero]
    simp only [bne_iff_ne]

end DomainMatcher
end

open scoped Pattern in
/-- The full rule `.` is accepted and counted but matches no name, whereas the keyword `.`
matches some; and hosts of which only a rule like that is left are taken at a reload. -/
theorem DomainMatcher.live_unless_of_dots_root :
    let dead : DomainMatcher Nat := { default := .domain, full := [("", 7)] }
    let live : DomainMatcher Nat := { default := .domain, keyword := [(".", 7)] }
    let table : DomainMatcher (List Net.Address) :=
      { default := .full, full := [("", [.v4 0xc0000201])] }
    DomainMatcher.add { default := .domain } "full:." 7 = .ok dead ∧ 0 < dead.size ∧
      (¬ ∃ key, dead.find? key = some 7) ∧
    DomainMatcher.add { default := .domain } "keyword:." 7 = .ok live ∧
      (∃ key, live.find? key = some 7) ∧
    Dialect.hosts.compile ⟨["full:. 192.0.2.1"], []⟩ {} = .ok table ∧
      Dialect.hosts.acceptsReload table = true ∧ ¬ ∃ key, (table.find? key).isSome = true := by
  intro dead live table
  have full : DomainMatcher.add { default := .domain } "full:." 7 = .ok dead := rfl
  have keyword : DomainMatcher.add { default := .domain } "keyword:." 7 = .ok live := rfl
  have compiled : Dialect.hosts.compile ⟨["full:. 192.0.2.1"], []⟩ {} = .ok table := rfl
  have dot : Text.trim "." = "." := by decide +kernel
  have named {V : Type} (default : RuleKind) (value : V) :
      NameRule.read default ("full:.", value) = ⟨.full, ".", value⟩ := by
    have split : RuleKind.split default (Text.trim "full:.") = (.full, ".") := by
      cases default <;> decide +kernel
    simp only [NameRule.read, split, dot]
  have within : NameRule.read .domain ("keyword:.", 7) = ⟨.keyword, ".", 7⟩ := by
    have split : RuleKind.split .domain (Text.trim "keyword:.") = (.keyword, ".") := by
      decide +kernel
    simp only [NameRule.read, split, dot]
  have dots : ∀ c ∈ ".".toList, c = '.' := fun c member => List.mem_singleton.mp member
  have ofDots {V : Type} (value : V) : NameRule.OfDots ⟨.full, ".", value⟩ := ⟨.inl rfl, dots⟩
  obtain ⟨counted, dead_iff⟩ :=
    (live_unless_of_dots Nat).alone .domain "full:." 7 dead full (by rw [named]; decide)
  obtain ⟨-, live_iff⟩ :=
    (live_unless_of_dots Nat).alone .domain "keyword:." 7 live keyword (by rw [within]; decide)
  rw [named] at dead_iff
  rw [within] at live_iff
  obtain ⟨records, read, tells, reloads, -⟩ :=
    (live_unless_of_dots Nat).hosts ⟨["full:. 192.0.2.1"], []⟩ {} table compiled
  have parsed : HostRecord.parse "full:. 192.0.2.1" = .ok ⟨"full:.", [.v4 0xc0000201]⟩ := rfl
  obtain ⟨r, same, rfl⟩ : ∃ r, HostRecord.parse "full:. 192.0.2.1" = .ok r ∧ records = [r] := by
    cases read with
    | cons same rest => cases rest with | nil => exact ⟨_, same, rfl⟩
  obtain rfl := Except.ok.inj (parsed.symm.trans same)
  rw [List.map_singleton, named] at tells
  refine ⟨full, counted, fun found => dead_iff.mp found (ofDots 7), keyword,
    live_iff.mpr fun ofDots => absurd ofDots.1 (by decide),
    compiled, reloads.mpr (List.cons_ne_nil _ _), fun found => ?_⟩
  obtain ⟨r, listed, live⟩ := tells.some_found.mp found
  obtain rfl := List.mem_singleton.mp listed
  exact (tells.live _ listed (by decide)).mp live (ofDots _)

end LiveRules
