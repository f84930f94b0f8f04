import LiveRules.Collect.Action
import LiveRules.Proofs.Rules.DomainRules

/-!
# Collected entries as rules

An entry is written as a tag, a colon and a name. The store drops the white space after
the name, the reader of a rule file drops a comment, and the matcher takes what is left
after the colon for a pattern. A name that leaves it nothing makes an entry that no
matcher accepts.
-/
namespace LiveRules.Collect
open Text

/-- The entry of the characters of a name. -/
def EntryFormat.entry (f : EntryFormat) (cs : List Char) : String := f.tag ++ ":" ++ .ofList cs

namespace EntryFormat

theorem toList_entry (f : EntryFormat) (cs : List Char) :
    (f.entry cs).toList = f.tag.toList ++ ':' :: cs := by
  simp only [entry, String.toList_append, String.toList_ofList, List.append_assoc]
  rfl

theorem ofList_entry (f : EntryFormat) (cs : List Char) :
    String.ofList (f.tag.toList ++ ':' :: cs) = f.entry cs := by
  rw [← toList_entry, String.ofList_toList]

theorem entry_inj {f : EntryFormat} {cs cs' : List Char} :
    f.entry cs = f.entry cs' ↔ cs = cs' := by
  rw [← String.toList_inj, toList_entry, toList_entry, List.append_cancel_left_eq,
    List.cons.injEq, and_iff_right rfl]

/-- A tag is a plain word. -/
theorem tag_plain (f : EntryFormat) :
    ∀ c ∈ f.tag.toList, isBlank c = false ∧ c ≠ '#' ∧ c ≠ ':' ∧ c ≠ '\n' ∧ c ≠ '\r' := by
  have plain : f.tag.toList.all fun c =>
      isBlank c = false ∧ c ≠ '#' ∧ c ≠ ':' ∧ c ≠ '\n' ∧ c ≠ '\r' := by
    cases f <;> decide +kernel
  exact fun c hc => of_decide_eq_true (List.all_eq_true.mp plain c hc)

theorem tag_some (f : EntryFormat) : f.tag.toList ≠ [] := by
  cases f <;> decide +kernel

theorem ofTag?_tag (f : EntryFormat) : RuleKind.ofTag? f.tag = some f.kind :=
  RuleKind.ofTag?_tag f.kind

/-- White space around an entry is white space after its name. -/
theorem trimmed_entry (f : EntryFormat) (cs : List Char) :
    trimmed (f.tag.toList ++ ':' :: cs) = f.tag.toList ++ ':' :: dropEndWhile isBlank cs := by
  have front : (f.tag.toList ++ ':' :: cs).dropWhile isBlank = f.tag.toList ++ ':' :: cs := by
    obtain ⟨c, tag, word⟩ := List.exists_cons_of_ne_nil f.tag_some
    have plain := (f.tag_plain c (by simp [word])).1
    rw [word, List.cons_append, List.dropWhile_cons_of_neg (by simp [plain])]
  have back : dropEndWhile isBlank (':' :: cs) = ':' :: dropEndWhile isBlank cs := by
    rw [dropEndWhile]
    split
    · rename_i none
      rw [if_neg (by decide), none]
    · rfl
  rw [trimmed, front, dropEndWhile_append (by simp [back]), back]

theorem trim_entry (f : EntryFormat) (cs : List Char) :
    Text.trim (f.entry cs) = f.entry (dropEndWhile isBlank cs) := by
  rw [Text.trim, toList_entry, trimmed_entry, ofList_entry]

/-- A number sign in an entry is one in its name. -/
theorem takeWhile_entry (f : EntryFormat) (cs : List Char) :
    (f.tag.toList ++ ':' :: cs).takeWhile (· ≠ '#') =
      f.tag.toList ++ ':' :: cs.takeWhile (· ≠ '#') := by
  have tag : ∀ c ∈ f.tag.toList, decide (c ≠ '#') = true := fun c hc =>
    decide_eq_true (f.tag_plain c hc).2.1
  rw [List.takeWhile_append_of_pos tag, List.takeWhile_cons_of_pos (by decide)]

/-- The line of an entry says the tag and what stands before the comment. -/
theorem record_entry (f : EntryFormat) (cs : List Char) :
    record (f.entry cs) = some (f.entry (dropEndWhile isBlank (cs.takeWhile (· ≠ '#')))) := by
  rw [record_eq_some, toList_entry, toList_entry, takeWhile_entry, trimmed_entry]
  exact ⟨by simp, rfl⟩

/-- An entry is a single line if its name is one. -/
theorem storable?_entry {f : EntryFormat} {cs : List Char} {e : String} :
    Store.storable? (f.entry cs) = some e ↔
      (∀ c ∈ dropEndWhile isBlank cs, c ≠ '\n' ∧ c ≠ '\r') ∧
        f.entry (dropEndWhile isBlank cs) = e := by
  have some : (f.entry (dropEndWhile isBlank cs)).isEmpty = false := by
    rw [Bool.eq_false_iff, Ne, String.isEmpty_iff, ← String.toList_inj, toList_entry]
    simp
  have single : ((f.entry (dropEndWhile isBlank cs)).toList.any fun c => c = '\n' || c = '\r') =
      false ↔ ∀ c ∈ dropEndWhile isBlank cs, c ≠ '\n' ∧ c ≠ '\r' := by
    rw [toList_entry, List.any_append, Bool.or_eq_false_iff, List.any_cons,
      Bool.or_eq_false_iff, List.any_eq_false, List.any_eq_false]
    constructor
    · intro ⟨_, _, name⟩ c hc
      simpa using name c hc
    · intro name
      refine ⟨fun c hc => ?_, by decide, fun c hc => ?_⟩
      · simpa using (f.tag_plain c hc).2.2.2
      · simpa using name c hc
  simp only [Store.storable?, trim_entry, some, Bool.false_or, ← single]
  cases (f.entry (dropEndWhile isBlank cs)).toList.any fun c => c = '\n' || c = '\r' <;> simp

/-- A matcher takes the tag for the kind and the rest for the pattern. -/
theorem split_entry (f : EntryFormat) (default : RuleKind) (cs : List Char) :
    RuleKind.split default (f.entry cs) = (f.kind, .ofList cs) := by
  have tag : ':' ∉ f.tag.toList := fun colon => (f.tag_plain ':' colon).2.2.1 rfl
  rw [RuleKind.split, toList_entry, cutAt_append tag]
  simp only [String.ofList_toList, ofTag?_tag]

/-- An entry is accepted as a domain rule if its name is more than white space. -/
theorem accepts_entry [PatternLanguage] (f : EntryFormat) (cs : List Char) :
    Recipe.domains.Accepts (f.entry cs) ↔ trimmed cs ≠ [] := by
  have pattern : Text.trim (.ofList (dropEndWhile isBlank cs)) ≠ "" ↔ trimmed cs ≠ [] := by
    rw [Ne, ← String.toList_inj, toList_trim, String.toList_ofList, trimmed_dropEndWhile,
      String.toList_empty]
  rw [Recipe.domains_accepts, DomainMatcher.isOk_add_iff, trim_entry, split_entry, pattern]
  refine and_iff_left fun regexp => ?_
  cases f <;> cases regexp

/-- An entry finds what its name finds as a pattern. -/
theorem ruleHits_entry [PatternLanguage] (f : EntryFormat) (default : RuleKind) (cs : List Char)
    (name : String) : RuleKind.RuleHits default (f.entry cs) name ↔
      f.kind.Hits (.ofList (trimmed cs)) name := by
  rw [RuleKind.RuleHits, trim_entry, split_entry, Text.trim, String.toList_ofList,
    trimmed_dropEndWhile]

end EntryFormat

/-- The name without one closing dot. -/
def stem (name : String) : String := .ofList (dropClosingDot name.toList)

theorem toList_stem (name : String) : (stem name).toList = dropClosingDot name.toList :=
  String.toList_ofList

theorem mem_of_mem_dropClosingDot {c : Char} {cs : List Char} (hc : c ∈ dropClosingDot cs) :
    c ∈ cs := by
  fun_induction dropClosingDot cs with
  | case1 => exact hc
  | case2 => cases hc
  | case3 d ds _ ih =>
      rcases List.mem_cons.mp hc with same | rest
      · exact List.mem_cons.mpr (.inl same)
      · exact List.mem_cons_of_mem d (ih rest)

theorem dropClosingDot_cases (cs : List Char) :
    cs = dropClosingDot cs ∨ cs = dropClosingDot cs ++ ['.'] := by
  fun_induction dropClosingDot cs with
  | case1 => exact .inl rfl
  | case2 => exact .inr rfl
  | case3 c cs _ ih =>
      rcases ih with whole | whole
      · exact .inl (congrArg (c :: ·) whole)
      · exact .inr (congrArg (c :: ·) whole)

theorem entryFor_eq (f : EntryFormat) (name : String) :
    entryFor f name = if stem name = "" then none else some (f.entry (stem name).toList) := by
  have empty : stem name = "" ↔ dropClosingDot name.toList = [] := by
    rw [← String.toList_inj, toList_stem, String.toList_empty]
  simp only [entryFor, empty, toList_stem]
  cases dropClosingDot name.toList with
  | nil => rfl
  | cons c cs => rfl

/-- The entry that a store keeps for a name, if it takes one. -/
def stored? (f : EntryFormat) (name : String) : Option String :=
  (entryFor f name).bind Store.storable?

theorem stored?_eq_some {f : EntryFormat} {name e : String} : stored? f name = some e ↔
    stem name ≠ "" ∧ (∀ c ∈ dropEndWhile isBlank (stem name).toList, c ≠ '\n' ∧ c ≠ '\r') ∧
      f.entry (dropEndWhile isBlank (stem name).toList) = e := by
  rw [stored?, entryFor_eq]
  by_cases none : stem name = ""
  · simp [none]
  · rw [if_neg none, Option.bind_some, EntryFormat.storable?_entry, and_iff_right none]

/-- The store takes an entry of the name, but the entry has no pattern. -/
structure Patternless (name : String) : Prop where
  named : stem name ≠ ""
  single : ∀ c ∈ dropEndWhile isBlank (stem name).toList, c ≠ '\n' ∧ c ≠ '\r'
  /-- All that stands before a number sign is white space. -/
  blank : ∀ c ∈ (stem name).toList.takeWhile (· ≠ '#'), isBlank c = true

/-- What a stored entry says is accepted as a rule, whatever its format, unless its name
has no pattern. -/
theorem record_stored [PatternLanguage] {f : EntryFormat} {name e : String}
    (stored : stored? f name = some e) :
    ∃ rule, record e = some rule ∧ (Recipe.domains.Accepts rule ↔ ¬ Patternless name) := by
  obtain ⟨some, single, entry⟩ := stored?_eq_some.mp stored
  have cut : ∀ c, isBlank c = true → decide (c ≠ '#') = true := by
    intro c blank
    rw [decide_eq_true_eq]
    intro sign
    rw [sign] at blank
    exact absurd blank (by decide)
  refine ⟨_, by rw [← entry, EntryFormat.record_entry], ?_⟩
  rw [EntryFormat.accepts_entry, trimmed_dropEndWhile, trimmed_takeWhile_dropEndWhile cut, Ne,
    trimmed_eq_nil]
  refine not_congr ⟨fun blank => ⟨some, single, blank⟩, fun patternless => patternless.blank⟩

theorem patternless_iff {name : String} : Patternless name ↔ stem name ≠ "" ∧
    ((dropEndWhile isBlank (stem name).toList).all fun c => c ≠ '\n' ∧ c ≠ '\r') = true ∧
      ((stem name).toList.takeWhile (· ≠ '#')).all isBlank = true := by
  simp only [List.all_eq_true, decide_eq_true_eq]
  exact ⟨fun ⟨named, single, blank⟩ => ⟨named, single, blank⟩,
    fun ⟨named, single, blank⟩ => ⟨named, single, blank⟩⟩

instance (name : String) : Decidable (Patternless name) := decidable_of_iff' _ patternless_iff

theorem stored?_patternless {name : String} (patternless : Patternless name) (f : EntryFormat) :
    ∃ e, stored? f name = some e :=
  ⟨_, stored?_eq_some.mpr ⟨patternless.named, patternless.single, rfl⟩⟩

/-- A query name as it should be: no white space, no number sign, and at most one dot at
its end, which is not all of it. -/
structure PlainName (name : String) : Prop where
  clean : ∀ c ∈ name.toList, isBlank c = false ∧ c ≠ '#'
  named : stem name ≠ ""
  undotted : (stem name).toList.getLast? ≠ some '.'

theorem plainName_iff {name : String} : PlainName name ↔
    (name.toList.all fun c => isBlank c = false ∧ c ≠ '#') = true ∧ stem name ≠ "" ∧
      (stem name).toList.getLast? ≠ some '.' := by
  simp only [List.all_eq_true, decide_eq_true_eq]
  exact ⟨fun ⟨clean, named, undotted⟩ => ⟨clean, named, undotted⟩,
    fun ⟨clean, named, undotted⟩ => ⟨clean, named, undotted⟩⟩

instance (name : String) : Decidable (PlainName name) := decidable_of_iff' _ plainName_iff

/-- An entry of the format finds a key if its name is the key, or a domain above it, or
part of it; both in normal form. -/
def EntryFormat.Covers (f : EntryFormat) (name key : String) : Prop :=
  match f with
  | .full => key = name
  | .domain => key = name ∨ '.' :: name.toList <:+ key.toList
  | .keyword => name.toList <:+: key.toList

namespace PlainName
variable {name : String}

theorem clean_stem (plain : PlainName name) :
    ∀ c ∈ (stem name).toList, isBlank c = false ∧ c ≠ '#' := by
  intro c hc
  rw [toList_stem] at hc
  exact plain.clean c (mem_of_mem_dropClosingDot hc)

theorem dropEndWhile_stem (plain : PlainName name) :
    dropEndWhile isBlank (stem name).toList = (stem name).toList :=
  dropEndWhile_eq_self fun c last => (plain.clean_stem c (List.mem_of_getLast? last)).1

theorem trimmed_stem (plain : PlainName name) : trimmed (stem name).toList = (stem name).toList :=
  trimmed_eq_self fun c hc => (plain.clean_stem c hc).1

theorem takeWhile_stem (plain : PlainName name) :
    (stem name).toList.takeWhile (· ≠ '#') = (stem name).toList :=
  List.takeWhile_eq_self_iff.mpr fun c hc => decide_eq_true (plain.clean_stem c hc).2

theorem undotted_stem (plain : PlainName name) :
    dropEndWhile (· = '.') (stem name).toList = (stem name).toList :=
  dropEndWhile_eq_self fun _ last => decide_eq_false fun dot => plain.undotted (dot ▸ last)

theorem normalize_stem (plain : PlainName name) :
    normalize (stem name) = Text.lower (stem name) := by
  rw [normalize, normalChars, plain.trimmed_stem, plain.undotted_stem, Text.lower]

/-- The store keeps the entry of a plain name as it is. -/
theorem stored (plain : PlainName name) (f : EntryFormat) :
    stored? f name = some (f.entry (stem name).toList) := by
  refine stored?_eq_some.mpr ⟨plain.named, ?_, by rw [plain.dropEndWhile_stem]⟩
  intro c hc
  rw [plain.dropEndWhile_stem] at hc
  have word := (plain.clean_stem c hc).1
  constructor
  · intro feed
    rw [feed] at word
    exact absurd word (by decide)
  · intro ret
    rw [ret] at word
    exact absurd word (by decide)

theorem record_entry (plain : PlainName name) (f : EntryFormat) :
    record (f.entry (stem name).toList) = some (f.entry (stem name).toList) := by
  rw [EntryFormat.record_entry, plain.takeWhile_stem, plain.dropEndWhile_stem]

theorem accepts_entry [PatternLanguage] (plain : PlainName name) (f : EntryFormat) :
    Recipe.domains.Accepts (f.entry (stem name).toList) := by
  rw [EntryFormat.accepts_entry, plain.trimmed_stem]
  exact mt String.toList_eq_nil_iff.mp plain.named

/-- What the entry of a plain name finds. -/
theorem hits_entry [PatternLanguage] (plain : PlainName name) (f : EntryFormat)
    (default : RuleKind) {key : String} (some : key ≠ "") :
    RuleKind.RuleHits default (f.entry (stem name).toList) key ↔
      f.Covers (Text.lower (stem name)) key := by
  have chars : key.toList ≠ [] := mt String.toList_eq_nil_iff.mp some
  have lower : (Text.lower (stem name)).toList ≠ [] := by
    rw [toList_lower, Ne, List.map_eq_nil_iff]
    exact mt String.toList_eq_nil_iff.mp plain.named
  rw [EntryFormat.ruleHits_entry, plain.trimmed_stem, String.ofList_toList]
  cases f with
  | full => simp only [EntryFormat.kind, RuleKind.Hits, EntryFormat.Covers, plain.normalize_stem]
  | domain =>
      simp only [EntryFormat.kind, RuleKind.Hits, EntryFormat.Covers, plain.normalize_stem,
        mem_nameAndSuffixes chars, String.toList_inj]
      rw [eq_comm, and_iff_right lower]
  | keyword =>
      simp only [EntryFormat.kind, RuleKind.Hits, EntryFormat.Covers, Text.contains, occurs_iff]

/-- A dot that closes a plain name does not count. -/
theorem normalize_name (plain : PlainName name) : normalize name = Text.lower (stem name) := by
  have words : trimmed name.toList = name.toList :=
    trimmed_eq_self fun c hc => (plain.clean c hc).1
  have dots : dropEndWhile (· = '.') name.toList = (stem name).toList := by
    rcases dropClosingDot_cases name.toList with whole | whole
    · rw [whole, ← toList_stem, plain.undotted_stem]
    · rw [whole, ← toList_stem, dropEndWhile_append_all (by simp), plain.undotted_stem]
  rw [normalize, normalChars, words, dots, Text.lower]

end PlainName
end LiveRules.Collect
