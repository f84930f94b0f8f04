import LiveRules.Text.Blank
import Mathlib.Data.List.TakeWhile

/-!
# Trimming

Trimming takes white space from both ends and nothing else, so a second trimming
changes nothing.
-/
namespace LiveRules.Text
variable {p : Char → Bool} {xs ys : List Char}

attribute [grind =] dropEndWhile

theorem dropEndWhile_eq_nil : dropEndWhile p xs = [] ↔ ∀ c ∈ xs, p c = true := by
  induction xs with
  | nil => simp [dropEndWhile]
  | cons c cs ih =>
      rw [dropEndWhile, List.forall_mem_cons, ← ih]
      split
      · rename_i none
        by_cases hc : p c = true <;> simp [hc, none]
      · rename_i some
        simpa using fun _ => some

theorem dropEndWhile_append_all (all : ∀ c ∈ ys, p c = true) :
    dropEndWhile p (xs ++ ys) = dropEndWhile p xs := by
  induction xs with
  | nil => simpa [dropEndWhile] using dropEndWhile_eq_nil.mpr all
  | cons c cs ih => rw [List.cons_append, dropEndWhile, dropEndWhile, ih]

theorem dropEndWhile_append (some : dropEndWhile p ys ≠ []) :
    dropEndWhile p (xs ++ ys) = xs ++ dropEndWhile p ys := by
  induction xs with
  | nil => rfl
  | cons c cs ih =>
      rw [List.cons_append, dropEndWhile, ih, List.cons_append]
      split
      · rename_i none
        exact absurd (List.append_eq_nil_iff.mp none).2 some
      · rfl

/-- What is dropped at the end. -/
theorem exists_dropEndWhile (p : Char → Bool) (xs : List Char) :
    ∃ ys, xs = dropEndWhile p xs ++ ys ∧ ∀ c ∈ ys, p c = true := by
  induction xs with
  | nil => exact ⟨[], rfl, by simp⟩
  | cons c cs ih =>
      obtain ⟨ys, whole, all⟩ := ih
      rw [dropEndWhile]
      split
      · rename_i none
        rw [none, List.nil_append] at whole
        by_cases hc : p c = true
        · exact ⟨c :: ys, by rw [if_pos hc, ← whole, List.nil_append], by simpa [hc] using all⟩
        · exact ⟨ys, by rw [if_neg hc, ← whole, List.singleton_append], all⟩
      · exact ⟨ys, by rw [List.cons_append, ← whole], all⟩

/-- What is left ends in a character that is not dropped. -/
theorem getLast_dropEndWhile : ∀ c ∈ (dropEndWhile p xs).getLast?, p c = false := by
  induction xs with
  | nil => exact nofun
  | cons c cs ih =>
      rw [dropEndWhile]
      rcases kept : dropEndWhile p cs with _ | ⟨d, ds⟩
      · by_cases hc : p c = true <;> simp [hc]
      · simpa [kept] using ih

theorem dropEndWhile_eq_self (last : ∀ c ∈ xs.getLast?, p c = false) :
    dropEndWhile p xs = xs := by
  induction xs with
  | nil => rfl
  | cons c cs ih =>
      rcases cs with _ | ⟨d, ds⟩
      · simpa [dropEndWhile] using last
      · rw [dropEndWhile, ih (by simpa using last)]

theorem dropEndWhile_dropEndWhile : dropEndWhile p (dropEndWhile p xs) = dropEndWhile p xs :=
  dropEndWhile_eq_self getLast_dropEndWhile

theorem dropEndWhile_subset : dropEndWhile p xs ⊆ xs := by
  obtain ⟨dropped, split, -⟩ := exists_dropEndWhile p xs
  exact fun c kept => split ▸ List.mem_append_left dropped kept

/-- Nothing is left at the front that the condition holds of. -/
theorem dropWhile_dropEndWhile :
    (dropEndWhile p (xs.dropWhile p)).dropWhile p = dropEndWhile p (xs.dropWhile p) := by
  induction xs with
  | nil => rfl
  | cons c cs ih =>
      by_cases hc : p c = true
      · rwa [List.dropWhile_cons_of_pos hc]
      · rw [List.dropWhile_cons_of_neg hc, dropEndWhile]
        split
        · simp [hc]
        · rw [List.dropWhile_cons_of_neg hc]

theorem trimmed_eq_nil : trimmed xs = [] ↔ ∀ c ∈ xs, isBlank c = true := by
  rw [trimmed, dropEndWhile_eq_nil]
  constructor
  · intro all c hc
    by_cases skipped : xs.dropWhile isBlank = []
    · exact List.dropWhile_eq_nil_iff.mp skipped c hc
    · have head := List.head_dropWhile_not isBlank skipped
      have := all _ (List.head_mem skipped)
      simp [this] at head
  · intro all c hc
    exact all c ((List.dropWhile_suffix _).subset hc)

theorem trimmed_append_blank (blank : ∀ c ∈ ys, isBlank c = true) :
    trimmed (xs ++ ys) = trimmed xs := by
  rw [trimmed, trimmed, List.dropWhile_append]
  split
  · rename_i skipped
    rw [List.isEmpty_iff.mp skipped, List.dropWhile_eq_nil_iff.mpr blank]
  · exact dropEndWhile_append_all blank

theorem trimmed_blank_append (blank : ∀ c ∈ xs, isBlank c = true) :
    trimmed (xs ++ ys) = trimmed ys := by
  rw [trimmed, trimmed, List.dropWhile_append_of_pos blank]

/-- Neither end is white space. -/
def Tight (cs : List Char) : Prop :=
  (∀ c ∈ cs.head?, isBlank c = false) ∧ ∀ c ∈ cs.getLast?, isBlank c = false

theorem Tight.trimmed {cs : List Char} (tight : Tight cs) : trimmed cs = cs := by
  have first : cs.dropWhile isBlank = cs := by
    rcases cs with _ | ⟨c, rest⟩
    · rfl
    · rw [List.dropWhile_cons_of_neg (by simp [tight.1 c rfl])]
  rw [Text.trimmed, first, dropEndWhile_eq_self tight.2]

/-- Trimming takes the white space around a text without white space at its ends. -/
theorem trimmed_eq_iff : trimmed xs = ys ↔ Tight ys ∧ ∃ before after,
    xs = before ++ (ys ++ after) ∧
    (∀ c ∈ before, isBlank c = true) ∧ ∀ c ∈ after, isBlank c = true := by
  constructor
  · rintro rfl
    obtain ⟨after, split, blank⟩ := exists_dropEndWhile isBlank (xs.dropWhile isBlank)
    refine ⟨⟨fun c head => ?_, getLast_dropEndWhile⟩, xs.takeWhile isBlank, after, ?_, ?_, blank⟩
    · rw [trimmed, ← dropWhile_dropEndWhile] at head
      have clear := List.head?_dropWhile_not isBlank (dropEndWhile isBlank (xs.dropWhile isBlank))
      rw [Option.mem_def.mp head] at clear
      simpa using clear
    · exact (List.takeWhile_append_dropWhile).symm.trans (congrArg _ split)
    · exact fun c taken => List.mem_takeWhile_imp taken
  · rintro ⟨tight, before, after, rfl, blank, blank'⟩
    rw [trimmed_blank_append blank, trimmed_append_blank blank', tight.trimmed]

theorem trimmed_trimmed : trimmed (trimmed xs) = trimmed xs :=
  (trimmed_eq_iff.mp rfl).1.trimmed

theorem trimmed_subset : trimmed xs ⊆ xs := by
  intro c hc
  exact (List.dropWhile_suffix _).subset (dropEndWhile_subset hc)

/-- Text before a trimmed one stays, but for the white space in front. -/
theorem trimmed_append_trimmed (trim : trimmed ys = ys) (some : ys ≠ [])
    (before : ¬ ∀ c ∈ xs, isBlank c = true) :
    trimmed (xs ++ ys) = xs.dropWhile isBlank ++ ys := by
  have kept : xs.dropWhile isBlank ≠ [] := fun h => before (List.dropWhile_eq_nil_iff.mp h)
  have ends : dropEndWhile isBlank ys = ys := by
    rw [← trim, trimmed, dropEndWhile_dropEndWhile]
  rw [trimmed, List.dropWhile_append, if_neg (by simpa using kept),
    dropEndWhile_append (by rwa [ends]), ends]

end LiveRules.Text
