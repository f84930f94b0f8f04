import LiveRules.Rules.Name
import LiveRules.Proofs.Text.Search

/-!
# Names in normal form

A normal form starts with no white space, ends in no dot and has no capital letters. It may
end in white space, if some stands before the dots that close a name. Exactly then its own
normal form is another one.
-/
namespace LiveRules
open Text

/-- Only capital letters have another lower form. -/
theorem toLower_cases (c : Char) :
    c.toLower = c ∨ 65 ≤ c.toNat ∧ c.toNat ≤ 90 ∧ c.toLower.toNat = c.toNat + 32 := by
  unfold Char.toLower
  split
  · rename_i capital
    simp only [ge_iff_le, UInt32.le_iff_toNat_le] at capital
    obtain ⟨low, high⟩ := capital
    have least : c.val.toNat ≥ 65 := low
    have most : c.val.toNat ≤ 90 := high
    refine .inr ⟨least, most, (UInt32.toNat_add _ _).trans ?_⟩
    exact Nat.mod_eq_of_lt (Nat.lt_of_le_of_lt (Nat.add_le_add_right most 32) (by decide))
  · exact .inl rfl

theorem toLower_eq_dot {c : Char} (dot : c.toLower = '.') : c = '.' := by
  rcases toLower_cases c with same | ⟨_, _, lower⟩
  · exact same.symm.trans dot
  · rw [dot] at lower
    have : '.'.toNat = 46 := rfl
    omega

theorem toLower_toLower (c : Char) : c.toLower.toLower = c.toLower := by
  rcases toLower_cases c with same | ⟨_, _, lower⟩
  · rw [same, same]
  · rcases toLower_cases c.toLower with same | ⟨_, high, _⟩
    · exact same
    · omega

theorem isBlank_letter {c : Char} (low : 65 ≤ c.toNat) (high : c.toNat ≤ 122) :
    isBlank c = false := by
  simp only [isBlank, blankRanges, List.any_cons, List.any_nil, Bool.or_false,
    Bool.or_eq_false_iff, Bool.and_eq_false_iff, decide_eq_false_iff_not]
  omega

theorem isBlank_toLower (c : Char) : isBlank c.toLower = isBlank c := by
  rcases toLower_cases c with same | ⟨low, high, lower⟩
  · rw [same]
  · rw [isBlank_letter (by omega) (by omega), isBlank_letter low (by omega)]

/-- No name in normal form ends in a dot. -/
theorem normalChars_undotted (cs : List Char) : ¬ ['.'] <:+ normalChars cs := by
  intro ⟨front, ends⟩
  rw [normalChars, eq_comm, List.map_eq_append_iff] at ends
  obtain ⟨xs, ys, kept, -, last⟩ := ends
  obtain ⟨c, rfl, dot⟩ := List.map_eq_singleton_iff.mp last
  have ends : (dropEndWhile (· = '.') (trimmed cs)).getLast? = some c := by
    rw [kept, List.getLast?_concat]
  have open_ := getLast_dropEndWhile c ends
  simp [toLower_eq_dot dot] at open_

/-- No name in normal form starts with white space. -/
theorem dropWhile_normalChars (cs : List Char) :
    (normalChars cs).dropWhile isBlank = normalChars cs := by
  obtain ⟨dots, whole, -⟩ := exists_dropEndWhile (· = '.') (trimmed cs)
  rw [normalChars]
  cases kept : dropEndWhile (· = '.') (trimmed cs) with
  | nil => rfl
  | cons c rest =>
      have front : (trimmed cs).dropWhile isBlank = trimmed cs := dropWhile_dropEndWhile
      rw [whole, kept, List.cons_append] at front
      have printed : ¬ isBlank c = true := fun blank => by
        rw [List.dropWhile_cons_of_pos blank] at front
        have shorter := (List.dropWhile_suffix isBlank (l := rest ++ dots)).length_le
        rw [front, List.length_cons] at shorter
        omega
      rw [List.map_cons, List.dropWhile_cons_of_neg (by rwa [isBlank_toLower])]

theorem length_dropEndWhile_le (p : Char → Bool) (xs : List Char) :
    (dropEndWhile p xs).length ≤ xs.length := by
  obtain ⟨ys, whole, -⟩ := exists_dropEndWhile p xs
  have lengths := congrArg List.length whole
  rw [List.length_append] at lengths
  omega

theorem normalChars_eq_self_iff (cs : List Char) :
    normalChars (normalChars cs) = normalChars cs ↔
      ∀ c, (normalChars cs).getLast? = some c → isBlank c = false := by
  have dots : dropEndWhile (· = '.') (normalChars cs) = normalChars cs := by
    refine dropEndWhile_eq_self fun c last => decide_eq_false ?_
    rintro rfl
    obtain ⟨front, whole⟩ := List.getLast?_eq_some_iff.mp last
    exact normalChars_undotted cs ⟨front, whole.symm⟩
  have lower : (normalChars cs).map Char.toLower = normalChars cs := by
    rw [normalChars, List.map_map]
    exact List.map_congr_left fun c _ => toLower_toLower c
  have again : normalChars (normalChars cs) =
      (dropEndWhile (· = '.') (dropEndWhile isBlank (normalChars cs))).map Char.toLower := by
    rw [normalChars, trimmed, dropWhile_normalChars]
  constructor
  · intro same c last
    have kept : dropEndWhile isBlank (normalChars cs) = normalChars cs := by
      have lengths := congrArg List.length (again.symm.trans same)
      rw [List.length_map] at lengths
      have dropped := length_dropEndWhile_le (· = '.') (dropEndWhile isBlank (normalChars cs))
      obtain ⟨blanks, whole, -⟩ := exists_dropEndWhile isBlank (normalChars cs)
      have front : dropEndWhile isBlank (normalChars cs) <+: normalChars cs := ⟨blanks, whole.symm⟩
      exact front.eq_of_length_le (by omega)
    exact getLast_dropEndWhile c (kept.symm ▸ last)
  · intro last
    rw [again, dropEndWhile_eq_self last, dots, lower]

/-- A normal form is its own normal form unless it ends in white space. -/
theorem normalize_eq_self_iff (s : String) : normalize (normalize s) = normalize s ↔
    ∀ c, (normalize s).toList.getLast? = some c → isBlank c = false := by
  rw [← String.toList_inj, toList_normalize, toList_normalize, normalChars_eq_self_iff]

end LiveRules
