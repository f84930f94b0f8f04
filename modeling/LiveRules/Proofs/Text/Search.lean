import LiveRules.Proofs.Text.Trim
import LiveRules.Text.Lines

/-!
# Texts inside texts

Where a text occurs in another one, where a text is cut, and what is left of a trimmed
text once its end is cut off.
-/
namespace LiveRules.Text

theorem occurs_iff {needle cs : List Char} : occurs needle cs = true ↔ needle <:+: cs := by
  induction cs with
  | nil => simp [occurs]
  | cons c cs ih =>
      rw [occurs, Bool.or_eq_true, List.isPrefixOf_iff_prefix, ih, List.infix_cons_iff]

theorem cutAt_append {sep : Char} {xs : List Char} (clean : sep ∉ xs) (ys : List Char) :
    cutAt sep (xs ++ sep :: ys) = some (xs, ys) := by
  induction xs with
  | nil => simp [cutAt]
  | cons c cs ih =>
      have other : c ≠ sep := fun same => clean (by simp [same])
      have rest := ih fun h => clean (by simp [h])
      rw [List.cons_append, cutAt, if_neg other, rest, Option.map_some]

theorem trimmed_eq_self {xs : List Char} (clean : ∀ c ∈ xs, isBlank c = false) :
    trimmed xs = xs :=
  Tight.trimmed ⟨fun c first => clean c (List.mem_of_head? first),
    fun c last => clean c (List.mem_of_getLast? last)⟩

theorem trimmed_dropEndWhile (cs : List Char) :
    trimmed (dropEndWhile isBlank cs) = trimmed cs := by
  obtain ⟨after, whole, blank⟩ := exists_dropEndWhile isBlank cs
  have same := @trimmed_append_blank (dropEndWhile isBlank cs) after blank
  rw [← same, ← whole]

/-- The part up to a character that is no white space is the same, but for white space,
whether the end of a text is dropped before it is cut or not. -/
theorem trimmed_takeWhile_dropEndWhile {p : Char → Bool}
    (blank : ∀ c, isBlank c = true → p c = true) (cs : List Char) :
    trimmed ((dropEndWhile isBlank cs).takeWhile p) = trimmed (cs.takeWhile p) := by
  obtain ⟨after, whole, blankAfter⟩ := exists_dropEndWhile isBlank cs
  have ends : after.takeWhile p = after :=
    List.takeWhile_eq_self_iff.mpr fun c hc => blank c (blankAfter c hc)
  have cut : cs.takeWhile p = (dropEndWhile isBlank cs ++ after).takeWhile p :=
    congrArg (List.takeWhile p) whole
  rw [cut, List.takeWhile_append]
  split
  · rename_i all
    have full : (dropEndWhile isBlank cs).takeWhile p = dropEndWhile isBlank cs :=
      (List.takeWhile_prefix p).eq_of_length all
    rw [ends, trimmed_append_blank blankAfter, full]
  · rfl

/-- The same is true of a text that is trimmed before it is cut. -/
theorem trimmed_takeWhile {p : Char → Bool} (blank : ∀ c, isBlank c = true → p c = true)
    (cs : List Char) : trimmed ((trimmed cs).takeWhile p) = trimmed (cs.takeWhile p) := by
  have front : ∀ c ∈ cs.takeWhile isBlank, isBlank c = true := fun _ => List.mem_takeWhile_imp
  have starts : cs.takeWhile p = cs.takeWhile isBlank ++ (cs.dropWhile isBlank).takeWhile p :=
    (congrArg (List.takeWhile p) List.takeWhile_append_dropWhile.symm).trans
      (List.takeWhile_append_of_pos fun c hc => blank c (front c hc))
  rw [starts, trimmed_blank_append front]
  exact trimmed_takeWhile_dropEndWhile blank (cs.dropWhile isBlank)

end LiveRules.Text
