import LiveRules.Proofs.Text.Trim
import LiveRules.Text.Lines

/-!
# Lines and pieces

Once they are trimmed, the lines of a text are its pieces between line feeds, so
whatever is known of pieces is known of lines.
-/
namespace LiveRules.Text

theorem isBlank_return : isBlank '\r' = true := by decide

theorem pieces_append_sep (sep : Char) (xs ys : List Char) :
    pieces sep (xs ++ sep :: ys) = pieces sep xs ++ pieces sep ys := by
  induction xs with
  | nil => simp [pieces]
  | cons c cs ih =>
      rw [List.cons_append, pieces, pieces, ih]
      split
      · rfl
      · cases hp : pieces sep cs with
        | nil => exact absurd hp (pieces_ne_nil sep cs)
        | cons p ps => rfl

theorem pieces_eq_singleton {sep : Char} {xs : List Char} (clean : sep ∉ xs) :
    pieces sep xs = [xs] := by
  induction xs with
  | nil => rfl
  | cons c cs ih =>
      have hc : c ≠ sep := fun same => clean (by simp [same])
      rw [pieces, if_neg hc, ih fun h => clean (by simp [h])]

theorem sep_not_mem_piece {sep : Char} {xs p : List Char} (h : p ∈ pieces sep xs) :
    sep ∉ p := by
  induction xs generalizing p with
  | nil => simp_all [pieces]
  | cons c cs ih =>
      obtain ⟨q, qs, hq⟩ := List.exists_cons_of_ne_nil (pieces_ne_nil sep cs)
      rw [pieces, hq] at h
      rw [hq] at ih
      by_cases hc : c = sep
      · rw [if_pos hc] at h
        rcases List.mem_cons.mp h with rfl | h
        · exact List.not_mem_nil
        · exact ih h
      · rw [if_neg hc] at h
        rcases List.mem_cons.mp h with rfl | h
        · have rest : sep ∉ q := ih List.mem_cons_self
          simpa [rest] using Ne.symm hc
        · exact ih (List.mem_cons_of_mem q h)

/-- What follows the last separator. -/
def lastPiece (sep : Char) (xs : List Char) : List Char :=
  (pieces sep xs).getLast (pieces_ne_nil sep xs)

/-- Text without a separator goes to the last piece. -/
theorem pieces_append_clean {sep : Char} {ys : List Char} (clean : sep ∉ ys) (xs : List Char) :
    pieces sep (xs ++ ys) = (pieces sep xs).dropLast ++ [lastPiece sep xs ++ ys] := by
  induction xs with
  | nil => exact pieces_eq_singleton clean
  | cons c cs ih =>
      obtain ⟨p, ps, hp⟩ := List.exists_cons_of_ne_nil (pieces_ne_nil sep cs)
      have last : lastPiece sep cs = (p :: ps).getLast (by simp) := by
        simp only [lastPiece, hp]
      rw [hp, last] at ih
      rw [List.cons_append, pieces, ih]
      by_cases hc : c = sep
      · simp only [lastPiece, pieces, hc, if_true, hp]
        rw [List.dropLast_cons_cons, List.getLast_cons_cons, List.cons_append]
      · simp only [lastPiece, pieces, hc, if_false, hp]
        cases ps with
        | nil => rfl
        | cons q qs => simp

theorem lastPiece_append_sep (sep : Char) (xs ys : List Char) :
    lastPiece sep (xs ++ sep :: ys) = lastPiece sep ys := by
  simp only [lastPiece, pieces_append_sep]
  rw [List.getLast_append_of_ne_nil]

theorem trimmed_dropReturn (xs : List Char) : trimmed (dropReturn xs) = trimmed xs := by
  obtain ⟨ys, whole, blank⟩ : ∃ ys, xs = dropReturn xs ++ ys ∧ ∀ c ∈ ys, isBlank c = true := by
    fun_induction dropReturn xs with
    | case1 => exact ⟨[], rfl, by simp⟩
    | case2 => exact ⟨['\r'], rfl, by simpa using isBlank_return⟩
    | case3 c cs _ ih =>
        obtain ⟨ys, whole, blank⟩ := ih
        exact ⟨ys, by rw [List.cons_append, ← whole], blank⟩
  calc trimmed (dropReturn xs)
      = trimmed (dropReturn xs ++ ys) := (trimmed_append_blank blank).symm
    _ = trimmed xs := by rw [← whole]

/-- The first piece goes on from what has been read of its line. -/
def resume (line : List Char) : List (List Char) → List (List Char)
  | [] => [line]
  | p :: ps => (line ++ p) :: ps

theorem resume_nil {ps : List (List Char)} (some : ps ≠ []) : resume [] ps = ps := by
  obtain ⟨p, ps, rfl⟩ := List.exists_cons_of_ne_nil some
  rfl

theorem resume_pieces_cons {c : Char} (text : c ≠ '\n') (line cs : List Char) :
    resume line (pieces '\n' (c :: cs)) = resume (line ++ [c]) (pieces '\n' cs) := by
  obtain ⟨p, ps, hp⟩ := List.exists_cons_of_ne_nil (pieces_ne_nil '\n' cs)
  rw [pieces, if_neg text, hp, resume, resume, List.append_assoc]
  rfl

theorem filterMap_linesFrom {α : Type} {f : List Char → Option α}
    (trim : ∀ l l', trimmed l = trimmed l' → f l = f l') (empty : f [] = none)
    (line cs : List Char) :
    (linesFrom line cs).filterMap f = (resume line (pieces '\n' cs)).filterMap f := by
  induction cs generalizing line with
  | nil => by_cases none : line = [] <;> simp [linesFrom, none, pieces, resume, empty]
  | cons c cs ih =>
      by_cases hc : c = '\n'
      · subst hc
        rw [linesFrom, pieces, if_pos rfl, resume, List.append_nil, List.filterMap_cons,
          List.filterMap_cons, ih, resume_nil (pieces_ne_nil '\n' cs),
          trim _ _ (trimmed_dropReturn line)]
      · rw [linesFrom, ih, resume_pieces_cons hc]
        simpa using hc

/-- What is made of the lines is made of the pieces, if white space around a line and
lines without anything make no difference. -/
theorem filterMap_lines {α : Type} {f : List Char → Option α}
    (trim : ∀ l l', trimmed l = trimmed l' → f l = f l') (empty : f [] = none)
    (cs : List Char) : (linesFrom [] cs).filterMap f = (pieces '\n' cs).filterMap f := by
  rw [filterMap_linesFrom trim empty, resume_nil (pieces_ne_nil '\n' cs)]

/-- Trimmed lines and trimmed pieces are the same, but for those that are blank. -/
theorem exists_lines {t : List Char} (some : t ≠ []) (cs : List Char) :
    (∃ l ∈ linesFrom [] cs, trimmed l = t) ↔ ∃ l ∈ pieces '\n' cs, trimmed l = t := by
  have same := filterMap_lines (f := fun l => if trimmed l = t then Option.some () else none)
    (fun l l' trim => by rw [trim]) (if_neg fun empty => some empty.symm) cs
  have member := congrArg (() ∈ ·) same
  simpa [List.mem_filterMap] using member

end LiveRules.Text
