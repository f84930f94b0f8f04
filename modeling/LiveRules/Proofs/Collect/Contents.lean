import LiveRules.Collect.Store
import LiveRules.Proofs.Text.Lines
import Mathlib.Data.List.Induction

/-!
# Contents of collect files

The entries that a file holds, and what becomes of them when a line is appended
or the file is replaced. An appended line joins whatever the last line holds, so
all is well only if nothing but white space follows the last line feed.
-/
namespace LiveRules.Collect
open Text

/-- What a line can hold once it is trimmed. -/
structure IsEntry (e : String) : Prop where
  some : e.toList ≠ []
  single : '\n' ∉ e.toList
  trim : trimmed e.toList = e.toList

/-- Without the white space around it, the text is a line that is not empty. -/
def IsLine (text : String) : Prop :=
  Text.trim text ≠ "" ∧ '\n' ∉ (Text.trim text).toList ∧ '\r' ∉ (Text.trim text).toList

theorem storable?_eq_some {text e : String} :
    Store.storable? text = some e ↔ Text.trim text = e ∧ IsLine text := by
  have broken : (Text.trim text).toList.any (fun c => c = '\n' || c = '\r') = true ↔
      '\n' ∈ (Text.trim text).toList ∨ '\r' ∈ (Text.trim text).toList := by
    simp [List.any_eq_true, and_or_left, exists_or]
  simp only [Store.storable?, IsLine, Bool.or_eq_true, String.isEmpty_iff, broken, ← not_or]
  by_cases refused : Text.trim text = "" ∨
      '\n' ∈ (Text.trim text).toList ∨ '\r' ∈ (Text.trim text).toList
  · rw [if_pos refused]
    exact iff_of_false (Option.some_ne_none e).symm fun stored => stored.2 refused
  · rw [if_neg refused, Option.some.injEq, and_iff_left refused]

theorem isEntry_of_storable {text e : String} (h : Store.storable? text = some e) :
    IsEntry e := by
  obtain ⟨rfl, some, single, -⟩ := storable?_eq_some.mp h
  refine ⟨fun nil => some (String.toList_eq_nil_iff.mp nil), single, ?_⟩
  rw [toList_trim, trimmed_trimmed]

theorem mem_entriesOf {e s : String} :
    e ∈ entriesOf s ↔ e.toList ≠ [] ∧ ∃ p ∈ pieces '\n' s.toList, trimmed p = e.toList := by
  have lines : (∃ l ∈ linesFrom [] s.toList, trimmed l = e.toList) ↔
      ∃ l ∈ Text.lines s, Text.trim l = e := by
    simp only [Text.lines, Text.trim, List.mem_map, exists_exists_and_eq_and,
      String.toList_ofList]
    refine exists_congr fun l => and_congr_right fun _ => ?_
    rw [← String.toList_inj, String.toList_ofList]
  rw [entriesOf, List.mem_eraseDups, List.mem_filter, List.mem_map, ← lines]
  constructor
  · rintro ⟨found, some⟩
    have some : e.toList ≠ [] := by simpa using some
    exact ⟨some, (exists_lines some s.toList).mp found⟩
  · rintro ⟨some, found⟩
    exact ⟨(exists_lines some s.toList).mpr found, by simpa using some⟩

theorem isEntry_of_mem {e s : String} (h : e ∈ entriesOf s) : IsEntry e := by
  obtain ⟨some, p, hp, htrim⟩ := mem_entriesOf.mp h
  refine ⟨some, ?_, by rw [← htrim, trimmed_trimmed]⟩
  rw [← htrim]
  exact fun feed => sep_not_mem_piece hp (trimmed_subset feed)

theorem nodup_eraseDups {α : Type} [BEq α] [LawfulBEq α] (l : List α) : l.eraseDups.Nodup := by
  induction hn : l.length using Nat.strongRecOn generalizing l with
  | ind n ih =>
      cases l with
      | nil => simp
      | cons a as =>
          rw [List.eraseDups_cons, List.nodup_cons]
          constructor
          · simp [List.mem_eraseDups]
          · refine ih _ ?_ _ rfl
            have shorter := List.length_filter_le (fun b => !b == a) as
            simp only [List.length_cons] at hn
            omega

/-- Nothing but white space follows the last line feed. -/
def Ended (s : String) : Prop := ∀ c ∈ lastPiece '\n' s.toList, isBlank c = true

instance (s : String) : Decidable (Ended s) :=
  inferInstanceAs (Decidable (∀ c ∈ lastPiece '\n' s.toList, isBlank c = true))

theorem ended_empty : Ended "" := by
  intro c hc
  simp [lastPiece, pieces] at hc

theorem ended_line (s : String) : Ended (s ++ "\n") := by
  intro c hc
  rw [String.toList_append, show "\n".toList = '\n' :: [] from rfl, lastPiece_append_sep] at hc
  simp [lastPiece, pieces] at hc

theorem ended_of_terminated {s : String} (h : s = "" ∨ ∃ t, s = t ++ "\n") : Ended s := by
  rcases h with rfl | ⟨t, rfl⟩
  · exact ended_empty
  · exact ended_line t

/-- The pieces of a text, and of the text with a line after it. -/
theorem pieces_line (s : String) {e : String} (entry : IsEntry e) :
    ∃ closed, pieces '\n' s.toList = closed ++ [lastPiece '\n' s.toList] ∧
      pieces '\n' (s ++ (e ++ "\n")).toList =
        closed ++ [lastPiece '\n' s.toList ++ e.toList, []] := by
  refine ⟨(pieces '\n' s.toList).dropLast, (List.dropLast_concat_getLast _).symm, ?_⟩
  rw [String.toList_append, String.toList_append, show "\n".toList = '\n' :: [] from rfl,
    ← List.append_assoc, pieces_append_sep, pieces_append_clean entry.single, List.append_assoc]
  rfl

/-- A line after an ended text is one more entry. -/
theorem mem_entriesOf_line {s e e' : String} (ended : Ended s) (entry : IsEntry e) :
    e' ∈ entriesOf (s ++ (e ++ "\n")) ↔ e' ∈ entriesOf s ∨ e' = e := by
  obtain ⟨closed, before, after⟩ := pieces_line s entry
  have joined : trimmed (lastPiece '\n' s.toList ++ e.toList) = e.toList := by
    rw [trimmed_blank_append ended, entry.trim]
  have blank : trimmed (lastPiece '\n' s.toList) = [] := trimmed_eq_nil.mpr ended
  have none : trimmed [] = [] := rfl
  have same : e.toList = e'.toList ↔ e' = e := by rw [String.toList_inj, eq_comm]
  rw [mem_entriesOf, mem_entriesOf, before, after]
  simp only [List.mem_append, List.mem_cons, List.not_mem_nil, or_false, or_and_right,
    exists_or, exists_eq_left, joined, blank, none, same]
  constructor
  · rintro ⟨some, found | rfl | empty⟩
    · exact .inl ⟨some, .inl found⟩
    · exact .inr rfl
    · exact absurd empty.symm some
  · rintro (⟨some, found | empty⟩ | rfl)
    · exact ⟨some, .inl found⟩
    · exact absurd empty.symm some
    · exact ⟨entry.some, .inr (.inl rfl)⟩

/-- After a text that is not ended, a line is lost in the last line of the text. -/
theorem not_mem_entriesOf_line {s e : String} (open_ : ¬ Ended s) (entry : IsEntry e)
    (new : e ∉ entriesOf s) : e ∉ entriesOf (s ++ (e ++ "\n")) := by
  obtain ⟨closed, before, after⟩ := pieces_line s entry
  intro found
  obtain ⟨some, p, hp, trim⟩ := mem_entriesOf.mp found
  rw [after] at hp
  rcases List.mem_append.mp hp with hp | hp
  · exact new (mem_entriesOf.mpr ⟨some, p, by rw [before]; exact List.mem_append_left _ hp, trim⟩)
  simp only [List.mem_cons, List.not_mem_nil, or_false] at hp
  rcases hp with rfl | rfl
  · rw [trimmed_append_trimmed entry.trim some open_] at trim
    have kept : (lastPiece '\n' s.toList).dropWhile isBlank = [] :=
      List.append_left_eq_self.mp trim
    exact open_ (List.dropWhile_eq_nil_iff.mp kept)
  · exact some trim.symm

theorem ended_fileOf (es : List String) : Ended (fileOf es) := by
  apply ended_of_terminated
  induction es using List.reverseRecOn with
  | nil => exact .inl rfl
  | append_singleton es e =>
      refine .inr ⟨fileOf es ++ e, ?_⟩
      simp [fileOf, String.join_append, String.append_assoc]

/-- Lines after an ended text are so many more entries. -/
theorem mem_entriesOf_lines {s : String} (ended : Ended s) {es : List String}
    (entries : ∀ e ∈ es, IsEntry e) (e : String) :
    e ∈ entriesOf (s ++ fileOf es) ↔ e ∈ entriesOf s ∨ e ∈ es := by
  induction es generalizing s with
  | nil => simp [fileOf]
  | cons x xs ih =>
      have whole : s ++ fileOf (x :: xs) = s ++ (x ++ "\n") ++ fileOf xs := by
        simp [fileOf, String.join_cons, String.append_assoc]
      have next : Ended (s ++ (x ++ "\n")) := by
        rw [← String.append_assoc]
        exact ended_line _
      rw [whole, ih next fun e he => entries e (by simp [he]),
        mem_entriesOf_line ended (entries x (by simp)), List.mem_cons, or_assoc]

/-- A replaced file holds the entries that were written. -/
theorem mem_entriesOf_fileOf {es : List String} (entries : ∀ e ∈ es, IsEntry e) (e : String) :
    e ∈ entriesOf (fileOf es) ↔ e ∈ es := by
  have lines := mem_entriesOf_lines ended_empty entries e
  simpa [show entriesOf "" = [] from rfl] using lines

end LiveRules.Collect
