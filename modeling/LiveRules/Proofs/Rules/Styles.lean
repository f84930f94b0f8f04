import LiveRules.Proofs.Rules.Records
import LiveRules.Proofs.Text.Lines

/-!
# Rule files in another style

Whoever edits a rule file may end its lines in another way, put comments after its rules
or lines without a rule between them. None of that changes the rules of the file.
-/
namespace LiveRules

/-- Nothing but white space, and perhaps a comment after it. A carriage return before the
end of a line is white space, too. -/
def Silent (text : List Char) : Prop := ∀ c ∈ text.takeWhile (· ≠ '#'), Text.isBlank c = true

/-- The lines on the right are those on the left, but for what stands after a rule, and for
lines without a rule. -/
inductive Restyled : List (List Char) → List (List Char) → Prop
  | nil : Restyled [] []
  | line (rule : List Char) {tail tail' : List Char} {lines lines' : List (List Char)}
      (silent : Silent tail) (silent' : Silent tail') (rest : Restyled lines lines') :
      Restyled ((rule ++ tail) :: lines) ((rule ++ tail') :: lines')
  | more {line : List Char} {lines lines' : List (List Char)} (silent : Silent line)
      (rest : Restyled lines lines') : Restyled lines (line :: lines')
  | fewer {line : List Char} {lines lines' : List (List Char)} (silent : Silent line)
      (rest : Restyled lines lines') : Restyled (line :: lines) lines'

/-- One content is the other in another style. -/
def RestyledFile (content content' : String) : Prop :=
  Restyled (Text.pieces '\n' content.toList) (Text.pieces '\n' content'.toList)

/-- The text with a carriage return before every line feed. -/
def withReturns (text : List Char) : List Char :=
  text.flatMap fun c => if c = '\n' then ['\r', '\n'] else [c]

/-- Other line ends are another style. -/
theorem restyled_withReturns (line text : List Char) :
    Restyled (Text.resume line (Text.pieces '\n' text))
      (Text.resume line (Text.pieces '\n' (withReturns text))) := by
  have nothing : Silent [] := by simp [Silent]
  have ending : Silent ['\r'] := by simpa [Silent] using Text.isBlank_return
  induction text generalizing line with
  | nil => exact .line line nothing nothing .nil
  | cons c cs ih =>
      by_cases feed : c = '\n'
      · subst feed
        have rest := ih []
        rw [Text.resume_nil (Text.pieces_ne_nil _ _), Text.resume_nil (Text.pieces_ne_nil _ _)]
          at rest
        exact .line line nothing ending rest
      · have kept : withReturns (c :: cs) = c :: withReturns cs := by
          rw [withReturns, List.flatMap_cons, if_neg feed]
          rfl
        rw [kept, Text.resume_pieces_cons feed, Text.resume_pieces_cons feed]
        exact ih (line ++ [c])

/-- The rule of a line, if it has one. -/
def ruleOf (line : List Char) : Option String := record (.ofList line)

theorem ruleOf_append {tail : List Char} (silent : Silent tail) (line : List Char) :
    ruleOf (line ++ tail) = ruleOf line := by
  have cut : Text.trimmed ((line ++ tail).takeWhile (· ≠ '#')) =
      Text.trimmed (line.takeWhile (· ≠ '#')) := by
    rw [List.takeWhile_append]
    split
    · rename_i all
      have whole : line.takeWhile (· ≠ '#') = line := (List.takeWhile_prefix _).eq_of_length all
      rw [Text.trimmed_append_blank silent, whole]
    · rfl
  ext rule
  rw [ruleOf, ruleOf, record_eq_some, record_eq_some, String.toList_ofList,
    String.toList_ofList, cut]

theorem ruleOf_nil : ruleOf [] = none := by decide

theorem ruleOf_silent {line : List Char} (silent : Silent line) : ruleOf line = none :=
  (ruleOf_append silent []).trans ruleOf_nil

theorem Restyled.filterMap_ruleOf {lines lines' : List (List Char)}
    (restyled : Restyled lines lines') : lines.filterMap ruleOf = lines'.filterMap ruleOf := by
  induction restyled with
  | nil => rfl
  | line rule silent silent' _ ih =>
      rw [List.filterMap_cons, List.filterMap_cons, ruleOf_append silent, ruleOf_append silent', ih]
  | more silent _ ih => rw [ih, List.filterMap_cons_none (ruleOf_silent silent)]
  | fewer silent _ ih => rw [List.filterMap_cons_none (ruleOf_silent silent), ih]

/-- The rules of a file stand between its line feeds. -/
theorem rulesOf_pieces (content : String) :
    rulesOf content = (Text.pieces '\n' content.toList).filterMap ruleOf := by
  have trim : ∀ l l', Text.trimmed l = Text.trimmed l' → ruleOf l = ruleOf l' := by
    intro l l' same
    rw [ruleOf, ruleOf, ← record_trim, ← record_trim (.ofList l'), Text.trim, Text.trim,
      String.toList_ofList, String.toList_ofList, same]
  have chars : record ∘ String.ofList = ruleOf := by
    funext l
    rw [Function.comp, ruleOf]
  calc rulesOf content
      = (Text.linesFrom [] content.toList).filterMap ruleOf := by
        rw [rulesOf, Text.lines, List.filterMap_map, chars]
    _ = (Text.pieces '\n' content.toList).filterMap ruleOf :=
        Text.filterMap_lines trim ruleOf_nil content.toList

/-- A file in another style has the same rules in the same order. -/
theorem rulesOf_restyled {content content' : String} (restyled : RestyledFile content content') :
    rulesOf content = rulesOf content' := by
  rw [rulesOf_pieces, rulesOf_pieces, restyled.filterMap_ruleOf]

/-- A file with other line ends is in another style. -/
theorem restyled_returns (content : String) :
    RestyledFile content (.ofList (withReturns content.toList)) := by
  have restyled := restyled_withReturns [] content.toList
  rwa [Text.resume_nil (Text.pieces_ne_nil _ _), Text.resume_nil (Text.pieces_ne_nil _ _),
    ← String.toList_ofList (l := withReturns content.toList)] at restyled

end LiveRules
