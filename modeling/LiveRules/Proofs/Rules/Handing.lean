import LiveRules.Rules.Source

/-!
# Items one by one

Expressions, lines and files are all gone through in the same way: each item is counted
and handled in its turn, and the first one that is refused is the last one that is
touched.
-/
namespace LiveRules.RuleSource
variable {σ τ α : Type}

/-- Handles items, counted from `index`, until one is refused. -/
def untilRefused (handle : σ → Nat → α → σ × Option RuleError) (s : σ) (index : Nat) :
    List α → σ × Option RuleError
  | [] => (s, none)
  | item :: items =>
      match handle s index item with
      | (s, none) => untilRefused handle s (index + 1) items
      | (s, some error) => (s, some error)

/-- The error of a refusal goes into another one. -/
def within (place : RuleError → RuleError) (result : σ × Option RuleError) :
    σ × Option RuleError :=
  (result.1, result.2.map place)

/-! ## The loops of a load -/

/-- Only the content of a file matters. -/
theorem takeFile_congr {files files' : Files.Tree} {path : String}
    (same : files.readText path = files'.readText path)
    (take : σ → String → σ × Option RuleError) (s : σ) :
    takeFile files take s path = takeFile files' take s path := by
  unfold takeFile
  rw [same]

section Loops
variable (take : σ → String → σ × Option RuleError)

def handExpression (s : σ) (index : Nat) (text : String) : σ × Option RuleError :=
  within (.expression index text) (take s text)

def handLine (s : σ) (number : Nat) (line : String) : σ × Option RuleError :=
  match record line with
  | none => (s, none)
  | some rule => within (.line number) (take s rule)

def handFile (files : Files.Tree) (s : σ) (index : Nat) (path : String) :
    σ × Option RuleError :=
  within (.file index path) (takeFile files take s path)

theorem takeExpressions_eq (s : σ) (index : Nat) (expressions : List String) :
    takeExpressions take s index expressions =
      untilRefused (handExpression take) s index expressions := by
  induction expressions generalizing s index with
  | nil => rfl
  | cons text rest ih =>
      rw [takeExpressions, untilRefused, handExpression]
      rcases take s text with ⟨s', _ | cause⟩
      · exact ih s' (index + 1)
      · rfl

theorem takeLines_eq (s : σ) (number : Nat) (lines : List String) :
    takeLines take s number lines = untilRefused (handLine take) s number lines := by
  induction lines generalizing s number with
  | nil => rfl
  | cons line rest ih =>
      rw [takeLines, untilRefused, handLine]
      rcases record line with _ | rule
      · exact ih s (number + 1)
      · dsimp only
        rcases take s rule with ⟨s', _ | cause⟩
        · exact ih s' (number + 1)
        · rfl

theorem takeFiles_eq (files : Files.Tree) (s : σ) (index : Nat) (paths : List String) :
    takeFiles files take s index paths = untilRefused (handFile take files) s index paths := by
  induction paths generalizing s index with
  | nil => rfl
  | cons path rest ih =>
      rw [takeFiles, untilRefused, handFile]
      rcases takeFile files take s path with ⟨s', _ | cause⟩
      · exact ih s' (index + 1)
      · rfl

variable {take} {source : RuleSource} {files : Files.Tree} {s s' : σ} {error : RuleError}

theorem load_of_accepted
    (expressions : untilRefused (handExpression take) s 0 source.expressions = (s', none)) :
    source.load files take s = untilRefused (handFile take files) s' 0 source.files := by
  rw [load, takeExpressions_eq, expressions, ← takeFiles_eq]

theorem load_of_refused
    (expressions : untilRefused (handExpression take) s 0 source.expressions = (s', some error)) :
    source.load files take s = (s', some error) := by
  rw [load, takeExpressions_eq, expressions]

theorem takeFile_of_read {path content : String} (read : files.readText path = .ok content)
    (s : σ) : takeFile files take s path =
      untilRefused (handLine take) s 1 (Text.lines content) := by
  rw [takeFile, read, ← takeLines_eq]

theorem takeFile_of_unread {path : String} {cause : Files.ReadError}
    (unread : files.readText path = .error cause) (s : σ) :
    takeFile files take s path = (s, some (.unreadable path cause)) := by
  rw [takeFile, unread]

end Loops

/-! ## What the loops have in common -/

section Common
variable {handle handle₂ : σ → Nat → α → σ × Option RuleError}
variable {s s' s'' : σ} {index : Nat} {items before : List α} {item : α} {error : RuleError}

theorem untilRefused_append (first : untilRefused handle s index before = (s', none))
    (items : List α) : untilRefused handle s index (before ++ items) =
      untilRefused handle s' (index + before.length) items := by
  induction before generalizing s index with
  | nil =>
      obtain rfl : s = s' := congrArg Prod.fst first
      rfl
  | cons item before ih =>
      rw [untilRefused] at first
      rw [List.cons_append, untilRefused]
      rcases handled : handle s index item with ⟨next, _ | error⟩
      · rw [handled] at first
        rw [List.length_cons, Nat.add_comm before.length, ← Nat.add_assoc]
        exact ih first
      · rw [handled] at first
        cases first

/-- What is touched after an item that is refused does not matter. -/
theorem untilRefused_append_refused (first : untilRefused handle s index before = (s', none))
    (refused : handle s' (index + before.length) item = (s'', some error)) (after : List α) :
    untilRefused handle s index (before ++ item :: after) = (s'', some error) := by
  rw [untilRefused_append first, untilRefused, refused]

/-- A refusal is that of some item, and all items before it are accepted. -/
theorem exists_refused (refused : untilRefused handle s index items = (s'', some error)) :
    ∃ before item after s', items = before ++ item :: after ∧
      untilRefused handle s index before = (s', none) ∧
      handle s' (index + before.length) item = (s'', some error) := by
  induction items generalizing s index with
  | nil => cases refused
  | cons item items ih =>
      rw [untilRefused] at refused
      rcases handled : handle s index item with ⟨next, _ | cause⟩
      · rw [handled] at refused
        obtain ⟨before, bad, after, s', rfl, first, last⟩ := ih refused
        refine ⟨item :: before, bad, after, s', rfl, ?_, ?_⟩
        · rw [untilRefused, handled]
          exact first
        · rwa [List.length_cons, Nat.add_comm before.length, ← Nat.add_assoc]
      · rw [handled] at refused
        exact ⟨[], item, items, s, rfl, rfl, handled.trans refused⟩

theorem untilRefused_congr
    (same : ∀ item ∈ items, ∀ s index, handle s index item = handle₂ s index item)
    (s : σ) (index : Nat) :
    untilRefused handle s index items = untilRefused handle₂ s index items := by
  induction items generalizing s index with
  | nil => rfl
  | cons item items ih =>
      rw [List.forall_mem_cons] at same
      rw [untilRefused, untilRefused, same.1]
      rcases handle₂ s index item with ⟨next, _ | error⟩
      · exact ih same.2 next (index + 1)
      · rfl

/-- What is true of each item that is accepted is true of all of them. -/
theorem forall_of_untilRefused {P : α → Prop}
    (each : ∀ s index item s', handle s index item = (s', none) → P item)
    (done : untilRefused handle s index items = (s', none)) : ∀ item ∈ items, P item := by
  induction items generalizing s index with
  | nil => nofun
  | cons item items ih =>
      rw [untilRefused] at done
      rcases handled : handle s index item with ⟨next, _ | error⟩
      · rw [handled] at done
        exact List.forall_mem_cons.mpr ⟨each _ _ _ _ handled, ih done⟩
      · rw [handled] at done
        cases done

/-- Two results with the same state, of which both are refusals or none is. -/
def SameCourse (result result' : σ × Option RuleError) : Prop :=
  result.1 = result'.1 ∧ (result.2 = none ↔ result'.2 = none)

theorem sameCourse_within (place : RuleError → RuleError) (result : σ × Option RuleError) :
    SameCourse (within place result) result := ⟨rfl, by simp [within]⟩

theorem SameCourse.trans {r r' r'' : σ × Option RuleError} (first : SameCourse r r')
    (second : SameCourse r' r'') : SameCourse r r'' :=
  ⟨first.1.trans second.1, first.2.trans second.2⟩

theorem SameCourse.symm {r r' : σ × Option RuleError} (same : SameCourse r r') :
    SameCourse r' r := ⟨same.1.symm, same.2.symm⟩

theorem untilRefused_course
    (same : ∀ item ∈ items, ∀ s index, SameCourse (handle s index item) (handle₂ s index item))
    (s : σ) (index : Nat) :
    SameCourse (untilRefused handle s index items) (untilRefused handle₂ s index items) := by
  induction items generalizing s index with
  | nil => exact ⟨rfl, .rfl⟩
  | cons item items ih =>
      rw [List.forall_mem_cons] at same
      rw [untilRefused, untilRefused]
      obtain ⟨state, refusal⟩ := same.1 s index
      rcases handled : handle s index item with ⟨next, _ | error⟩ <;>
        rcases handled₂ : handle₂ s index item with ⟨next₂, _ | error₂⟩ <;>
          rw [handled, handled₂] at state refusal
      · obtain rfl : next = next₂ := state
        exact ih same.2 next (index + 1)
      · exact absurd (refusal.mp rfl) nofun
      · exact absurd (refusal.mpr rfl) nofun
      · exact ⟨state, iff_of_false nofun nofun⟩

/-- A handler that keeps more in its state but does the same gets as far. -/
theorem untilRefused_forget {handle' : τ → Nat → α → τ × Option RuleError} {forget : τ → σ}
    (same : ∀ t index item, (handle' t index item).map forget id = handle (forget t) index item)
    (t : τ) (index : Nat) (items : List α) :
    (untilRefused handle' t index items).map forget id =
      untilRefused handle (forget t) index items := by
  induction items generalizing t index with
  | nil => rfl
  | cons item items ih =>
      rw [untilRefused, untilRefused, ← same t index item]
      rcases handle' t index item with ⟨next, _ | error⟩
      · exact ih next (index + 1)
      · rfl

end Common

end LiveRules.RuleSource
