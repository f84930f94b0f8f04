import LiveRules.Proofs.Rules.Handing
import LiveRules.Proofs.Rules.Styles

/-!
# Loads call by call

A load hands over the expressions of its source as they are and then the records of its
files, and the first refusal or the first file that cannot be read ends it. Its error
says where that was. A taker may keep a state of any kind, so its calls are observed by a
taker that answers as it does and notes each call with the answer.
-/
namespace LiveRules.RuleSource
variable {σ τ : Type}

/-! ## Takers -/

/-- A rule that is handed over, and why it is refused, if it is. -/
structure Call where
  rule : String
  answer : Option RuleError

/-- Calls with the rules, all of which are accepted. -/
def accepted (rules : List String) : List Call := rules.map fun rule => ⟨rule, none⟩

theorem accepted_append (rules rules' : List String) :
    accepted (rules ++ rules') = accepted rules ++ accepted rules' := List.map_append

/-- Takes rules as `take` does and notes the calls. -/
def noting (take : σ → String → σ × Option RuleError) (noted : List Call × σ) (rule : String) :
    (List Call × σ) × Option RuleError :=
  let (s, answer) := take noted.2 rule
  ((noted.1 ++ [⟨rule, answer⟩], s), answer)

/-- A load whose calls are noted. -/
def note (source : RuleSource) (files : Files.Tree)
    (take : σ → String → σ × Option RuleError) (s : σ) :
    (List Call × σ) × Option RuleError :=
  source.load files (noting take) ([], s)

section Forgetting
variable {take : σ → String → σ × Option RuleError} {take' : τ → String → τ × Option RuleError}
variable {forget : τ → σ} {files : Files.Tree}

theorem map_within (place : RuleError → RuleError) (result : τ × Option RuleError) :
    (within place result).map forget id = within place (result.map forget id) := rfl

theorem handExpression_forget
    (same : ∀ t rule, (take' t rule).map forget id = take (forget t) rule)
    (t : τ) (index : Nat) (text : String) :
    (handExpression take' t index text).map forget id =
      handExpression take (forget t) index text := by
  rw [handExpression, handExpression, map_within, same]

theorem handLine_forget
    (same : ∀ t rule, (take' t rule).map forget id = take (forget t) rule)
    (t : τ) (number : Nat) (line : String) :
    (handLine take' t number line).map forget id = handLine take (forget t) number line := by
  rw [handLine, handLine]
  rcases record line with _ | rule
  · rfl
  · dsimp only
    rw [map_within, same]

theorem handFile_forget
    (same : ∀ t rule, (take' t rule).map forget id = take (forget t) rule)
    (t : τ) (index : Nat) (path : String) :
    (handFile take' files t index path).map forget id =
      handFile take files (forget t) index path := by
  have file : (takeFile files take' t path).map forget id =
      takeFile files take (forget t) path := by
    rcases read : files.readText path with cause | content
    · rw [takeFile_of_unread read, takeFile_of_unread read]
      rfl
    · rw [takeFile_of_read read, takeFile_of_read read]
      exact untilRefused_forget (handLine_forget same) t 1 (Text.lines content)
  rw [handFile, handFile, map_within, file]

/-- A taker that keeps more in its state but does the same gets as far. -/
theorem load_forget (same : ∀ t rule, (take' t rule).map forget id = take (forget t) rule)
    (source : RuleSource) (t : τ) :
    (source.load files take' t).map forget id = source.load files take (forget t) := by
  have first := untilRefused_forget (handExpression_forget same) t 0 source.expressions
  rcases taken : untilRefused (handExpression take') t 0 source.expressions with ⟨t', _ | error⟩
  · rw [taken] at first
    rw [load_of_accepted taken, load_of_accepted first.symm]
    exact untilRefused_forget (handFile_forget same) t' 0 source.files
  · rw [taken] at first
    rw [load_of_refused taken, load_of_refused first.symm]
    rfl

end Forgetting

/-! ## The calls -/

section Calls
variable {α : Type} {take : σ → String → σ × Option RuleError} {files : Files.Tree}
variable {noted noted' : List Call × σ} {error : RuleError}

theorem noting_calls {rule : String} {answer : Option RuleError}
    (taken : noting take noted rule = (noted', answer)) :
    noted'.1 = noted.1 ++ [⟨rule, answer⟩] := by
  cases taken
  rfl

/-- If each item that is accepted has had its rules accepted, so have all items. -/
theorem calls_accepted {handle : List Call × σ → Nat → α → (List Call × σ) × Option RuleError}
    (rules : α → List String)
    (each : ∀ {noted noted' : List Call × σ} {index item},
      handle noted index item = (noted', none) →
        noted'.1 = noted.1 ++ accepted (rules item))
    {index : Nat} {items : List α}
    (done : untilRefused handle noted index items = (noted', none)) :
    noted'.1 = noted.1 ++ accepted (items.flatMap rules) := by
  induction items generalizing noted index with
  | nil =>
      cases done
      exact (List.append_nil _).symm
  | cons item items ih =>
      rw [untilRefused] at done
      rcases handled : handle noted index item with ⟨next, _ | error⟩
      · rw [handled] at done
        rw [ih done, each handled, List.flatMap_cons, accepted_append, List.append_assoc]
      · rw [handled] at done
        cases done

theorem within_eq_none {place : RuleError → RuleError} {result : σ × Option RuleError} {s : σ} :
    within place result = (s, none) ↔ result = (s, none) := by
  rcases result with ⟨s', _ | cause⟩ <;> simp [within]

theorem within_eq_some {place : RuleError → RuleError} {result : σ × Option RuleError} {s : σ} :
    within place result = (s, some error) ↔
      ∃ cause, result = (s, some cause) ∧ error = place cause := by
  rcases result with ⟨s', _ | cause⟩ <;> simp [within, eq_comm]

/-- All expressions are handed over as they are. -/
theorem calls_expressions {index : Nat} {expressions : List String}
    (done : untilRefused (handExpression (noting take)) noted index expressions =
      (noted', none)) : noted'.1 = noted.1 ++ accepted expressions := by
  have calls := calls_accepted (fun text => [text])
    (fun taken => noting_calls (within_eq_none.mp taken)) done
  rwa [List.flatMap_singleton'] at calls

/-- Of lines, the records are handed over. -/
theorem calls_lines {number : Nat} {lines : List String}
    (done : untilRefused (handLine (noting take)) noted number lines = (noted', none)) :
    noted'.1 = noted.1 ++ accepted (lines.filterMap record) := by
  rw [List.filterMap_eq_flatMap_toList]
  refine calls_accepted _ (fun {noted noted' number line} taken => ?_) done
  rw [handLine] at taken
  rcases said : record line with _ | rule
  · rw [said] at taken
    cases taken
    exact (List.append_nil _).symm
  · rw [said] at taken
    exact noting_calls (within_eq_none.mp taken)

theorem calls_file {path : String}
    (done : takeFile files (noting take) noted path = (noted', none)) :
    (∃ content, files.readText path = .ok content) ∧
      noted'.1 = noted.1 ++ accepted (rulesIn files path) := by
  rcases read : files.readText path with cause | content
  · rw [takeFile_of_unread read] at done
    cases done
  · rw [takeFile_of_read read] at done
    rw [rulesIn_ok read]
    exact ⟨⟨content, rfl⟩, calls_lines done⟩

theorem calls_files {index : Nat} {paths : List String}
    (done : untilRefused (handFile (noting take) files) noted index paths = (noted', none)) :
    (∀ path ∈ paths, ∃ content, files.readText path = .ok content) ∧
      noted'.1 = noted.1 ++ accepted (paths.flatMap (rulesIn files)) :=
  ⟨forall_of_untilRefused (fun _ _ _ _ taken => (calls_file (within_eq_none.mp taken)).1) done,
    calls_accepted (rulesIn files) (fun taken => (calls_file (within_eq_none.mp taken)).2) done⟩

theorem refused_expressions {index : Nat} {expressions : List String}
    (refused : untilRefused (handExpression (noting take)) noted index expressions =
      (noted', some error)) :
    ∃ before text after cause, expressions = before ++ text :: after ∧
      noted'.1 = noted.1 ++ (accepted before ++ [⟨text, some cause⟩]) ∧
      error = .expression (index + before.length) text cause := by
  obtain ⟨before, text, after, between, place, first, last⟩ := exists_refused refused
  obtain ⟨cause, taken, wrapped⟩ := within_eq_some.mp last
  refine ⟨before, text, after, cause, place, ?_, wrapped⟩
  rw [noting_calls taken, calls_expressions first, List.append_assoc]

theorem refused_lines {number : Nat} {lines : List String}
    (refused : untilRefused (handLine (noting take)) noted number lines =
      (noted', some error)) :
    ∃ earlier line later rule cause, lines = earlier ++ line :: later ∧
      record line = some rule ∧
      noted'.1 = noted.1 ++ (accepted (earlier.filterMap record) ++ [⟨rule, some cause⟩]) ∧
      error = .line (number + earlier.length) cause := by
  obtain ⟨earlier, line, later, between, place, first, last⟩ := exists_refused refused
  rw [handLine] at last
  rcases said : record line with _ | rule
  · rw [said] at last
    cases last
  · rw [said] at last
    obtain ⟨cause, taken, wrapped⟩ := within_eq_some.mp last
    refine ⟨earlier, line, later, rule, cause, place, said, ?_, wrapped⟩
    rw [noting_calls taken, calls_lines first, List.append_assoc]

-- Lines that carry no rule are counted, and what follows a refusal is not handed over.
example :
    let take (calls : Nat) (rule : String) : Nat × Option RuleError :=
      (calls + 1, if rule = "bad" then some (.invalid rule (.other "no name")) else none)
    let lines := Text.lines "\n# names\r\nok # fine\nbad\nmore\n"
    let (noted, error) := untilRefused (handLine (noting take)) ([], 0) 1 lines
    noted.1.map Call.rule = ["ok", "bad"] ∧ noted.2 = 2 ∧
      error.map RuleError.message = some "Line 4: Invalid rule 'bad': no name" := by
  decide +kernel

end Calls

/-! ## How loads end -/

/-- The calls of a load and how it may end after them. -/
inductive Ending (source : RuleSource) (files : Files.Tree) :
    List Call → Option RuleError → Prop
  /-- All rules are accepted, and all files can be read. -/
  | complete (readable : ∀ path ∈ source.files, ∃ content, files.readText path = .ok content) :
      Ending source files (accepted (source.rules files)) none
  /-- An expression is refused. -/
  | expression {before after : List String} {text : String} {cause : RuleError}
      (place : source.expressions = before ++ text :: after) :
      Ending source files (accepted before ++ [⟨text, some cause⟩])
        (some (.expression before.length text cause))
  /-- The record of a line is refused. -/
  | record {before after earlier later : List String} {path content line rule : String}
      {cause : RuleError} (place : source.files = before ++ path :: after)
      (readable : ∀ path ∈ before, ∃ content, files.readText path = .ok content)
      (read : files.readText path = .ok content)
      (lines : Text.lines content = earlier ++ line :: later)
      (said : LiveRules.record line = some rule) :
      Ending source files
        (accepted (source.expressions ++ before.flatMap (rulesIn files) ++
          earlier.filterMap LiveRules.record) ++ [⟨rule, some cause⟩])
        (some (.file before.length path (.line (earlier.length + 1) cause)))
  /-- A file cannot be read. -/
  | unreadable {before after : List String} {path : String} {cause : Files.ReadError}
      (place : source.files = before ++ path :: after)
      (readable : ∀ path ∈ before, ∃ content, files.readText path = .ok content)
      (unread : files.readText path = .error cause) :
      Ending source files
        (accepted (source.expressions ++ before.flatMap (rulesIn files)))
        (some (.file before.length path (.unreadable path cause)))

theorem ending_note (source : RuleSource) (files : Files.Tree)
    (take : σ → String → σ × Option RuleError) (s : σ) :
    Ending source files (source.note files take s).1.1 (source.note files take s).2 := by
  rcases expressions : untilRefused (handExpression (noting take)) ([], s) 0 source.expressions
    with ⟨first, _ | error⟩
  · have loaded : source.note files take s =
      untilRefused (handFile (noting take) files) first 0 source.files :=
        load_of_accepted expressions
    have calls : first.1 = accepted source.expressions := calls_expressions expressions
    rcases done : untilRefused (handFile (noting take) files) first 0 source.files
      with ⟨last, _ | error⟩
    · obtain ⟨readable, more⟩ := calls_files done
      rw [loaded, done, more, calls, ← accepted_append]
      exact .complete readable
    · obtain ⟨before, path, after, between, place, earlier, refused⟩ := exists_refused done
      obtain ⟨readable, more⟩ := calls_files earlier
      obtain ⟨cause, taken, rfl⟩ := within_eq_some.mp refused
      rw [calls, ← accepted_append] at more
      rw [loaded, done, Nat.zero_add]
      rcases read : files.readText path with unread | content
      · rw [takeFile_of_unread read] at taken
        cases taken
        rw [more]
        exact .unreadable place readable read
      · rw [takeFile_of_read read] at taken
        obtain ⟨earlier, line, later, rule, cause, lines, said, last, rfl⟩ := refused_lines taken
        rw [last, more, ← List.append_assoc, ← accepted_append, Nat.add_comm 1]
        exact .record place readable read lines said
  · have loaded : source.note files take s = (first, some error) := load_of_refused expressions
    obtain ⟨before, text, after, cause, place, calls, rfl⟩ := refused_expressions expressions
    rw [loaded, calls, Nat.zero_add]
    exact .expression place

/-! ## Other files -/

section Files
variable {source : RuleSource} {take : σ → String → σ × Option RuleError}
variable {files files' : Files.Tree}

/-- How many files are read by a load with this outcome. -/
def filesRead (source : RuleSource) : Option RuleError → Nat
  | none => source.files.length
  | some (.file index _ _) => index + 1
  | some _ => 0

theorem handFile_congr {path : String} (same : files'.readText path = files.readText path)
    (s : σ) (index : Nat) :
    handFile take files' s index path = handFile take files s index path := by
  rw [handFile, handFile, takeFile_congr same]

/-- Only the files up to the one where a load ends matter. -/
theorem load_unread {s : σ}
    (same : ∀ path ∈ source.files.take (source.filesRead (source.load files take s).2),
      files'.readText path = files.readText path) :
    source.load files' take s = source.load files take s := by
  rcases expressions : untilRefused (handExpression take) s 0 source.expressions
    with ⟨first, _ | error⟩
  · rw [load_of_accepted expressions] at same
    rw [load_of_accepted expressions, load_of_accepted expressions]
    rcases done : untilRefused (handFile take files) first 0 source.files with ⟨last, _ | error⟩
    · rw [done, filesRead, List.take_length] at same
      rw [untilRefused_congr (fun path listed => handFile_congr (same path listed)), done]
    · obtain ⟨before, path, after, between, place, earlier, refused⟩ := exists_refused done
      obtain ⟨cause, -, wrapped⟩ := within_eq_some.mp refused
      have read : source.files.take (source.filesRead (some error)) = before ++ [path] := by
        rw [place, wrapped, filesRead, Nat.zero_add, List.take_length_add_append]
        rfl
      rw [done, read] at same
      have earlier' : untilRefused (handFile take files') first 0 before = (between, none) := by
        rw [untilRefused_congr (fun path listed =>
          handFile_congr (same path (List.mem_append_left _ listed))), earlier]
      rw [place]
      refine untilRefused_append_refused earlier' ?_ after
      rw [handFile_congr (same path (List.mem_append_right _ List.mem_cons_self)), refused]
  · rw [load_of_refused expressions, load_of_refused expressions]

/-- The file can be read in both trees and is in another style, or it can be read in
neither. -/
def RestyledIn (files files' : Files.Tree) (path : String) : Prop :=
  (∃ content content', files.readText path = .ok content ∧
    files'.readText path = .ok content' ∧ RestyledFile content content') ∨
  ∃ cause cause', files.readText path = .error cause ∧ files'.readText path = .error cause'

/-- Lines are taken like the expressions that their records would be. -/
theorem course_lines (take : σ → String → σ × Option RuleError) (s : σ) (number index : Nat)
    (lines : List String) :
    SameCourse (untilRefused (handLine take) s number lines)
      (untilRefused (handExpression take) s index (lines.filterMap record)) := by
  induction lines generalizing s number index with
  | nil =>
      rw [List.filterMap_nil, untilRefused, untilRefused]
      exact ⟨rfl, .rfl⟩
  | cons line rest ih =>
      rw [untilRefused, handLine]
      rcases said : record line with _ | rule
      · rw [List.filterMap_cons_none said]
        exact ih s (number + 1) index
      · rw [List.filterMap_cons_some said, untilRefused, handExpression]
        dsimp only
        rcases take s rule with ⟨next, _ | cause⟩
        · exact ih next (number + 1) (index + 1)
        · exact ⟨rfl, iff_of_false (Option.some_ne_none _) (Option.some_ne_none _)⟩

theorem course_file {path : String} (restyled : RestyledIn files files' path)
    (take : σ → String → σ × Option RuleError) (s : σ) :
    SameCourse (takeFile files take s path) (takeFile files' take s path) := by
  rcases restyled with ⟨content, content', read, read', restyled⟩ | ⟨cause, cause', unread, unread'⟩
  · rw [takeFile_of_read read, takeFile_of_read read']
    have here := course_lines take s 1 0 (Text.lines content)
    have there := course_lines take s 1 0 (Text.lines content')
    have same : (Text.lines content).filterMap record = (Text.lines content').filterMap record :=
      rulesOf_restyled restyled
    rw [same] at here
    exact here.trans there.symm
  · rw [takeFile_of_unread unread, takeFile_of_unread unread']
    exact ⟨rfl, iff_of_false nofun nofun⟩

/-- Files in another style are taken in the same way, but for the numbers of their lines. -/
theorem course_load (restyled : ∀ path ∈ source.files, RestyledIn files files' path)
    (take : σ → String → σ × Option RuleError) (s : σ) :
    SameCourse (source.load files take s) (source.load files' take s) := by
  rcases expressions : untilRefused (handExpression take) s 0 source.expressions
    with ⟨first, _ | error⟩
  · rw [load_of_accepted expressions, load_of_accepted expressions]
    refine untilRefused_course (fun path listed s index => ?_) first 0
    have file := course_file (restyled path listed) take s
    exact (sameCourse_within _ _).trans (file.trans (sameCourse_within _ _).symm)
  · rw [load_of_refused expressions, load_of_refused expressions]
    exact ⟨rfl, .rfl⟩

end Files

/-! ## The order of a load -/

/-- What a load hands over, where it ends, and which files it asks for. -/
structure LoadsInOrder (source : RuleSource) (files : Files.Tree)
    (take : σ → String → σ × Option RuleError) (s : σ) : Prop where
  /-- Of a line, what is before the first `#` is handed over, without white space around it
  and unless nothing is left. -/
  records : ∀ line rule, record line = some rule ↔ Carries line.toList rule.toList
  /-- Noting the calls changes nothing. -/
  noted : (source.note files take s).map Prod.snd id = source.load files take s
  ending : Ending source files (source.note files take s).1.1 (source.load files take s).2
  success : (source.load files take s).2 = none ↔
    (∀ call ∈ (source.note files take s).1.1, call.answer = none) ∧
      ∀ path ∈ source.files, ∃ content, files.readText path = .ok content
  /-- The files after the one where the load ends are not read. -/
  unread : ∀ files' : Files.Tree,
    (∀ path ∈ source.files.take (source.filesRead (source.load files take s).2),
      files'.readText path = files.readText path) →
    source.note files' take s = source.note files take s
  /-- With other line ends a file is in another style. -/
  returns : ∀ content, RestyledFile content (.ofList (withReturns content.toList))
  restyled : ∀ files' : Files.Tree,
    (∀ path ∈ source.files, RestyledIn files files' path) →
    (source.note files' take s).1 = (source.note files take s).1 ∧
      ((source.load files' take s).2 = none ↔ (source.load files take s).2 = none)

theorem Ending.success_iff {source : RuleSource} {files : Files.Tree} {calls : List Call}
    {outcome : Option RuleError} (ending : Ending source files calls outcome) :
    outcome = none ↔ (∀ call ∈ calls, call.answer = none) ∧
      ∀ path ∈ source.files, ∃ content, files.readText path = .ok content := by
  cases ending with
  | complete readable =>
      refine iff_of_true rfl ⟨fun call made => ?_, readable⟩
      obtain ⟨rule, -, rfl⟩ := List.mem_map.mp made
      rfl
  | expression | record =>
      refine iff_of_false nofun fun all => ?_
      cases all.1 _ (List.mem_append_right _ List.mem_cons_self)
  | unreadable place _ unread =>
      refine iff_of_false nofun fun all => ?_
      rw [place] at all
      obtain ⟨content, read⟩ := all.2 _ (List.mem_append_right _ List.mem_cons_self)
      rw [unread] at read
      cases read

/-- For every source, all files and every taker, a load hands over the rules in their order
and says where it ends. -/
theorem load_in_order (source : RuleSource) (files : Files.Tree)
    (take : σ → String → σ × Option RuleError) (s : σ) : LoadsInOrder source files take s := by
  have noted (files : Files.Tree) :
      (source.note files take s).map Prod.snd id = source.load files take s :=
    load_forget (fun _ _ => rfl) source ([], s)
  have outcome (files : Files.Tree) :
      (source.load files take s).2 = (source.note files take s).2 :=
    congrArg Prod.snd (noted files).symm
  have ending := ending_note source files take s
  rw [← outcome] at ending
  refine ⟨fun _ _ => record_eq_some_iff, noted files, ending, ending.success_iff,
    fun files' same => ?_, restyled_returns, fun files' restyled => ?_⟩
  · rw [outcome] at same
    exact load_unread same
  · have course := course_load restyled (noting take) ([], s)
    rw [outcome, outcome]
    exact ⟨course.1.symm, course.2.symm⟩

end LiveRules.RuleSource
