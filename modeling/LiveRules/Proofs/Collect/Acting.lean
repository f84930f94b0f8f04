import LiveRules.Proofs.Collect.EntryRules
import LiveRules.Proofs.Collect.Reopen
import LiveRules.Proofs.Collect.Sharing

/-!
# Names collected into one store

Actions call a store one after the other, and between the calls the store goes on with
its moves. What the calls leave of the entries does not depend on those moves: the last
action on an entry decides about it. Once the store has shut down and every write is
carried out, the file holds the same entries.
-/
namespace LiveRules.Collect

/-- A caller makes the move; all others are made by the store itself or close it. -/
def Move.isCall : Move → Bool
  | .add _ | .delete _ => true
  | _ => false

/-- The change that a call makes of the entries, if any. -/
def Move.edit? (es : List String) : Move → Option Edit
  | .add text =>
      (Store.storable? text).bind fun e => if e ∈ es then none else some (.added e)
  | .delete text =>
      (Store.storable? text).bind fun e => if e ∈ es then some (.removed e) else none
  | _ => none

theorem Move.edit?_background {m : Move} (background : m.isCall = false) (es : List String) :
    m.edit? es = none := by
  cases m with
  | add | delete => cases background
  | _ => rfl

theorem Move.background_of_eager {m : Move} (eager : m ∈ Running.eager) : m.isCall = false := by
  revert m
  decide

theorem Store.add_answer (s : Store) (text : String) :
    (s.add text).1 = (Store.storable? text).any fun e => !s.entries.contains e := by
  unfold Store.add
  split
  · rename_i refused
    rw [refused, Option.any_none]
  · rename_i e stored
    rw [stored, Option.any_some]
    cases s.entries.contains e <;> rfl

theorem Store.delete_answer (s : Store) (text : String) :
    (s.delete text).1 = (Store.storable? text).any s.entries.contains := by
  unfold Store.delete
  split
  · rename_i refused
    rw [refused, Option.any_none]
  · rename_i e stored
    rw [stored, Option.any_some]
    cases s.entries.contains e <;> rfl

theorem ofMove?_eq (s : Store) (m : Move) : Edit.ofMove? s m = m.edit? s.entries := by
  cases m with
  | add text =>
      simp only [Edit.ofMove?, Store.add_answer, Move.edit?]
      cases stored : Store.storable? text with
      | none => rfl
      | some e => by_cases present : e ∈ s.entries <;> simp [present, trim_of_storable? stored]
  | delete text =>
      simp only [Edit.ofMove?, Store.delete_answer, Move.edit?]
      cases stored : Store.storable? text with
      | none => rfl
      | some e => by_cases present : e ∈ s.entries <;> simp [present, trim_of_storable? stored]
  | _ => rfl

/-- The history enters a call that makes a change, and ignores one that makes none. -/
theorem note_call {r r' : Running} (h : History) {m : Move} (call : m.isCall = true) :
    (h.note r m r').submissions.map (·.edit) =
      h.submissions.map (·.edit) ++ (Edit.ofMove? r.store m).toList := by
  cases m with
  | add text | delete text =>
      simp only [History.note]
      split
      · rename_i edit change
        rw [change]
        exact List.map_append
      · rename_i same
        rw [same]
        exact (List.append_nil _).symm
  | _ => cases call

/-- A move adds to the history the change that it makes. -/
theorem edits_note {r r' : Running} (h : History) {m : Move} :
    (h.note r m r').submissions.map (·.edit) =
      h.submissions.map (·.edit) ++ (m.edit? r.store.entries).toList := by
  cases m with
  | add | delete => rw [note_call h rfl, ofMove?_eq]
  | close | clear | snapshot => simp [History.note, Move.edit?]
  | take =>
      cases queue : r.store.queue <;>
        simp [History.note, queue, History.take, History.advance, Move.edit?,
          map_advanceFirst, Submission.become]
  | pop | send | expire | apply =>
      simp [History.note, History.advance, Move.edit?, map_advanceFirst, Submission.become]

/-- What a call leaves of the entries. -/
def Move.collect (es : List String) (m : Move) : List String :=
  match m.edit? es with
  | some edit => edit.apply es
  | none => es

theorem Move.mem_collect_add {es : List String} {text e : String} :
    e ∈ (Move.add text).collect es ↔ Store.storable? text = some e ∨ e ∈ es := by
  simp only [collect, edit?]
  cases Store.storable? text with
  | none => simp
  | some x =>
      rw [Option.bind_some, Option.some_inj]
      by_cases present : x ∈ es
      · rw [if_pos present]
        exact (or_iff_right_of_imp fun same => same ▸ present).symm
      · rw [if_neg present]
        simp only [Edit.apply, List.mem_append, List.mem_singleton, or_comm, eq_comm]

theorem Move.mem_collect_delete {es : List String} {text e : String} (nodup : es.Nodup) :
    e ∈ (Move.delete text).collect es ↔ Store.storable? text ≠ some e ∧ e ∈ es := by
  simp only [collect, edit?]
  cases Store.storable? text with
  | none => simp
  | some x =>
      rw [Option.bind_some, Ne, Option.some_inj]
      by_cases present : x ∈ es
      · rw [if_pos present]
        simp only [Edit.apply, nodup.mem_erase_iff, ne_comm]
      · rw [if_neg present]
        refine (and_iff_right_of_imp fun held same => ?_).symm
        exact present (same ▸ held)

/-- A change that a call makes is one that can be made. -/
theorem Move.absent_of_added {es : List String} {m : Move} {e : String}
    (change : m.edit? es = some (.added e)) : e ∉ es := by
  cases m with
  | add text =>
      obtain ⟨x, -, added⟩ := Option.bind_eq_some_iff.mp change
      split at added
      · cases added
      · rename_i absent
        cases added
        exact absent
  | delete text =>
      obtain ⟨x, -, removed⟩ := Option.bind_eq_some_iff.mp change
      split at removed <;> cases removed
  | _ => cases change

theorem Move.nodup_collect {es : List String} (nodup : es.Nodup) (m : Move) :
    (m.collect es).Nodup := by
  unfold collect
  split
  · rename_i edit change
    cases edit with
    | removed e => exact nodup.erase e
    | added e =>
        have absent := absent_of_added change
        exact List.nodup_append.mpr ⟨nodup, by simp, fun x held y last same =>
          absent (List.mem_singleton.mp last ▸ same ▸ held)⟩
  · exact nodup

theorem entries_move {r r' : Running} {m : Move} (moved : r.move m = some r') :
    r'.store.entries = m.collect r.store.entries := by
  have recorded := step_recorded (step_of_move {} moved)
  have replayed := @replay_recorded r.store.entries r r' [] _ rfl recorded
  rw [← replayed, replay, edits_note, Move.collect]
  cases m.edit? r.store.entries <;> rfl

/-- The changes that calls make in turn. -/
def editsOf (es : List String) : List Move → List Edit
  | [] => []
  | m :: ms => (m.edit? es).toList ++ editsOf (m.collect es) ms

/-- The history lists the changes of the calls, whatever moves come between them. -/
theorem edits_follow {r r' : Running} {h h' : History} {ms : List Move}
    (followed : follow r h ms = some (r', h')) :
    h'.submissions.map (·.edit) =
      h.submissions.map (·.edit) ++ editsOf r.store.entries (ms.filter Move.isCall) := by
  induction ms generalizing r h with
  | nil =>
      cases followed
      simp [editsOf]
  | cons m ms ih =>
      obtain ⟨after, moved, rest⟩ := Option.bind_eq_some_iff.mp followed
      rw [ih rest, edits_note, entries_move moved, List.append_assoc]
      cases call : m.isCall with
      | true => rw [List.filter_cons_of_pos call, editsOf]
      | false =>
          have none := Move.edit?_background call r.store.entries
          rw [List.filter_cons_of_neg (by simp [call]), Move.collect, none]
          rfl

theorem entries_follow {r r' : Running} {h h' : History} {ms : List Move}
    (followed : follow r h ms = some (r', h')) :
    r'.store.entries = (ms.filter Move.isCall).foldl Move.collect r.store.entries := by
  induction ms generalizing r h with
  | nil =>
      cases followed
      rfl
  | cons m ms ih =>
      obtain ⟨after, moved, rest⟩ := Option.bind_eq_some_iff.mp followed
      rw [ih rest, entries_move moved]
      cases call : m.isCall with
      | true => rw [List.filter_cons_of_pos call, List.foldl_cons]
      | false =>
          have none := Move.edit?_background call r.store.entries
          rw [List.filter_cons_of_neg (by simp [call]), Move.collect, none]

namespace Action

/-- The call by which an action collects a name; there is none for the root name. -/
def call? (a : Action) (name : String) : Option Move :=
  (a.entryFor name).map fun entry => match a.operation with
    | .add => .add entry
    | .delete => .delete entry

/-- What collecting a name leaves of the entries. -/
def collect (es : List String) (a : Action) (name : String) : List String :=
  match a.call? name with
  | some m => m.collect es
  | none => es

/-- Collecting decides about the entry of the name and leaves all others alone. -/
theorem mem_collect {es : List String} (nodup : es.Nodup) (a : Action) (name e : String) :
    e ∈ a.collect es name ↔
      if stored? a.format name = some e then a.operation = .add else e ∈ es := by
  unfold stored? collect call? entryFor
  cases Collect.entryFor a.format name with
  | none => simp
  | some text =>
      rw [Option.map_some, Option.bind_some]
      cases a.operation with
      | add =>
          rw [Move.mem_collect_add]
          split
          · rename_i same
            exact iff_of_true (.inl same) rfl
          · rename_i other
            exact or_iff_right other
      | delete =>
          rw [Move.mem_collect_delete nodup]
          split
          · rename_i same
            exact iff_of_false (fun kept => kept.1 same) nofun
          · rename_i other
            exact and_iff_right other

theorem nodup_collect {es : List String} (nodup : es.Nodup) (a : Action) (name : String) :
    (a.collect es name).Nodup := by
  unfold collect
  split
  · exact Move.nodup_collect nodup _
  · exact nodup

end Action

/-- What collecting names in turn leaves of the entries. -/
def collectAll (es : List String) (names : List (Action × String)) : List String :=
  names.foldl (fun es c => c.1.collect es c.2) es

/-- The calls that collect names. -/
def callsOf (names : List (Action × String)) : List Move :=
  names.filterMap fun c => c.1.call? c.2

theorem foldl_callsOf (es : List String) (names : List (Action × String)) :
    (callsOf names).foldl Move.collect es = collectAll es names := by
  induction names generalizing es with
  | nil => rfl
  | cons c rest ih =>
      rw [collectAll, List.foldl_cons, ← collectAll, ← ih, Action.collect]
      simp only [callsOf, List.filterMap_cons]
      cases c.1.call? c.2 <;> rfl

theorem nodup_collectAll {es : List String} (nodup : es.Nodup) (names : List (Action × String)) :
    (collectAll es names).Nodup := by
  induction names generalizing es with
  | nil => exact nodup
  | cons c rest ih => exact ih (c.1.nodup_collect nodup c.2)

/-- What the last action on an entry does with it, if there is one. -/
def lastOn (names : List (Action × String)) (e : String) : Option Operation :=
  ((names.filter fun c => stored? c.1.format c.2 = some e).getLast?).map (·.1.operation)

theorem lastOn_concat (names : List (Action × String)) (c : Action × String) (e : String) :
    lastOn (names ++ [c]) e =
      if stored? c.1.format c.2 = some e then some c.1.operation else lastOn names e := by
  unfold lastOn
  split
  · rename_i same
    simp [same]
  · rename_i other
    simp [other]

theorem exists_of_lastOn {names : List (Action × String)} {e : String} {op : Operation}
    (last : lastOn names e = some op) :
    ∃ c ∈ names, stored? c.1.format c.2 = some e ∧ c.1.operation = op := by
  obtain ⟨c, latest, operation⟩ := Option.map_eq_some_iff.mp last
  obtain ⟨listed, stored⟩ := List.mem_filter.mp (List.mem_of_getLast? latest)
  exact ⟨c, listed, of_decide_eq_true stored, operation⟩

/-- The last action on an entry decides whether it is held. -/
theorem mem_collectAll {es : List String} (nodup : es.Nodup) (names : List (Action × String))
    (e : String) :
    e ∈ collectAll es names ↔ (lastOn names e).elim (e ∈ es) (· = .add) := by
  induction names using List.reverseRecOn with
  | nil => rfl
  | append_singleton before c ih =>
      rw [collectAll, List.foldl_append, List.foldl_cons, List.foldl_nil, ← collectAll,
        Action.mem_collect (nodup_collectAll nodup before), lastOn_concat]
      split
      · rfl
      · exact ih

/-- As long as names are only deleted, a store without entries is not changed. -/
theorem editsOf_empty {names : List (Action × String)}
    (stored : ∀ c ∈ names, ∃ e, stored? c.1.format c.2 = some e) :
    editsOf [] (callsOf names) = [] ↔ ∀ c ∈ names, c.1.operation ≠ .add := by
  induction names with
  | nil => simp [callsOf, editsOf]
  | cons c rest ih =>
      obtain ⟨e, kept⟩ := stored c (by simp)
      obtain ⟨text, said, storable⟩ := Option.bind_eq_some_iff.mp kept
      have others := ih fun c hc => stored c (by simp [hc])
      have call : callsOf (c :: rest) = (match c.1.operation with
          | .add => .add text
          | .delete => .delete text) :: callsOf rest := by
        rw [callsOf, List.filterMap_cons, Action.call?, Action.entryFor, said]
        rfl
      rw [call, List.forall_mem_cons]
      cases operation : c.1.operation with
      | add => simp [editsOf, Move.edit?, storable]
      | delete =>
          have silent : (Move.delete text).edit? [] = none := by simp [Move.edit?, storable]
          simp only [editsOf, silent, Move.collect, Option.toList_none, List.nil_append, others]
          simp

end LiveRules.Collect
