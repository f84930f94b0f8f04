import LiveRules.Proofs.Collect.Pipeline
import LiveRules.Proofs.Collect.Shutdown
import LiveRules.Proofs.Files.Walk
import Mathlib.Data.List.Perm.Basic

/-!
# Delivery of writes

What becomes of the writes that callers hand in. The writer takes the writes that
are not dropped, in the order of the changes that they belong to. A write is
dropped only when no attempt of its policy is left, and each one that is dropped
is reported. When the writer has ended nothing is left on the way.
-/
namespace LiveRules.Collect

/-- The texts in which dropped writes are reported, oldest first. -/
def dropReports (events : List LogEvent) : List String :=
  (events.filter reportsDrop).map (·.text)

theorem dropReports_append (as bs : List LogEvent) :
    dropReports (as ++ bs) = dropReports as ++ dropReports bs := by
  simp [dropReports]

theorem dropReports_quiet {events : List LogEvent}
    (quiet : ∀ e ∈ events, reportsDrop e = false) : dropReports events = [] := by
  simpa [dropReports] using quiet

/-- What is made of the entries by all changes in turn. -/
def replay (entries : List String) (submissions : List Submission) : List String :=
  (submissions.map (·.edit)).foldl Edit.apply entries

/-- The submissions are the changes of the entries. -/
theorem replay_recorded {entries : List String} {r r' : Running} {l l' : List Submission}
    (replayed : replay entries l = r.store.entries) (recorded : Recorded r r' l l') :
    replay entries l' = r'.store.entries := by
  cases recorded with
  | same entries => rw [entries, replayed]
  | @entered x _ changed =>
      rw [changed, ← replayed]
      simp [replay]
  | advanced entries _ _ edit =>
      rw [entries, ← replayed]
      simp only [replay, map_advanceFirst fun x _ => edit x]

/-- Nothing is refused before the store is closed, and everything after that. -/
def RefusedLast (s : Store) (l : List Submission) : Prop :=
  ∃ accepted refused : ℕ, (s.closed = false → refused = 0) ∧
    l.map (fun x => decide (x.fate = .refused)) =
      List.replicate accepted false ++ List.replicate refused true

theorem refusedLast_recorded {r r' : Running} {l l' : List Submission}
    (last : RefusedLast r.store l) (recorded : Recorded r r' l l') :
    RefusedLast r'.store l' := by
  obtain ⟨accepted, refused, none, last⟩ := last
  unfold RefusedLast
  cases recorded with
  | same _ closed => exact ⟨accepted, refused, fun still => none (closed still), last⟩
  | entered _ _ same fate =>
      rw [List.map_append, List.map_singleton, last, fate, same]
      cases hc : r.store.closed with
      | false =>
          obtain rfl := none hc
          exact ⟨accepted + 1, 0, fun _ => rfl, by simp [List.replicate_succ']⟩
      | true =>
          exact ⟨accepted, refused + 1, by simp, by simp [List.replicate_succ']⟩
  | @advanced fate f _ closed pending _ always =>
      have same : ∀ x, x.fate = fate →
          decide ((f x).fate = .refused) = decide (x.fate = .refused) := by
        intro x hx
        have : fate ≠ .refused := by rintro rfl; cases pending
        rw [hx, decide_eq_false (always x), decide_eq_false this]
      rw [map_advanceFirst same, closed]
      exact ⟨accepted, refused, none, last⟩

theorem dropped_enter (h : History) (x : Submission) :
    (h.enter x).dropped = h.dropped ++ [x].filter (·.fate = .dropped) := by
  simp only [History.dropped, History.enter, List.filter_append]

/-- Nothing changes among the submissions with a fate that no submission leaves or
gets. -/
theorem filter_advanceFirst {fate other : Fate} {f : Submission → Submission}
    (before : fate ≠ other) (after : ∀ x, (f x).fate ≠ other) (l : List Submission) :
    (advanceFirst fate f l).filter (·.fate = other) = l.filter (·.fate = other) := by
  induction l with
  | nil => rfl
  | cons x xs ih =>
      simp only [advanceFirst]
      split
      · rename_i hx
        have : x.fate ≠ other := hx ▸ before
        rw [List.filter_cons_of_neg (by simpa using after x),
          List.filter_cons_of_neg (by simpa using this)]
      · rw [List.filter_cons, List.filter_cons, ih]

theorem dropped_advance {h : History} {fate : Fate} {f : Submission → Submission}
    (other : fate ≠ .dropped) (kept : ∀ x, (f x).fate ≠ .dropped) :
    (h.advance fate f).dropped = h.dropped :=
  filter_advanceFirst other kept h.submissions

/-- The write that the retrier gives up is dropped after its last attempt. -/
theorem InOrder.giveUp {s : Store} {h : History} (ordered : InOrder s h) {w : Waiting}
    (sending : s.retrier = .sending w) (last : w.attemptsLeft ≤ 1) :
    ∃ x : Submission, x.op = w.op ∧ x.failures = w.tried + w.attemptsLeft ∧
      (x.edit.policy s.config).attempts ≤ x.failures ∧
      (h.advance .sending fun x => ⟨x.edit, x.failures + 1, .dropped⟩).dropped.Perm
        (h.dropped ++ [x]) := by
  obtain ⟨finished, held, queued, sent, waiting, p⟩ := ordered
  obtain ⟨x, rfl, awaits, hx, split⟩ := p.sent_singleton sending
  have others : ∀ y ∈ finished ++ held ++ queued, y.fate ≠ .sending := fun y hy same =>
    Nat.ne_of_lt (p.ahead_of_sent y hy) (congrArg Fate.stage same)
  obtain ⟨pre, post, whole, changed, -, -⟩ := advanceFirst_split
    (fun x => ⟨x.edit, x.failures + 1, .dropped⟩) split others hx
  have left := awaits.left
  have tried := awaits.tried
  have all := awaits.all
  refine ⟨⟨x.edit, x.failures + 1, .dropped⟩, awaits.op, ?_, ?_, ?_⟩
  · change x.failures + 1 = _
    omega
  · change (x.edit.policy s.config).attempts ≤ x.failures + 1
    omega
  · have without : h.dropped = pre.filter (·.fate = .dropped) ++
        post.filter (·.fate = .dropped) := by
      unfold History.dropped
      rw [whole, List.filter_append, List.filter_cons_of_neg (by simp [hx])]
    have included : (h.advance .sending fun x => ⟨x.edit, x.failures + 1, .dropped⟩).dropped =
        pre.filter (·.fate = .dropped) ++
          ⟨x.edit, x.failures + 1, .dropped⟩ :: post.filter (·.fate = .dropped) := by
      simp only [History.dropped, History.advance]
      rw [changed, List.filter_append, List.filter_cons_of_pos (by simp)]
    rw [included, without, List.append_assoc]
    exact (List.perm_append_singleton _ _).symm.append_left _

/-- The report that a dropped write calls for. -/
def reportOf (s : Store) (x : Submission) : String := (s.dropped x.op x.failures).text

/-- Dropped writes had no attempt left, and the reports are theirs. -/
structure DropsReported (r₀ r : Running) (h : History) : Prop where
  attempts : ∀ x ∈ h.dropped, (x.edit.policy r.store.config).attempts ≤ x.failures
  reports : (dropReports r.events).Perm
    (dropReports r₀.events ++ h.dropped.map (reportOf r.store))

namespace DropsReported
variable {r₀ r r' : Running} {h h' : History}

theorem quiet (reported : DropsReported r₀ r h) (dropped : h'.dropped = h.dropped)
    (place : r'.store.path = r.store.path ∧ r'.store.config = r.store.config)
    (events : dropReports r'.events = dropReports r.events) : DropsReported r₀ r' h' where
  attempts := by rw [dropped, place.2]; exact reported.attempts
  reports := by
    have same : reportOf r'.store = reportOf r.store := by
      funext x
      simp only [reportOf, Store.dropped, place.1]
    rw [dropped, events, same]
    exact reported.reports

theorem more (reported : DropsReported r₀ r h) {x : Submission}
    (dropped : h'.dropped.Perm (h.dropped ++ [x]))
    (place : r'.store.path = r.store.path ∧ r'.store.config = r.store.config)
    (all : (x.edit.policy r.store.config).attempts ≤ x.failures)
    (events : dropReports r'.events = dropReports r.events ++ [reportOf r.store x]) :
    DropsReported r₀ r' h' where
  attempts := by
    intro y hy
    rw [place.2]
    rcases List.mem_append.mp (dropped.mem_iff.mp hy) with hy | hy
    · exact reported.attempts y hy
    · rw [List.mem_singleton.mp hy]
      exact all
  reports := by
    have same : reportOf r'.store = reportOf r.store := by
      funext x
      simp only [reportOf, Store.dropped, place.1]
    rw [events, same]
    have appended := reported.reports.append_right [reportOf r.store x]
    rw [List.append_assoc] at appended
    have moved := (dropped.symm.map (reportOf r.store)).append_left (dropReports r₀.events)
    rw [List.map_append, List.map_singleton] at moved
    exact appended.trans moved

theorem step (reported : DropsReported r₀ r h) (ordered : InOrder r.store h)
    (step : Step r h r' h') : DropsReported r₀ r' h' := by
  have place := step_place step
  cases step with
  | silent quiet =>
      exact reported.quiet rfl place (by
        simp [Running.tell, dropReports_append, dropReports_quiet quiet])
  | @refused edit event _ _ quiet =>
      have dropped := dropped_enter h ⟨edit, 0, .refused⟩
      have events : dropReports [event] = [] := dropReports_quiet (by simpa using quiet)
      exact reported.quiet (dropped.trans (by simp)) place (by
        simp [Running.tell, dropReports_append, events])
  | @queued edit =>
      have dropped := dropped_enter h ⟨edit, 0, .queued⟩
      exact reported.quiet (dropped.trans (by simp)) place rfl
  | @postponed edit failures =>
      have dropped := dropped_enter h ⟨edit, failures, .waiting⟩
      exact reported.quiet (dropped.trans (by simp)) place rfl
  | @rejected edit failures _ _ all =>
      have dropped := dropped_enter h ⟨edit, failures, .dropped⟩
      exact reported.more (x := ⟨edit, failures, .dropped⟩) (by simp [dropped]) place all (by
        simp [Running.tell, dropReports, reportOf, Submission.op])
  | close | clear | snapshot => exact reported.quiet rfl place rfl
  | pop | send | retry | take =>
      exact reported.quiet (dropped_advance (by decide) (by simp [Submission.become]))
        place rfl
  | giveUp sending last =>
      obtain ⟨x, hop, failures, all, dropped⟩ := ordered.giveUp sending last
      refine reported.more dropped place all ?_
      simp only [Running.tell, Running.inBackground, dropReports_append, reportOf, hop, failures]
      simp [dropReports, reportsDrop_inBackground]
  | appended _ _ quiet | replaced _ _ quiet | failed _ quiet =>
      exact reported.quiet (dropped_advance (by decide) (by simp [Submission.become])) place
        (by simp [Running.tell, dropReports_append, dropReports_quiet quiet])

end DropsReported

theorem Run.dropsReported {r₀ r : Running} {h : History} (opened : r₀.Opened)
    (run : Run r₀ r h) : DropsReported r₀ r h := by
  have both := run.induct (P := fun r h => InOrder r.store h ∧ DropsReported r₀ r h)
    ⟨inOrder_opened opened, ⟨by simp [History.dropped], by simp [History.dropped]⟩⟩
    fun ih step => ⟨inOrder_step ih.1 step, ih.2.step ih.1 step⟩
  exact both.2

theorem Run.replayed {r₀ r : Running} {h : History} (run : Run r₀ r h) :
    replay r₀.store.entries h.submissions = r.store.entries :=
  run.induct (P := fun r h => replay r₀.store.entries h.submissions = r.store.entries) rfl
    fun ih step => replay_recorded ih (step_recorded step)

theorem Run.refusedLast {r₀ r : Running} {h : History} (run : Run r₀ r h) :
    RefusedLast r.store h.submissions :=
  run.induct (P := fun r h => RefusedLast r.store h.submissions) ⟨0, 0, fun _ => rfl, rfl⟩
    fun ih step => refusedLast_recorded ih (step_recorded step)

/-- The accepted writes that are not dropped, in the order of their changes. -/
theorem InOrder.kept_ops {s : Store} {h : History} (ordered : InOrder s h) :
    h.kept.map (·.op) = h.taken ++ s.queue ++ s.retrier.writes.map (·.op) ++
      s.backlog.map (·.op) := by
  obtain ⟨finished, held, queued, sent, waiting, p⟩ := ordered
  have ops : ∀ {xs : List Submission} {ws : List Waiting},
      List.Forall₂ (Awaits s.config) xs ws → xs.map (·.op) = ws.map (·.op) := by
    intro xs ws all
    rw [← List.forall₂_eq_eq_eq, List.forall₂_map_left_iff, List.forall₂_map_right_iff]
    exact all.imp fun _ _ awaits => awaits.op
  calc h.kept.map (·.op)
      = (finished ++ held).map (·.op) ++ queued.map (·.op) ++ sent.map (·.op) ++
          waiting.map (·.op) := by rw [p.line]; simp
    _ = _ := by rw [p.taken, p.queue, ops p.retrier, ops p.backlog]

/-- Nothing is on the way once the writer has ended. -/
theorem InOrder.ended {s : Store} {h : History} (ordered : InOrder s h)
    (ended : s.writerEnded = true) :
    s.queue = [] ∧ s.backlog = [] ∧ s.retrier = .idle ∧
      ∀ x ∈ h.submissions, x.fate.pending = false := by
  simp only [Store.writerEnded, Store.retrierEnded, Store.retrying, Store.inFlight,
    Bool.and_eq_true, Bool.not_eq_true', Bool.or_eq_false_iff, decide_eq_false_iff_not,
    not_not, Bool.not_eq_false', List.isEmpty_iff, decide_eq_true_eq] at ended
  obtain ⟨⟨⟨-, idle, backlog⟩, queue⟩, writer⟩ := ended
  refine ⟨queue, backlog, idle, ?_⟩
  obtain ⟨finished, held, queued, sent, waiting, p⟩ := ordered
  have none_held : held = [] := by simpa [writer, Writer.ops] using p.writer
  have none_queued : queued = [] := by simpa [queue] using p.queue
  have none_sent : sent = [] := by simpa [idle, Retrier.writes] using p.retrier
  have none_waiting : waiting = [] := by simpa [backlog] using p.backlog
  intro x hx
  cases hk : x.fate.kept with
  | false => revert hk; cases x.fate <;> simp [Fate.kept, Fate.pending]
  | true =>
      have line : x ∈ h.kept := List.mem_filter.mpr ⟨hx, hk⟩
      rw [p.line, none_held, none_queued, none_sent, none_waiting] at line
      have stage := p.finished_fate x (by simpa using line)
      revert stage
      cases x.fate <;> simp [Fate.stage, Fate.pending]

/-- What becomes of the writes of a store, whatever its capacity and its policies,
and in whatever order its callers, its retrier, its writer and its closing move.
The submissions are the changes of the entries, and those made while the store is
open are accepted. What the writer takes is a prefix of the accepted writes that
are not dropped, and the rest of them is on the way, in the same order. Each drop
comes after every attempt of its policy and is reported. When the store has shut
down, nothing is left on the way; a shutdown gets there by some more moves, unless
the writer waits for ever. -/
theorem writes_delivered_in_order {r₀ r : Running} {h : History} (opened : r₀.Opened)
    (run : Run r₀ r h) :
    replay r₀.store.entries h.submissions = r.store.entries ∧
    RefusedLast r.store h.submissions ∧
    h.kept.map (·.op) = h.taken ++ r.store.queue ++ r.store.retrier.writes.map (·.op) ++
      r.store.backlog.map (·.op) ∧
    DropsReported r₀ r h ∧
    (r.store.writerEnded = true →
      r.store.queue = [] ∧ r.store.backlog = [] ∧ h.taken = h.kept.map (·.op) ∧
      ∀ x ∈ h.submissions, x.fate ≠ .refused →
        x.fate.finished = true ∨ x.fate = .dropped) ∧
    (r.store.closed = false →
      ∃ ms r' h', follow r h (.close :: ms) = some (r', h') ∧
        r.shutdown = r'.tell [Store.tell .info ("closed: " ++ r.store.path)] ∧
        (r'.store.writerEnded = true ∨ r'.Waits)) := by
  have ordered := run.inOrder opened
  refine ⟨run.replayed, run.refusedLast, ordered.kept_ops, run.dropsReported opened, ?_,
    shutdown_follow h⟩
  intro ended
  obtain ⟨queue, backlog, idle, none⟩ := ordered.ended ended
  have line := ordered.kept_ops
  rw [queue, backlog, idle] at line
  refine ⟨queue, backlog, by simpa [Retrier.writes] using line.symm, ?_⟩
  intro x hx accepted
  have settled := none x hx
  revert settled accepted
  cases x.fate <;> simp [Fate.pending, Fate.finished]

/-- A store on a missing file, with room for one write and one attempt for each. -/
def crowded : Running :=
  { store := { path := "/c", config := ⟨1, ⟨1, 10⟩, ⟨1, 10⟩⟩ }, files := {} }

theorem walk_name (t : Files.Tree) :
    t.reach true "/c" = t.walk true Files.Tree.linkLimit [] ["c"] := by
  have absolute : Files.isAbsolute "/c" = true := by decide +kernel
  have steps : Files.steps "/c" = ["c"] := by decide +kernel
  simp [Files.Tree.reach, absolute, steps]

theorem missing_name : ({} : Files.Tree).reach true "/c" = .missing ["c"] := by
  rw [walk_name]
  exact Files.Tree.walk_none (by simp) (by simp) rfl

theorem found_name {t : Files.Tree} {s : String}
    (found : t.get? ["c"] = some (.file (.text s))) :
    t.reach true "/c" = .found ["c"] (.file (.text s)) := by
  rw [walk_name]
  exact Files.Tree.walk_leaf (by simp) (by simp) found (by simp) (by simp)

theorem missing_text : ({} : Files.Tree).readText "/c" = .error .notFound := by
  rw [Files.Tree.readText, Files.Tree.readContent, missing_name]

theorem crowded_reads : crowded.files.Reads crowded.store.path "" := .none missing_text

theorem crowded_opened : crowded.Opened :=
  ⟨_, by simp only [crowded, Store.load, missing_text]; rfl⟩

/-- The writer appends the line that it holds. -/
theorem line_written {r : Running} {e : String} {files : Files.Tree}
    {changes : List Files.Change} (holding : r.store.writer = .holding (.append e))
    (ready : r.files.appendWaits r.store.path = false)
    (done : r.files.append r.store.path (e ++ "\n") = .ok (files, changes)) :
    ∃ r', r.move .apply = some r' ∧ r'.store = { r.store with writer := .idle } ∧
      r'.files = files ∧
      ∀ h : History, h.note r .apply r' = h.advance .held (·.become .written) := by
  have write : r.write? = some (.append e, .ok (files, changes)) := by
    simp [Running.write?, holding, ready, done]
  simp [Running.move, Running.apply, History.note, write, Running.tell]

theorem first_line_written {r : Running} (files : r.files = {}) (path : r.store.path = "/c")
    (holding : r.store.writer = .holding (.append "a")) :
    ∃ r', r.move .apply = some r' ∧ r'.store = { r.store with writer := .idle } ∧
      r'.files = ({} : Files.Tree).set ["c"] (.file (.text "a\n")) ∧
      ∀ h : History, h.note r .apply r' = h.advance .held (·.become .written) := by
  refine @line_written r "a" _ [.created ["c"], .modified ["c"]] holding ?_ ?_
  · simp [files, path, Files.Tree.appendWaits, missing_name]
  · simp [files, path, Files.Tree.append, missing_name]

/-- The second entry is dropped, the first one is written after the store is
closed. -/
theorem writes_delivered_crowded :
    crowded.Opened ∧ ∃ r h, Run crowded r h ∧ r.store.writerEnded = true ∧
      r.store.entries = ["a", "b"] ∧ h.dropped.map (·.op) = [.append "b"] ∧
      h.taken = h.kept.map (·.op) ∧ h.taken = [.append "a"] := by
  have started : (follow crowded {} [.add "a", .add "b", .take, .close]).any (fun out =>
      out.1.files = {} && out.1.store = { crowded.store with
        entries := ["a", "b"], writer := .holding (.append "a"), closed := true } &&
      out.2.dropped.map (·.op) = [.append "b"] && out.2.taken = [.append "a"]) = true := by
    decide +kernel
  obtain ⟨⟨r, h⟩, followed, facts⟩ := (Option.any_eq_true _ _).mp started
  simp only [Bool.and_eq_true, decide_eq_true_eq] at facts
  obtain ⟨⟨⟨files, store⟩, dropped⟩, taken⟩ := facts
  obtain ⟨r', moved, store', -, noted⟩ :=
    first_line_written files (by rw [store]; rfl) (by rw [store])
  have run := (Run.start.follow followed).move moved
  have ended : r'.store.writerEnded = true := by rw [store', store]; rfl
  obtain ⟨-, -, -, -, done, -⟩ := writes_delivered_in_order crowded_opened run
  obtain ⟨-, -, all, -⟩ := done ended
  refine ⟨crowded_opened, r', _, run, ended, by rw [store', store], ?_, all, taken⟩
  rw [noted, dropped_advance (by decide) (by simp [Submission.become]), dropped]

end LiveRules.Collect
