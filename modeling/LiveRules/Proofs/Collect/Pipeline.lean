import LiveRules.Proofs.Collect.Step
import Mathlib.Data.List.Forall2

/-!
# The pipeline of writes

The submissions that were accepted and not dropped form one line: those that the
writer is done with, the one it holds, those in the queue, the one that the
retrier sends, and the backlog. Submissions enter at the end of the line and leave
it only when they are dropped, so none overtakes another.
-/
namespace LiveRules.Collect

theorem advanceFirst_append {fate : Fate} {f : Submission → Submission}
    {pre post : List Submission} {x : Submission} (hp : ∀ y ∈ pre, y.fate ≠ fate)
    (hx : x.fate = fate) :
    advanceFirst fate f (pre ++ x :: post) = pre ++ f x :: post := by
  induction pre with
  | nil => simp [advanceFirst, hx]
  | cons y ys ih =>
      have hy := hp y (by simp)
      simp only [List.cons_append, advanceFirst, hy, if_false]
      rw [ih fun z hz => hp z (by simp [hz])]

/-- The submission that is changed is the first of its kind in the line. -/
theorem advanceFirst_split {fate : Fate} (f : Submission → Submission)
    {l before after : List Submission} {x : Submission}
    (line : l.filter (·.fate.kept) = before ++ x :: after)
    (first : ∀ y ∈ before, y.fate ≠ fate) (hx : x.fate = fate) :
    ∃ pre post, l = pre ++ x :: post ∧ advanceFirst fate f l = pre ++ f x :: post ∧
      pre.filter (·.fate.kept) = before ∧ post.filter (·.fate.kept) = after := by
  obtain ⟨a, b, rfl, ha, hb⟩ := List.filter_eq_append_iff.mp line
  obtain ⟨c, d, rfl, hc, kept, hd⟩ := List.filter_eq_cons_iff.mp hb
  have others : ∀ y ∈ a ++ c, y.fate ≠ fate := by
    intro y hy same
    rcases List.mem_append.mp hy with hy | hy
    · have : y ∈ before := ha ▸ List.mem_filter.mpr ⟨hy, by simpa [same, hx] using kept⟩
      exact first y this same
    · exact hc y hy (by simpa [same, hx] using kept)
  refine ⟨a ++ c, d, by simp, ?_, ?_, hd⟩
  · rw [← List.append_assoc, advanceFirst_append others hx]
  · rw [List.filter_append, ha, List.filter_eq_nil_iff.mpr hc, List.append_nil]

/-- How far a kept write still has to go. -/
def Fate.stage : Fate → Nat
  | written | failed => 0
  | held => 1
  | queued => 2
  | sending => 3
  | waiting => 4
  | refused | dropped => 5

theorem kept_advance {h : History} {fate : Fate} (f : Submission → Submission)
    {before after : List Submission} {x : Submission}
    (line : h.kept = before ++ x :: after)
    (first : ∀ y ∈ before, y.fate.stage < fate.stage) (hx : x.fate = fate) :
    (h.advance fate f).kept = before ++ ([f x].filter (·.fate.kept) ++ after) := by
  have others : ∀ y ∈ before, y.fate ≠ fate := fun y hy same =>
    Nat.ne_of_lt (first y hy) (congrArg Fate.stage same)
  obtain ⟨pre, post, -, changed, hpre, hpost⟩ := advanceFirst_split f line others hx
  simp only [History.kept, History.advance, changed]
  rw [List.filter_append, hpre, ← List.singleton_append, List.filter_append, hpost]

theorem kept_enter (h : History) (x : Submission) :
    (h.enter x).kept = h.kept ++ [x].filter (·.fate.kept) := by
  simp only [History.kept, History.enter, List.filter_append]

/-- What the writer is busy with. -/
def Writer.ops : Writer → List WriteOp
  | .idle => []
  | .holding op => [op]
  | .replacing _ => [.replaceAll]

/-- What the retrier is busy with. -/
def Retrier.writes : Retrier → List Waiting
  | .sending w => [w]
  | .idle | .done => []

/-- A write that waits for space is that of a submission, and its attempts are
counted right. -/
structure Awaits (c : Config) (x : Submission) (w : Waiting) : Prop where
  op : x.op = w.op
  tried : w.tried = x.failures
  left : 0 < w.attemptsLeft
  all : (x.edit.policy c).attempts = w.attemptsLeft + w.tried

/-- The line of accepted submissions, cut where the store keeps them. -/
structure Pipeline (s : Store) (h : History)
    (finished held queued sent waiting : List Submission) : Prop where
  line : h.kept = finished ++ (held ++ (queued ++ (sent ++ waiting)))
  finished_fate : ∀ x ∈ finished, x.fate.stage = 0
  held_fate : ∀ x ∈ held, x.fate = .held
  queued_fate : ∀ x ∈ queued, x.fate = .queued
  sent_fate : ∀ x ∈ sent, x.fate = .sending
  waiting_fate : ∀ x ∈ waiting, x.fate = .waiting
  taken : (finished ++ held).map (·.op) = h.taken
  writer : held.map (·.op) = s.writer.ops
  queue : queued.map (·.op) = s.queue
  retrier : List.Forall₂ (Awaits s.config) sent s.retrier.writes
  backlog : List.Forall₂ (Awaits s.config) waiting s.backlog

/-- No write has overtaken another one. -/
def InOrder (s : Store) (h : History) : Prop :=
  ∃ finished held queued sent waiting, Pipeline s h finished held queued sent waiting

namespace Pipeline
variable {s s' : Store} {h h' : History} {finished held queued sent waiting : List Submission}

/-- Whatever leaves the line and its places alone leaves the pipeline alone. -/
theorem congr (p : Pipeline s h finished held queued sent waiting)
    (line : h'.kept = h.kept) (taken : h'.taken = h.taken) (config : s'.config = s.config)
    (writer : s'.writer.ops = s.writer.ops) (queue : s'.queue = s.queue)
    (retrier : s'.retrier.writes = s.retrier.writes) (backlog : s'.backlog = s.backlog) :
    Pipeline s' h' finished held queued sent waiting where
  line := line.trans p.line
  finished_fate := p.finished_fate
  held_fate := p.held_fate
  queued_fate := p.queued_fate
  sent_fate := p.sent_fate
  waiting_fate := p.waiting_fate
  taken := p.taken.trans taken.symm
  writer := p.writer.trans writer.symm
  queue := p.queue.trans queue.symm
  retrier := by rw [config, retrier]; exact p.retrier
  backlog := by rw [config, backlog]; exact p.backlog

theorem ahead_of_queued (p : Pipeline s h finished held queued sent waiting) :
    ∀ x ∈ finished ++ held, x.fate.stage < Fate.queued.stage := by
  intro x hx
  rcases List.mem_append.mp hx with done | held
  · rw [p.finished_fate x done]
    decide
  · rw [p.held_fate x held]
    decide

theorem ahead_of_sent (p : Pipeline s h finished held queued sent waiting) :
    ∀ x ∈ finished ++ held ++ queued, x.fate.stage < Fate.sending.stage := by
  intro x hx
  rcases List.mem_append.mp hx with ahead | queued
  · exact Nat.lt_trans (p.ahead_of_queued x ahead) (by decide)
  · rw [p.queued_fate x queued]
    decide

theorem ahead_of_waiting (p : Pipeline s h finished held queued sent waiting) :
    ∀ x ∈ finished ++ held ++ queued ++ sent, x.fate.stage < Fate.waiting.stage := by
  intro x hx
  rcases List.mem_append.mp hx with ahead | sent
  · exact Nat.lt_trans (p.ahead_of_sent x ahead) (by decide)
  · rw [p.sent_fate x sent]
    decide

theorem enter_waiting (p : Pipeline s h finished held queued sent waiting)
    {x : Submission} {w : Waiting} (fate : x.fate = .waiting) (awaits : Awaits s.config x w)
    (config : s'.config = s.config) (writer : s'.writer = s.writer)
    (queue : s'.queue = s.queue) (retrier : s'.retrier = s.retrier)
    (backlog : s'.backlog = s.backlog ++ [w]) :
    Pipeline s' (h.enter x) finished held queued sent (waiting ++ [x]) where
  line := by
    rw [kept_enter, p.line]
    simp [fate, Fate.kept]
  finished_fate := p.finished_fate
  held_fate := p.held_fate
  queued_fate := p.queued_fate
  sent_fate := p.sent_fate
  waiting_fate := by
    intro y hy
    rcases List.mem_append.mp hy with hy | hy
    · exact p.waiting_fate y hy
    · rw [List.mem_singleton.mp hy, fate]
  taken := p.taken
  writer := by rw [writer, p.writer]
  queue := by rw [queue, p.queue]
  retrier := by rw [config, retrier]; exact p.retrier
  backlog := by
    rw [config, backlog]
    exact List.rel_append p.backlog (.cons awaits .nil)

/-- A write is queued at once only if nothing waits. -/
theorem enter_queued (p : Pipeline s h finished held queued sent waiting)
    {x : Submission} (fate : x.fate = .queued) (steady : s.retrying = false)
    (writer : s'.writer = s.writer) (queue : s'.queue = s.queue ++ [x.op])
    (retrier : s'.retrier = s.retrier) (backlog : s'.backlog = s.backlog) :
    Pipeline s' (h.enter x) finished held (queued ++ [x]) [] [] := by
  simp only [Store.retrying, Store.inFlight, Bool.or_eq_false_iff, decide_eq_false_iff_not,
    not_not, Bool.not_eq_false', List.isEmpty_iff] at steady
  have none_sent : sent = [] := by
    have := p.retrier
    rwa [steady.1, Retrier.writes, List.forall₂_nil_right_iff] at this
  have none_waiting : waiting = [] := by
    have := p.backlog
    rwa [steady.2, List.forall₂_nil_right_iff] at this
  subst none_sent none_waiting
  exact {
    line := by
      rw [kept_enter, p.line]
      simp [fate, Fate.kept]
    finished_fate := p.finished_fate
    held_fate := p.held_fate
    queued_fate := by
      intro y hy
      rcases List.mem_append.mp hy with hy | hy
      · exact p.queued_fate y hy
      · rw [List.mem_singleton.mp hy, fate]
    sent_fate := by simp
    waiting_fate := by simp
    taken := p.taken
    writer := by rw [writer, p.writer]
    queue := by rw [queue, List.map_append, p.queue, List.map_singleton]
    retrier := by rw [retrier, steady.1]; exact .nil
    backlog := by rw [backlog, steady.2]; exact .nil }

theorem pop (p : Pipeline s h finished held queued sent waiting) {w : Waiting}
    {rest : List Waiting} (idle : s.retrier = .idle) (oldest : s.backlog = w :: rest) :
    InOrder { s with backlog := rest, retrier := .sending w }
      (h.advance .waiting (·.become .sending)) := by
  have none_sent : sent = [] := by
    have := p.retrier
    rwa [idle, Retrier.writes, List.forall₂_nil_right_iff] at this
  have backlog := p.backlog
  rw [oldest, List.forall₂_cons_right_iff] at backlog
  obtain ⟨x, ws, awaits, others, rfl⟩ := backlog
  have hx : x.fate = .waiting := p.waiting_fate x (by simp)
  have split : h.kept = finished ++ held ++ queued ++ sent ++ x :: ws := by
    simp only [p.line, List.append_assoc]
  have line := kept_advance (·.become .sending) split p.ahead_of_waiting hx
  subst none_sent
  refine ⟨finished, held, queued, [x.become .sending], ws, ?_⟩
  exact { p with
    line := by simpa [Submission.become, Fate.kept] using line
    sent_fate := by simp [Submission.become]
    waiting_fate := fun y hy => p.waiting_fate y (by simp [hy])
    retrier := .cons ⟨awaits.op, awaits.tried, awaits.left, awaits.all⟩ .nil
    backlog := others }

theorem sent_singleton (p : Pipeline s h finished held queued sent waiting) {w : Waiting}
    (sending : s.retrier = .sending w) :
    ∃ x, sent = [x] ∧ Awaits s.config x w ∧ x.fate = .sending ∧
      h.kept = finished ++ held ++ queued ++ x :: waiting := by
  have retrier := p.retrier
  rw [sending, Retrier.writes, List.forall₂_cons_right_iff] at retrier
  obtain ⟨x, xs, awaits, others, rfl⟩ := retrier
  rw [List.forall₂_nil_right_iff] at others
  subst others
  exact ⟨x, rfl, awaits, p.sent_fate x (by simp), by simp [p.line]⟩

theorem send (p : Pipeline s h finished held queued sent waiting) {w : Waiting}
    (sending : s.retrier = .sending w) :
    InOrder { s with queue := s.queue ++ [w.op], retrier := .done }
      (h.advance .sending (·.become .queued)) := by
  obtain ⟨x, rfl, awaits, hx, split⟩ := p.sent_singleton sending
  have line := kept_advance (·.become .queued) split p.ahead_of_sent hx
  refine ⟨finished, held, queued ++ [x.become .queued], [], waiting, ?_⟩
  exact { p with
    line := by simpa [Submission.become, Fate.kept] using line
    queued_fate := by
      intro y hy
      rcases List.mem_append.mp hy with hy | hy
      · exact p.queued_fate y hy
      · rw [List.mem_singleton.mp hy]; rfl
    sent_fate := by simp
    queue := by
      rw [List.map_append, p.queue, List.map_singleton, ← awaits.op]
      rfl
    retrier := .nil }

theorem retry (p : Pipeline s h finished held queued sent waiting) {w : Waiting}
    (sending : s.retrier = .sending w) (more : 1 < w.attemptsLeft) :
    InOrder
      { s with
        retrier := .sending
          { w with attemptsLeft := w.attemptsLeft - 1, tried := w.tried + 1 } }
      (h.advance .sending fun x => ⟨x.edit, x.failures + 1, .sending⟩) := by
  obtain ⟨x, rfl, awaits, hx, split⟩ := p.sent_singleton sending
  have line := kept_advance (fun x => ⟨x.edit, x.failures + 1, .sending⟩)
    split p.ahead_of_sent hx
  refine ⟨finished, held, queued, [⟨x.edit, x.failures + 1, .sending⟩], waiting, ?_⟩
  have count := awaits.all
  exact { p with
    line := by simpa [Fate.kept] using line
    sent_fate := by simp
    retrier := .cons
      { op := awaits.op
        tried := congrArg (· + 1) awaits.tried
        left := by change 0 < w.attemptsLeft - 1; omega
        all := by
          change (x.edit.policy s.config).attempts = w.attemptsLeft - 1 + (w.tried + 1)
          omega } .nil }

theorem giveUp (p : Pipeline s h finished held queued sent waiting) {w : Waiting}
    (sending : s.retrier = .sending w) :
    InOrder { s with retrier := .done }
      (h.advance .sending fun x => ⟨x.edit, x.failures + 1, .dropped⟩) := by
  obtain ⟨x, rfl, -, hx, split⟩ := p.sent_singleton sending
  have line := kept_advance (fun x => ⟨x.edit, x.failures + 1, .dropped⟩)
    split p.ahead_of_sent hx
  refine ⟨finished, held, queued, [], waiting, ?_⟩
  exact { p with
    line := by simpa [Fate.kept] using line
    sent_fate := by simp
    retrier := .nil }

theorem take (p : Pipeline s h finished held queued sent waiting) {op : WriteOp}
    {rest : List WriteOp} (idle : s.writer = .idle) (oldest : s.queue = op :: rest) :
    InOrder { s with queue := rest, writer := .holding op }
      ((h.advance .queued (·.become .held)).take op) := by
  have none_held : held = [] := by
    have := p.writer
    rwa [idle, Writer.ops, List.map_eq_nil_iff] at this
  have queue := p.queue
  rw [oldest, List.map_eq_cons_iff] at queue
  obtain ⟨x, xs, rfl, hop, others⟩ := queue
  have hx : x.fate = .queued := p.queued_fate x (by simp)
  have split : h.kept = finished ++ held ++ x :: (xs ++ (sent ++ waiting)) := by
    simp [p.line]
  have line := kept_advance (·.become .held) split p.ahead_of_queued hx
  subst none_held
  refine ⟨finished, [x.become .held], xs, sent, waiting, ?_⟩
  exact { p with
    line := line.trans (by simp [Submission.become, Fate.kept])
    held_fate := by simp [Submission.become]
    queued_fate := fun y hy => p.queued_fate y (by simp [hy])
    taken := by
      have := p.taken
      simp only [List.append_nil] at this
      rw [List.map_append, this, List.map_singleton]
      simp only [History.take, History.advance, ← hop]
      rfl
    writer := by rw [List.map_singleton, Writer.ops, ← hop]; rfl
    queue := others }

/-- The writer gets rid of what it holds. -/
theorem finish (p : Pipeline s h finished held queued sent waiting) {fate : Fate}
    (busy : s.writer ≠ .idle) (terminal : fate.stage = 0) :
    InOrder { s with writer := .idle } (h.advance .held (·.become fate)) := by
  obtain ⟨x, rfl⟩ : ∃ x, held = [x] := by
    have := congrArg List.length p.writer
    rw [List.length_map] at this
    rw [← List.length_eq_one_iff, this]
    cases hw : s.writer with
    | idle => exact absurd hw busy
    | holding op => rfl
    | replacing entries => rfl
  have hx : x.fate = .held := p.held_fate x (by simp)
  have kept : fate.kept = true := by cases fate <;> simp_all [Fate.stage, Fate.kept]
  have line := kept_advance (·.become fate) p.line
    (fun y hy => by rw [p.finished_fate y hy]; decide) hx
  refine ⟨finished ++ [x.become fate], [], queued, sent, waiting, ?_⟩
  exact { p with
    line := by simpa [Submission.become, kept] using line
    finished_fate := by
      intro y hy
      rcases List.mem_append.mp hy with hy | hy
      · exact p.finished_fate y hy
      · rw [List.mem_singleton.mp hy]; exact terminal
    held_fate := by simp
    taken := by
      have := p.taken
      simp only [List.map_append, List.map_singleton, List.append_nil] at this ⊢
      exact this
    writer := rfl }

end Pipeline

theorem inOrder_step {r r' : Running} {h h' : History} (ordered : InOrder r.store h)
    (step : Step r h r' h') : InOrder r'.store h' := by
  obtain ⟨finished, held, queued, sent, waiting, p⟩ := ordered
  cases step with
  | silent => exact ⟨_, _, _, _, _, p⟩
  | @refused edit =>
      have line := kept_enter h ⟨edit, 0, .refused⟩
      exact ⟨_, _, _, _, _, p.congr (line.trans (List.append_nil _)) rfl rfl rfl rfl rfl rfl⟩
  | @rejected edit failures =>
      have line := kept_enter h ⟨edit, failures, .dropped⟩
      exact ⟨_, _, _, _, _, p.congr (line.trans (List.append_nil _)) rfl rfl rfl rfl rfl rfl⟩
  | queued _ _ steady => exact ⟨_, _, _, _, _, p.enter_queued rfl steady rfl rfl rfl rfl⟩
  | @postponed edit failures left backoff _ _ more all =>
      have awaits : Awaits r.store.config ⟨edit, failures, .waiting⟩
          ⟨edit.op, left, backoff, failures⟩ := ⟨rfl, rfl, more, all⟩
      exact ⟨_, _, _, _, _, p.enter_waiting rfl awaits rfl rfl rfl rfl rfl⟩
  | close => exact ⟨_, _, _, _, _, p.congr rfl rfl rfl rfl rfl rfl rfl⟩
  | pop idle oldest => exact p.pop idle oldest
  | send sending => exact p.send sending
  | retry sending more => exact p.retry sending more
  | giveUp sending => exact p.giveUp sending
  | clear finished =>
      exact ⟨_, _, _, _, _, p.congr rfl rfl rfl rfl rfl (by simp [finished, Retrier.writes]) rfl⟩
  | take idle oldest => exact p.take idle oldest
  | snapshot holding =>
      exact ⟨_, _, _, _, _, p.congr rfl rfl rfl (by simp [holding, Writer.ops]) rfl rfl rfl⟩
  | appended holding => exact p.finish (by simp [holding]) rfl
  | replaced replacing => exact p.finish (by simp [replacing]) rfl
  | failed busy => exact p.finish busy rfl

theorem inOrder_opened {r : Running} (opened : r.Opened) : InOrder r.store {} := by
  obtain ⟨event, loaded⟩ := opened
  obtain ⟨entries, hs⟩ : ∃ entries,
      r.store = { path := r.store.path, config := r.store.config, entries } := by
    unfold Store.load at loaded
    split at loaded <;> simp only [reduceCtorEq, Except.ok.injEq, Store.load.withEntries,
      Prod.mk.injEq] at loaded <;> exact ⟨_, loaded.1.symm⟩
  rw [hs]
  refine ⟨[], [], [], [], [], ?_⟩
  exact {
    line := rfl
    finished_fate := by simp
    held_fate := by simp
    queued_fate := by simp
    sent_fate := by simp
    waiting_fate := by simp
    taken := rfl
    writer := rfl
    queue := rfl
    retrier := .nil
    backlog := .nil }

theorem Run.inOrder {r₀ r : Running} {h : History} (opened : r₀.Opened) (run : Run r₀ r h) :
    InOrder r.store h :=
  run.induct (P := fun r h => InOrder r.store h) (inOrder_opened opened) inOrder_step

end LiveRules.Collect
