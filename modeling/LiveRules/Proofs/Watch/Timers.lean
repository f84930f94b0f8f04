import LiveRules.Proofs.Watch.EventLoop

/-!
# Each path settles by itself

The loop has one deadline for all paths, and yet starts what a timer for each path
would start: a reload at the end of the window after a change, if the path does not
change again within the window and the loop is not cancelled by then. What is no
change of a watched path plays no part.
-/
namespace LiveRules.Watch
open Files (samePath components)

/-- At the time a notice arrives of a change of the path. -/
def ChangesAt (includeRename : Bool) (arrivals : List (Nat × Notice)) (path : String)
    (time : Nat) : Prop :=
  ∃ n, (time, n) ∈ arrivals ∧ n.Qualifies includeRename path

theorem changesAt_congr {includeRename : Bool} {arrivals : List (Nat × Notice)}
    {path other : String} (same : components path = components other) {time : Nat} :
    ChangesAt includeRename arrivals path time ↔ ChangesAt includeRename arrivals other time :=
  exists_congr fun _ => and_congr_right fun _ => Notice.qualifies_congr same

theorem changesAt_append {includeRename : Bool} {before after : List (Nat × Notice)}
    {path : String} {time : Nat} : ChangesAt includeRename (before ++ after) path time ↔
      ChangesAt includeRename before path time ∨ ChangesAt includeRename after path time := by
  simp only [ChangesAt, List.mem_append, or_and_right, exists_or]

theorem changesAt_singleton {includeRename : Bool} {t : Nat} {n : Notice} {path : String}
    {time : Nat} : ChangesAt includeRename [(t, n)] path time ↔
      time = t ∧ n.Qualifies includeRename path := by
  simp [ChangesAt, and_assoc]

/-- A timer of the path alone goes off at the time: a change started it a window before,
and no other change came in between. -/
def Fires (includeRename : Bool) (window : Nat) (arrivals : List (Nat × Notice))
    (path : String) (time : Nat) : Prop :=
  ∃ t, time = t + window ∧ ChangesAt includeRename arrivals path t ∧
    ∀ t', ChangesAt includeRename arrivals path t' → t < t' → time < t'

theorem fires_iff {includeRename : Bool} {window : Nat} {arrivals : List (Nat × Notice)}
    {path : String} {time : Nat} : Fires includeRename window arrivals path time ↔
      ∃ a ∈ arrivals, time = a.1 + window ∧ a.2.Qualifies includeRename path ∧
        ∀ b ∈ arrivals, b.2.Qualifies includeRename path → a.1 < b.1 → time < b.1 := by
  constructor
  · rintro ⟨t, due, ⟨n, listed, changed⟩, last⟩
    exact ⟨(t, n), listed, due, changed, fun b member hit lt => last b.1 ⟨b.2, member, hit⟩ lt⟩
  · rintro ⟨a, listed, due, changed, last⟩
    refine ⟨a.1, due, ⟨a.2, listed, changed⟩, ?_⟩
    rintro t' ⟨n, member, hit⟩ lt
    exact last (t', n) member hit lt

instance (includeRename : Bool) (window : Nat) (arrivals : List (Nat × Notice)) (path : String)
    (time : Nat) : Decidable (Fires includeRename window arrivals path time) :=
  decidable_of_iff' _ fires_iff

/-- How many reloads were started for a path at a time. -/
def EventLoop.count (l : EventLoop) (path : String) (time : Nat) : Nat :=
  l.starts.countP fun s => samePath s.1 path && s.2 == time

namespace EventLoop

/-- A change of the path has been overtaken by another one, or is waited for, or a reload
was started for it. -/
def Accounted (past : List (Nat × Notice)) (l : EventLoop) (path : String) (t : Nat) : Prop :=
  (∃ t', ChangesAt l.watcher.includeRename past path t' ∧ t < t' ∧
    t' ≤ t + l.watcher.debouncer.window) ∨
  l.watcher.debouncer.changed? path = some t ∨
  ∃ s ∈ l.starts, components s.1 = components path ∧ s.2 = t + l.watcher.debouncer.window

/-- What the loop has made of the notices in `past`. -/
structure Timed (past : List (Nat × Notice)) (l : EventLoop) : Prop where
  ordered : ((past ++ l.arrivals).map (·.1)).Pairwise (· ≤ ·)
  running : l.watcher.closed = false
  apart : l.watcher.debouncer.Apart
  watched : l.watcher.OnlyWatched
  /-- A path waits from its last change on. -/
  last : ∀ path, l.watcher.paths.contains path = true → ∀ t,
    l.watcher.debouncer.changed? path = some t → ChangesAt l.watcher.includeRename past path t ∧
      ∀ t', ChangesAt l.watcher.includeRename past path t' → t' ≤ t
  accounted : ∀ path, l.watcher.paths.contains path = true → ∀ t,
    ChangesAt l.watcher.includeRename past path t → Accounted past l path t
  /-- Reloads start when a timer goes off. -/
  fired : ∀ s ∈ l.starts, l.watcher.paths.contains s.1 = true ∧ l.cancelledBy s.2 = false ∧
    Fires l.watcher.includeRename l.watcher.debouncer.window past s.1 s.2
  early : ∀ s ∈ l.starts, ∀ a ∈ l.arrivals, s.2 < a.1
  behind : ∀ s ∈ l.starts, ∀ p ∈ l.watcher.debouncer.pending,
    s.2 < p.2 + l.watcher.debouncer.window
  single : l.starts.Pairwise fun a b => ¬ (components a.1 = components b.1 ∧ a.2 = b.2)

variable {l m r : EventLoop} {past : List (Nat × Notice)}

theorem starts_wake (l : EventLoop) (now : Nat) : (l.wake now).starts =
    l.starts ++ (l.watcher.take now).1.map fun path => (path, now) := by
  simp [starts, wake]

namespace Timed

theorem start (name : String) (paths : PathSet) (includeRename : Bool) (window : Nat)
    {arrivals : List (Nat × Notice)} (ordered : (arrivals.map (·.1)).Pairwise (· ≤ ·))
    (cancel : Option Nat) :
    Timed [] (start name paths includeRename window arrivals cancel) where
  ordered := ordered
  running := rfl
  apart := .nil
  watched := nofun
  last := nofun
  accounted := by
    rintro path - t ⟨n, none, -⟩
    cases none
  fired := nofun
  early := nofun
  behind := nofun
  single := .nil

theorem take_eq (timed : Timed past l) (now : Nat) : l.watcher.take now =
    ((l.watcher.debouncer.take now).1,
      { l.watcher with debouncer := (l.watcher.debouncer.take now).2 }) := by
  simp [Watcher.take, timed.running]

theorem watcher_wake (timed : Timed past l) (now : Nat) : (l.wake now).watcher =
    { l.watcher with debouncer := (l.watcher.debouncer.take now).2 } := by
  rw [EventLoop.wake, timed.take_eq]

theorem deadline?_eq (timed : Timed past l) :
    l.watcher.deadline? = l.watcher.debouncer.deadline? := by
  simp [Watcher.deadline?, timed.running]

/-- All that has been taken came before all that still arrives. -/
theorem past_le (timed : Timed past l) {path : String} {t : Nat}
    (changed : ChangesAt l.watcher.includeRename past path t) :
    ∀ a ∈ l.arrivals, t ≤ a.1 := by
  obtain ⟨n, listed, -⟩ := changed
  intro a arrives
  have ordered := timed.ordered
  rw [List.map_append, List.pairwise_append] at ordered
  exact ordered.2.2 t (List.mem_map_of_mem listed) a.1 (List.mem_map_of_mem arrives)

/-- What comes first of all that still arrives comes before the rest. -/
theorem before_all (timed : Timed past l) {time : Nat}
    (first : ∀ a ∈ l.arrivals.head?, time < a.1) : ∀ a ∈ l.arrivals, time < a.1 := by
  have ordered := timed.ordered
  rw [List.map_append, List.pairwise_append] at ordered
  cases arrivals : l.arrivals with
  | nil => exact fun a none => nomatch none
  | cons a rest =>
      rw [arrivals] at first ordered
      have head : time < a.1 := first a rfl
      have after := (List.pairwise_cons.mp ordered.2.1).1
      intro b listed
      rcases List.mem_cons.mp listed with rfl | listed
      · exact head
      · have le : a.1 ≤ b.1 := after b.1 (List.mem_map_of_mem listed)
        omega

/-- What settles at a deadline has been waited for until just then. -/
theorem released (timed : Timed past l) {deadline : Nat}
    (next : l.watcher.deadline? = some deadline) {s : String × Nat}
    (started : s ∈ (l.wake deadline).starts) : s ∈ l.starts ∨
      ∃ t, (s.1, t) ∈ l.watcher.debouncer.pending ∧ s.2 = deadline ∧
        deadline = t + l.watcher.debouncer.window := by
  rw [starts_wake, timed.take_eq] at started
  rcases List.mem_append.mp started with old | new
  · exact .inl old
  · obtain ⟨q, ready, rfl⟩ := List.mem_map.mp new
    obtain ⟨t, pending, settled⟩ := Debouncer.mem_take.mp ready
    rw [timed.deadline?_eq] at next
    have le := (Debouncer.deadline?_eq_some next).2 (q, t) pending
    exact .inr ⟨t, pending, rfl, by omega⟩

theorem before_deadline (timed : Timed past l) {deadline : Nat}
    (next : l.watcher.deadline? = some deadline) : ∀ s ∈ l.starts, s.2 < deadline := by
  rw [timed.deadline?_eq] at next
  obtain ⟨⟨p, pending, rfl⟩, -⟩ := Debouncer.deadline?_eq_some next
  exact fun s started => timed.behind s started p pending

/-- What has been waited for a whole window is started, and nothing else is given up. -/
theorem accounted_wake (timed : Timed past l) {deadline : Nat}
    (next : l.watcher.deadline? = some deadline) {path : String} {t : Nat}
    (accounted : Accounted past l path t) : Accounted past (l.wake deadline) path t := by
  unfold Accounted
  rw [starts_wake, timed.watcher_wake, timed.take_eq]
  rcases accounted with overtaken | waiting | ⟨s, old, here⟩
  · exact .inl overtaken
  · obtain ⟨q, pending, same⟩ := Debouncer.mem_of_changed? waiting
    by_cases settled : t + l.watcher.debouncer.window ≤ deadline
    · have ready := Debouncer.mem_take.mpr ⟨t, pending, settled⟩
      rw [timed.deadline?_eq] at next
      have le := (Debouncer.deadline?_eq_some next).2 (q, t) pending
      exact .inr (.inr ⟨(q, deadline), List.mem_append_right _ (List.mem_map_of_mem ready), same,
        Nat.le_antisymm le settled⟩)
    · have kept := Debouncer.mem_pending_take.mpr ⟨pending, Nat.lt_of_not_le settled⟩
      have apart := Debouncer.apart_take timed.apart deadline
      exact .inr (.inl (Debouncer.changed?_of_mem apart kept same))
  · exact .inr (.inr ⟨s, List.mem_append_left _ old, here⟩)

theorem wake (timed : Timed past l) {deadline : Nat}
    (next : l.watcher.deadline? = some deadline)
    (first : ∀ a ∈ l.arrivals.head?, deadline < a.1) (on : l.cancelledBy deadline = false) :
    Timed past (l.wake deadline) := by
  have watcher := timed.watcher_wake deadline
  have started := @released l past timed deadline next
  have earlier := timed.before_deadline next
  have later := timed.before_all first
  have apart := Debouncer.apart_take timed.apart deadline
  constructor
  · exact timed.ordered
  · rw [watcher]
    exact timed.running
  · rw [watcher]
    exact apart
  · rw [watcher]
    exact fun p kept => timed.watched p (Debouncer.mem_pending_take.mp kept).1
  · rw [watcher]
    intro path watched t waits
    obtain ⟨q, kept, same⟩ := Debouncer.mem_of_changed? waits
    have before := (Debouncer.mem_pending_take.mp kept).1
    exact timed.last path watched t (Debouncer.changed?_of_mem timed.apart before same)
  · intro path watched t changed
    rw [watcher] at watched changed
    exact timed.accounted_wake next (timed.accounted path watched t changed)
  · rw [watcher]
    intro s new
    rcases started new with old | ⟨t, pending, now, due⟩
    · exact timed.fired s old
    · have watched := timed.watched _ pending
      obtain ⟨changed, last⟩ := timed.last s.1 watched t
        (Debouncer.changed?_of_mem timed.apart pending rfl)
      refine ⟨watched, now ▸ on, t, now.trans due, changed, fun t' changed' lt => ?_⟩
      have le := last t' changed'
      omega
  · intro s new a arrives
    rcases started new with old | ⟨t, pending, now, due⟩
    · exact timed.early s old a arrives
    · rw [now]
      exact later a arrives
  · rw [watcher]
    intro s new p kept
    obtain ⟨pending, more⟩ := Debouncer.mem_pending_take.mp kept
    rcases started new with old | ⟨t, -, now, -⟩
    · exact timed.behind s old p pending
    · rw [now]
      exact more
  · rw [starts_wake, timed.take_eq, List.pairwise_append]
    refine ⟨timed.single, ?_, ?_⟩
    · refine List.pairwise_map.mpr ((Debouncer.pairwise_take timed.apart deadline).imp ?_)
      exact fun different same => different same.1
    · intro s old new listed
      obtain ⟨q, -, rfl⟩ := List.mem_map.mp listed
      have lt := earlier s old
      rintro ⟨-, same⟩
      have same : s.2 = deadline := same
      omega

/-- Nothing that is waited for was due before a notice is taken. -/
theorem not_overdue (timed : Timed past l) {time : Nat}
    (first : ∀ deadline ∈ l.watcher.deadline?, time ≤ deadline) :
    ∀ p ∈ l.watcher.debouncer.pending, time ≤ p.2 + l.watcher.debouncer.window := by
  intro p pending
  cases next : l.watcher.debouncer.deadline? with
  | none =>
      rw [Debouncer.deadline?_eq_none.mp next] at pending
      cases pending
  | some deadline =>
      have le := (Debouncer.deadline?_eq_some next).2 p pending
      have due := first deadline (timed.deadline?_eq.trans next)
      omega

section Handle
variable {time : Nat} {n : Notice} {rest : List (Nat × Notice)}

/-- The loop after it has taken a notice. -/
abbrev taken (l : EventLoop) (time : Nat) (n : Notice) (rest : List (Nat × Notice)) : EventLoop :=
  { l with watcher := l.watcher.handle time n, arrivals := rest }

theorem last_handle (timed : Timed past l) (arrives : l.arrivals = (time, n) :: rest)
    {path : String} (watched : l.watcher.paths.contains path = true) {t : Nat}
    (waits : (l.watcher.handle time n).debouncer.changed? path = some t) :
    ChangesAt l.watcher.includeRename (past ++ [(time, n)]) path t ∧
      ∀ t', ChangesAt l.watcher.includeRename (past ++ [(time, n)]) path t' → t' ≤ t := by
  have now : (time, n) ∈ l.arrivals := arrives ▸ List.mem_cons_self
  by_cases changed : n.Qualifies l.watcher.includeRename path
  · rw [Watcher.changed?_handle_hit watched changed] at waits
    obtain rfl := Option.some.inj waits
    refine ⟨changesAt_append.mpr (.inr (changesAt_singleton.mpr ⟨rfl, changed⟩)), ?_⟩
    intro t' changed'
    rcases changesAt_append.mp changed' with before | just
    · exact timed.past_le before _ now
    · exact Nat.le_of_eq (changesAt_singleton.mp just).1
  · rw [Watcher.changed?_handle_miss watched changed] at waits
    obtain ⟨changed', last⟩ := timed.last path watched t waits
    refine ⟨changesAt_append.mpr (.inl changed'), fun t' at_ => ?_⟩
    rcases changesAt_append.mp at_ with before | just
    · exact last t' before
    · exact absurd (changesAt_singleton.mp just).2 changed

theorem accounted_handle (timed : Timed past l) (arrives : l.arrivals = (time, n) :: rest)
    (first : ∀ deadline ∈ l.watcher.deadline?, time ≤ deadline) {path : String}
    (watched : l.watcher.paths.contains path = true) {t : Nat}
    (changed : ChangesAt l.watcher.includeRename (past ++ [(time, n)]) path t) :
    Accounted (past ++ [(time, n)]) (taken l time n rest) path t := by
  have now : (time, n) ∈ l.arrivals := arrives ▸ List.mem_cons_self
  unfold Accounted taken
  rw [Watcher.window_handle]
  -- What is waited for stays so, unless the notice overtakes it.
  have waiting (pending : l.watcher.debouncer.changed? path = some t)
      (before : ChangesAt l.watcher.includeRename past path t) :
      (∃ t', ChangesAt l.watcher.includeRename (past ++ [(time, n)]) path t' ∧ t < t' ∧
        t' ≤ t + l.watcher.debouncer.window) ∨
      (l.watcher.handle time n).debouncer.changed? path = some t := by
    by_cases hits : n.Qualifies l.watcher.includeRename path
    · obtain ⟨q, listed, -⟩ := Debouncer.mem_of_changed? pending
      have due := timed.not_overdue first _ listed
      rcases Nat.lt_or_eq_of_le (timed.past_le before _ now) with lt | same
      · exact .inl ⟨time, changesAt_append.mpr (.inr (changesAt_singleton.mpr ⟨rfl, hits⟩)), lt, due⟩
      · have same : t = time := same
        exact .inr (same ▸ Watcher.changed?_handle_hit watched hits time)
    · exact .inr ((Watcher.changed?_handle_miss watched hits time).trans pending)
  rcases changesAt_append.mp changed with before | just
  · rcases timed.accounted path watched t before with ⟨t', later, lt, within⟩ | pending | done
    · exact .inl ⟨t', changesAt_append.mpr (.inl later), lt, within⟩
    · rcases waiting pending before with overtaken | still
      · exact .inl overtaken
      · exact .inr (.inl still)
    · exact .inr (.inr done)
  · obtain ⟨rfl, hits⟩ := changesAt_singleton.mp just
    exact .inr (.inl (Watcher.changed?_handle_hit watched hits t))

theorem handle (timed : Timed past l) (arrives : l.arrivals = (time, n) :: rest)
    (first : ∀ deadline ∈ l.watcher.deadline?, time ≤ deadline) :
    Timed (past ++ [(time, n)]) (taken l time n rest) := by
  have now : (time, n) ∈ l.arrivals := arrives ▸ List.mem_cons_self
  have apart := Watcher.apart_handle timed.apart time n
  have only := Watcher.onlyWatched_handle timed.watched time n
  constructor
  · have ordered := timed.ordered
    rw [arrives] at ordered
    simpa using ordered
  · exact timed.running
  · exact apart
  · exact only
  · exact fun path watched t waits => timed.last_handle arrives watched waits
  · exact fun path watched t changed => timed.accounted_handle arrives first watched changed
  · intro s started
    obtain ⟨watched, on, t, due, changed, last⟩ := timed.fired s started
    have before := timed.early s started _ now
    refine ⟨watched, on, t, ?_, changesAt_append.mpr (.inl changed), fun t' changed' lt => ?_⟩
    · rw [Watcher.window_handle]
      exact due
    · rcases changesAt_append.mp changed' with old | just
      · exact last t' old lt
      · rw [(changesAt_singleton.mp just).1]
        exact before
  · exact fun s started a listed => timed.early s started a (arrives ▸ List.mem_cons_of_mem _ listed)
  · intro s started p pending
    have before := timed.early s started _ now
    have before : s.2 < time := before
    have watched : l.watcher.paths.contains p.1 = true := only p pending
    have own := Debouncer.changed?_of_mem apart pending rfl
    rw [Watcher.window_handle]
    by_cases changed : n.Qualifies l.watcher.includeRename p.1
    · rw [Watcher.changed?_handle_hit watched changed] at own
      have same : time = p.2 := Option.some.inj own
      omega
    · rw [Watcher.changed?_handle_miss watched changed] at own
      obtain ⟨q, old, -⟩ := Debouncer.mem_of_changed? own
      exact timed.behind s started (q, p.2) old
  · exact timed.single

end Handle

end Timed

/-- What a turn leaves as it is. -/
structure SameTask (l m : EventLoop) : Prop where
  paths : m.watcher.paths = l.watcher.paths
  includeRename : m.watcher.includeRename = l.watcher.includeRename
  window : m.watcher.debouncer.window = l.watcher.debouncer.window
  cancel : m.cancel = l.cancel

/-- A turn takes the next notice or none, and keeps the task. -/
theorem Timed.turn (timed : Timed past l) (moved : l.turn = some m) :
    SameTask l m ∧ ∃ taken, l.arrivals = taken ++ m.arrivals ∧ Timed (past ++ taken) m := by
  cases takes_turn moved with
  | @wakes deadline next first on =>
      have still := timed.wake next first on
      refine ⟨⟨?_, ?_, ?_, rfl⟩, [], rfl, by simpa using still⟩
      all_goals simp [EventLoop.wake, timed.take_eq]
  | @handles time n rest arrives first on =>
      refine ⟨⟨rfl, rfl, Watcher.window_handle _ _ _, rfl⟩, [(time, n)], arrives, ?_⟩
      exact timed.handle arrives first

theorem Timed.turns (timed : Timed past l) (turns : Turns l r) :
    SameTask l r ∧ ∃ taken, l.arrivals = taken ++ r.arrivals ∧ Timed (past ++ taken) r := by
  induction turns generalizing past with
  | done l => exact ⟨⟨rfl, rfl, rfl, rfl⟩, [], rfl, by simpa using timed⟩
  | turn moved _ ih =>
      obtain ⟨task, first, split, timed'⟩ := timed.turn moved
      obtain ⟨task', others, split', timed''⟩ := ih timed'
      refine ⟨⟨task'.paths.trans task.paths, task'.includeRename.trans task.includeRename,
        task'.window.trans task.window, task'.cancel.trans task.cancel⟩, first ++ others, ?_, ?_⟩
      · rw [split, split', List.append_assoc]
      · rwa [← List.append_assoc]

/-- Every turn takes a notice, or gives up a path that was waited for. -/
theorem Timed.turn_lt (timed : Timed past l) (moved : l.turn = some m) :
    m.arrivals.length < l.arrivals.length ∨ m.arrivals.length = l.arrivals.length ∧
      m.watcher.debouncer.pending.length < l.watcher.debouncer.pending.length := by
  cases takes_turn moved with
  | @wakes deadline next first on =>
      right
      refine ⟨rfl, ?_⟩
      rw [timed.deadline?_eq] at next
      obtain ⟨⟨p, pending, due⟩, -⟩ := Debouncer.deadline?_eq_some next
      have settled : ¬ (!l.watcher.debouncer.settled deadline p.2) = true := by
        simp [Debouncer.settled, due]
      simp only [EventLoop.wake, timed.take_eq, Debouncer.pending_take]
      exact List.length_filter_lt_length_iff_exists.mpr ⟨p, pending, settled⟩
  | @handles time n rest arrives first on =>
      left
      rw [arrives]
      exact Nat.lt_succ_self _

theorem Timed.ends {l : EventLoop} {past : List (Nat × Notice)} (timed : Timed past l) :
    ∃ r, Turns l r ∧ r.turn = none := by
  cases moved : l.turn with
  | none => exact ⟨l, .done l, moved⟩
  | some m =>
      obtain ⟨-, taken, -, timed'⟩ := timed.turn moved
      have less := timed.turn_lt moved
      obtain ⟨r, turns, stops⟩ := timed'.ends
      exact ⟨r, .turn moved turns, stops⟩
  termination_by (l.arrivals.length, l.watcher.debouncer.pending.length)
  decreasing_by
    rcases less with fewer | ⟨same, fewer⟩
    · exact Prod.Lex.left _ _ fewer
    · rw [same]
      exact Prod.Lex.right _ fewer

/-- Each wake-up was worth it. -/
theorem wakes_ne_nil {past : List (Nat × Notice)} (timed : Timed past l) (turns : Turns l r)
    (worth : ∀ w ∈ l.wakes, w.2 ≠ []) : ∀ w ∈ r.wakes, w.2 ≠ [] := by
  induction turns generalizing past with
  | done l => exact worth
  | @turn l m r moved _ ih =>
      obtain ⟨-, taken, -, timed'⟩ := timed.turn moved
      refine ih timed' ?_
      cases takes_turn moved with
      | @wakes deadline next first on =>
          rw [timed.deadline?_eq] at next
          have some := Debouncer.take_ne_nil next
          intro w listed
          rcases List.mem_append.mp listed with old | new
          · exact worth w old
          · obtain rfl := List.mem_singleton.mp new
            rw [timed.take_eq]
            exact some
      | handles => exact worth

theorem count_le_one (timed : Timed past l) (path : String) (time : Nat) :
    l.count path time ≤ 1 := by
  have single := timed.single
  unfold count
  generalize l.starts = starts at single
  induction starts with
  | nil => exact Nat.zero_le 1
  | cons s rest ih =>
      obtain ⟨first, others⟩ := List.pairwise_cons.mp single
      have less := ih others
      rw [List.countP_cons]
      split
      · rename_i here
        simp only [Bool.and_eq_true, Debouncer.samePath_iff, beq_iff_eq] at here
        have none : rest.countP (fun s => samePath s.1 path && s.2 == time) = 0 := by
          refine List.countP_eq_zero.mpr fun other listed there => ?_
          simp only [Bool.and_eq_true, Debouncer.samePath_iff, beq_iff_eq] at there
          exact first other listed ⟨here.1.trans there.1.symm, here.2.trans there.2.symm⟩
        omega
      · omega

theorem count_eq_one (timed : Timed past l) {path : String} {time : Nat} :
    l.count path time = 1 ↔
      ∃ s ∈ l.starts, components s.1 = components path ∧ s.2 = time := by
  have less := count_le_one timed path time
  have more : 0 < l.count path time ↔
      ∃ s ∈ l.starts, components s.1 = components path ∧ s.2 = time := by
    simp [count, List.countP_pos_iff, Debouncer.samePath_iff]
  rw [← more]
  omega

theorem cancelledBy_mono {t t' : Nat} (le : t ≤ t') (before : l.cancelledBy t = true) :
    l.cancelledBy t' = true := by
  obtain ⟨c, cancel, here⟩ := (Option.any_eq_true _ _).mp before
  have here : c ≤ t := by simpa using here
  refine (Option.any_eq_true _ _).mpr ⟨c, cancel, ?_⟩
  simpa using Nat.le_trans here le

/-- At the end, what still arrives or is waited for comes too late. -/
theorem Timed.too_late (timed : Timed past l) (stops : l.turn = none) :
    (∀ a ∈ l.arrivals, l.cancelledBy a.1 = true) ∧
    ∀ p ∈ l.watcher.debouncer.pending,
      l.cancelledBy (p.2 + l.watcher.debouncer.window) = true := by
  obtain ⟨arriving, waiting⟩ := ended stops
  constructor
  · have ordered := timed.ordered
    rw [List.map_append, List.pairwise_append] at ordered
    cases arrivals : l.arrivals with
    | nil => exact fun a none => nomatch none
    | cons first rest =>
        rw [arrivals] at arriving ordered
        have head : l.cancelledBy first.1 = true := by
          rcases arriving first rfl with now | ⟨deadline, -, before, lt⟩
          · exact now
          · exact cancelledBy_mono (Nat.le_of_lt lt) before
        have after := (List.pairwise_cons.mp ordered.2.1).1
        intro a listed
        rcases List.mem_cons.mp listed with rfl | listed
        · exact head
        · exact cancelledBy_mono (after a.1 (List.mem_map_of_mem listed)) head
  · intro p pending
    rw [timed.deadline?_eq] at waiting
    cases next : l.watcher.debouncer.deadline? with
    | none =>
        rw [Debouncer.deadline?_eq_none.mp next] at pending
        cases pending
    | some deadline =>
        have le := (Debouncer.deadline?_eq_some next).2 p pending
        rcases waiting deadline next with now | ⟨a, -, before, early⟩
        · exact cancelledBy_mono le now
        · exact cancelledBy_mono (Nat.le_trans early le) before

/-- At the end, the reloads are those of the timers that have not been cancelled. -/
theorem Timed.count_iff (timed : Timed past l) (stops : l.turn = none) {path : String}
    (watched : l.watcher.paths.contains path = true) {time : Nat} :
    l.count path time = 1 ↔
      Fires l.watcher.includeRename l.watcher.debouncer.window (past ++ l.arrivals) path time ∧
        l.cancelledBy time = false := by
  obtain ⟨arriving, waiting⟩ := timed.too_late stops
  rw [count_eq_one timed]
  constructor
  · rintro ⟨s, started, same, rfl⟩
    obtain ⟨-, on, t, due, changed, last⟩ := timed.fired s started
    have changed := (changesAt_congr same).mp changed
    refine ⟨⟨t, due, changesAt_append.mpr (.inl changed), fun t' changed' lt => ?_⟩, on⟩
    rcases changesAt_append.mp changed' with before | ⟨n, listed, -⟩
    · exact last t' ((changesAt_congr same).mpr before) lt
    · exact timed.early s started _ listed
  · rintro ⟨⟨t, rfl, changed, last⟩, on⟩
    have clash {t' : Nat} (le : t' ≤ t + l.watcher.debouncer.window)
        (late : l.cancelledBy t' = true) : False := by
      rw [cancelledBy_mono le late] at on
      cases on
    rcases changesAt_append.mp changed with before | ⟨n, listed, -⟩
    · rcases timed.accounted path watched t before with ⟨t', later, lt, within⟩ | pending | done
      · have after := last t' (changesAt_append.mpr (.inl later)) lt
        omega
      · obtain ⟨q, listed, -⟩ := Debouncer.mem_of_changed? pending
        exact (clash (Nat.le_refl _) (waiting _ listed)).elim
      · exact done
    · exact (clash (Nat.le_add_right _ _) (arriving _ listed)).elim

end EventLoop

/-- The notice is of no change of a watched path. -/
def Notice.Idle (paths : PathSet) (includeRename : Bool) : Notice → Prop
  | .failure => True
  | .event e => e.kind = .modify .attributes ∨ e.kind = .remove ∨ e.kind = .any ∨
      e.kind = .access ∨ e.kind = .other ∨ e.kind = .modify .name ∧ includeRename = false ∨
      ∀ q ∈ e.paths, paths.contains q = false

theorem Notice.Idle.not_qualifies {paths : PathSet} {includeRename : Bool} {n : Notice}
    (idle : n.Idle paths includeRename) {path : String} (watched : paths.contains path = true) :
    ¬ n.Qualifies includeRename path := by
  cases n with
  | failure => exact id
  | event e =>
      rintro ⟨counts, q, listed, same⟩
      have same := Debouncer.samePath_iff.mp same
      have known := (PathSet.contains_congr same).trans watched
      rcases idle with kind | kind | kind | kind | kind | ⟨kind, unasked⟩ | others
      · simp [kind, EventKind.counts] at counts
      · simp [kind, EventKind.counts] at counts
      · simp [kind, EventKind.counts] at counts
      · simp [kind, EventKind.counts] at counts
      · simp [kind, EventKind.counts] at counts
      · simp [kind, unasked, EventKind.counts] at counts
      · rw [others q listed] at known
        cases known

open EventLoop in
/-- The loop has come to its end with the reloads of one timer for each path. -/
structure Independent (name : String) (paths : PathSet) (includeRename : Bool) (window : Nat)
    (arrivals : List (Nat × Notice)) (cancel : Option Nat) (l : EventLoop) : Prop where
  reached : Turns (start name paths includeRename window arrivals cancel) l
  stops : l.turn = none
  /-- Reloads are started for watched paths only, and never two of one path at once. -/
  watched : ∀ s ∈ l.starts, paths.contains s.1 = true
  once : ∀ path time, l.count path time ≤ 1
  /-- A reload is started exactly if the timer of the path goes off before the loop is
  cancelled. -/
  timers : ∀ path, paths.contains path = true → ∀ time, l.count path time = 1 ↔
    Fires includeRename window arrivals path time ∧ ∀ c, cancel = some c → time < c
  /-- No wake-up is in vain. -/
  worth : ∀ w ∈ l.wakes, w.2 ≠ []
  /-- Without a notice of no change the same reloads are started at the same times. -/
  idle : ∀ before t n after, arrivals = before ++ (t, n) :: after → n.Idle paths includeRename →
    ∀ l', Turns (start name paths includeRename window (before ++ after) cancel) l' →
      l'.turn = none → ∀ path, paths.contains path = true → ∀ time,
        l'.count path time = l.count path time

open EventLoop in
theorem timed_of_turns {name : String} {paths : PathSet} {includeRename : Bool} {window : Nat}
    {arrivals : List (Nat × Notice)} (ordered : (arrivals.map (·.1)).Pairwise (· ≤ ·))
    {cancel : Option Nat} {l : EventLoop}
    (turns : Turns (start name paths includeRename window arrivals cancel) l)
    (stops : l.turn = none) :
    (∀ s ∈ l.starts, paths.contains s.1 = true) ∧ (∀ path time, l.count path time ≤ 1) ∧
    ∀ path, paths.contains path = true → ∀ time, l.count path time = 1 ↔
      Fires includeRename window arrivals path time ∧ ∀ c, cancel = some c → time < c := by
  have started := Timed.start name paths includeRename window ordered cancel
  obtain ⟨task, taken, split, timed⟩ := started.turns turns
  have paths' : l.watcher.paths = paths := task.paths
  have includeRename' : l.watcher.includeRename = includeRename := task.includeRename
  have window' : l.watcher.debouncer.window = window := task.window
  have cancel' : l.cancel = cancel := task.cancel
  have split : arrivals = taken ++ l.arrivals := split
  refine ⟨fun s member => ?_, count_le_one timed, fun path watched time => ?_⟩
  · rw [← paths']
    exact (timed.fired s member).1
  · rw [timed.count_iff stops (paths' ▸ watched), includeRename', window', List.nil_append, ← split]
    refine and_congr_right fun _ => ?_
    simp only [cancelledBy, cancel', Option.any_eq_false, decide_eq_false_iff_not, Nat.not_le]

open EventLoop in
/-- One loop for all paths is as good as a timer for each of them. -/
theorem loop_of_timers (name : String) (paths : PathSet) (includeRename : Bool) (window : Nat)
    {arrivals : List (Nat × Notice)} (ordered : (arrivals.map (·.1)).Pairwise (· ≤ ·))
    (cancel : Option Nat) :
    ∃ l, Independent name paths includeRename window arrivals cancel l := by
  have started := Timed.start name paths includeRename window ordered cancel
  obtain ⟨l, turns, stops⟩ := started.ends
  obtain ⟨watched, once, timers⟩ := timed_of_turns ordered turns stops
  refine ⟨l, turns, stops, watched, once, timers, wakes_ne_nil started turns nofun, ?_⟩
  intro before t n after split idle l' turns' stops' path known time
  have fewer : ((before ++ after).map (·.1)).Pairwise (· ≤ ·) := by
    have kept : (before ++ after).Sublist arrivals :=
      split ▸ List.Sublist.append_left (List.sublist_cons_self _ _) before
    exact ordered.sublist (kept.map _)
  obtain ⟨-, once', timers'⟩ := timed_of_turns fewer turns' stops'
  have same (t' : Nat) : ChangesAt includeRename (before ++ after) path t' ↔
      ChangesAt includeRename arrivals path t' := by
    have quiet := idle.not_qualifies known
    rw [split, ← List.singleton_append]
    simp only [changesAt_append, changesAt_singleton, quiet, and_false, false_or]
  have fires : Fires includeRename window (before ++ after) path time ↔
      Fires includeRename window arrivals path time := by
    simp only [Fires, same]
  have agree : l'.count path time = 1 ↔ l.count path time = 1 := by
    rw [timers' path known, timers path known, fires]
  have le := once path time
  have le' := once' path time
  omega

/-- Two changes of one path in a window, a failure, a rename, a change of no watched path,
a deadline at which a notice arrives, and one after which the loop is cancelled. -/
def crowd : List (Nat × Notice) :=
  [(1, .event ⟨.create, ["/a"]⟩), (2, .event ⟨.modify .content, ["/b"]⟩), (2, .failure),
    (3, .event ⟨.modify .any, ["/a/", "/c"]⟩), (4, .event ⟨.modify .name, ["/b"]⟩),
    (6, .event ⟨.modify .content, ["/a"]⟩), (8, .event ⟨.create, ["/b"]⟩)]

theorem loop_of_timers_crowd : (crowd.map (·.1)).Pairwise (· ≤ ·) ∧
    ∃ l, Independent "rules" ⟨["/a", "/b"]⟩ false 3 crowd (some 10) l ∧
      l.count "/a" 6 = 0 ∧ l.count "/a" 9 = 1 ∧ l.count "/b" 5 = 1 ∧ l.count "/b" 11 = 0 := by
  have ordered : (crowd.map (·.1)).Pairwise (· ≤ ·) := by decide
  obtain ⟨l, independent⟩ := loop_of_timers "rules" ⟨["/a", "/b"]⟩ false 3 ordered (some 10)
  have none {path : String} {time : Nat} (few : l.count path time ≠ 1) : l.count path time = 0 := by
    have le := independent.once path time
    omega
  have later {time : Nat} (lt : time < 10) : ∀ c, some 10 = some c → time < c := by
    rintro c ⟨⟩
    exact lt
  refine ⟨ordered, l, independent, none fun one => ?_, ?_, ?_, none fun one => ?_⟩
  · have fires := ((independent.timers "/a" (by decide) 6).mp one).1
    exact absurd fires (by decide)
  · exact (independent.timers "/a" (by decide) 9).mpr ⟨by decide, later (by decide)⟩
  · exact (independent.timers "/b" (by decide) 5).mpr ⟨by decide, later (by decide)⟩
  · have early := ((independent.timers "/b" (by decide) 11).mp one).2 10 rfl
    exact absurd early (by decide)

end LiveRules.Watch
