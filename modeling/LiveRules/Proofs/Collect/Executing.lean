import LiveRules.Proofs.Collect.Aftermath

/-!
# Actions that are executed

Actions are executed on one store, and before and after each the store makes moves of its
own. When it has been shut down, what it has done is a run of moves that makes the calls of
the actions in their order. If no dropped write has been told of, then every write was
carried out.
-/
namespace LiveRules.Collect

theorem follow_append {r r' r'' : Running} {h h' h'' : History} {ms ms' : List Move}
    (first : follow r h ms = some (r', h')) (second : follow r' h' ms' = some (r'', h'')) :
    follow r h (ms ++ ms') = some (r'', h'') := by
  induction ms generalizing r h with
  | nil =>
      cases first
      exact second
  | cons m ms ih =>
      obtain ⟨after, moved, rest⟩ := Option.bind_eq_some_iff.mp first
      rw [List.cons_append, follow, moved, Option.bind_some]
      exact ih rest

theorem closed_follow {r r' : Running} {h h' : History} {ms : List Move}
    (followed : follow r h ms = some (r', h')) (others : ∀ m ∈ ms, m ≠ .close) :
    r'.store.closed = r.store.closed := by
  induction ms generalizing r h with
  | nil => cases followed; rfl
  | cons m ms ih =>
      obtain ⟨after, moved, rest⟩ := Option.bind_eq_some_iff.mp followed
      have kept := Running.closed_move (others m (by simp)) moved
      rw [← kept]
      exact ih rest fun m hm => others m (by simp [hm])

theorem filter_isCall_background {ms : List Move} (background : ∀ m ∈ ms, m.isCall = false) :
    ms.filter Move.isCall = [] :=
  List.filter_eq_nil_iff.mpr fun m hm => by simp [background m hm]

/-! ## Writes that are refused -/

/-- A store refuses nothing by itself. -/
theorem refused_note {r r' : Running} {h : History} {m : Move} (background : m.isCall = false)
    {x : Submission} (listed : x ∈ (h.note r m r').submissions) (refused : x.fate = .refused) :
    x ∈ h.submissions := by
  have advanced {fate : Fate} {f : Submission → Submission}
      (listed : x ∈ (h.advance fate f).submissions) (other : ∀ y, (f y).fate ≠ .refused) :
      x ∈ h.submissions := by
    rcases mem_advanceFirst listed with old | ⟨y, -, -, rfl⟩
    · exact old
    · exact absurd refused (other y)
  cases m with
  | add | delete => cases background
  | close | clear | snapshot => exact listed
  | pop | send => exact advanced listed fun y => by simp [Submission.become]
  | expire =>
      refine advanced listed fun y => ?_
      dsimp only
      split <;> simp
  | take =>
      simp only [History.note] at listed
      split at listed
      · exact advanced listed fun y => by simp [Submission.become]
      · exact listed
  | apply =>
      refine advanced listed fun y => ?_
      simp only [Submission.become]
      split <;> simp

theorem unrefused_follow {r r' : Running} {h h' : History} {ms : List Move}
    (followed : follow r h ms = some (r', h')) (background : ∀ m ∈ ms, m.isCall = false)
    (none : ∀ x ∈ h.submissions, x.fate ≠ .refused) :
    ∀ x ∈ h'.submissions, x.fate ≠ .refused := by
  induction ms generalizing r h with
  | nil =>
      cases followed
      exact none
  | cons m ms ih =>
      obtain ⟨after, moved, rest⟩ := Option.bind_eq_some_iff.mp followed
      have ⟨first, others⟩ := List.forall_mem_cons.mp background
      exact ih rest others fun x listed refused =>
        none x (refused_note first listed refused) refused

/-- Nothing is refused as long as the store is open. -/
theorem Run.unrefused {r₀ r : Running} {h : History} (run : Run r₀ r h)
    (accepted : r.store.closed = false) : ∀ x ∈ h.submissions, x.fate ≠ .refused := by
  obtain ⟨taken, refused, none, fates⟩ := run.refusedLast
  rw [none accepted, List.replicate_zero, List.append_nil] at fates
  intro x listed same
  have member := List.mem_map_of_mem (f := fun x => decide (x.fate = .refused)) listed
  rw [fates, same] at member
  exact absurd (List.eq_of_mem_replicate member) (by decide)

/-! ## Stores on their desk -/

namespace Desk
variable {d between d' : Desk} {id : Nat} {s : Store} {names : List (Action × String)}

theorem call_eq (there : d.registry.stores[id]? = some s)
    (act : Store → Bool × Store × List LogEvent) :
    d.call id act = ((act s).1, d.put id ((d.running s).withStore (act s).2)) := by
  rw [call, onStore_eq there]
  rfl

theorem call_none (missing : d.registry.stores[id]? = none)
    (act : Store → Bool × Store × List LogEvent) : d.call id act = (false, d) := by
  rw [call, onStore_none missing]
  rfl

theorem rest_eq (there : d.registry.stores[id]? = some s) :
    d.rest id = d.put id (d.running s).settle := by
  rw [rest, onStore_eq there]

theorem rest_none (missing : d.registry.stores[id]? = none) : d.rest id = d := by
  rw [rest, onStore_none missing]

/-- Names are collected in turn by actions that are executed on one store. -/
inductive Executes (id : Nat) : Desk → List (Action × String) → Desk → Prop
  | done (d : Desk) : Executes id d [] d
  | exec {d d' : Desk} {a : Action} {given : Handle} {names : List (Action × String)}
      (name : String) : d.registry.handles[a.handle]? = some given → given.store = id →
      Executes id (a.exec d name).2 names d' → Executes id d ((a, name) :: names) d'
  /-- The store makes a move of its own. -/
  | move {d d' : Desk} {s : Store} {m : Move} {r : Running} {names : List (Action × String)} :
      d.registry.stores[id]? = some s → m.isCall = false → m ≠ .close →
      (d.running s).move m = some r → Executes id (d.put id r) names d' → Executes id d names d'

/-- A store is shut down: its writer has ended, or waits for ever. -/
inductive Shuts (id : Nat) (d : Desk) : Desk → Prop
  | atOnce : Shuts id d (d.shutdown id)
  /-- Once it is closed, the store makes its moves in any order. -/
  | slowly {s : Store} {r : Running} {ms : List Move} :
      d.registry.stores[id]? = some s → (∀ m ∈ ms, m.isCall = false) →
      (d.running s).moves (.close :: ms) = some r → r.store.writerEnded = true →
      Shuts id d (d.put id (r.tell [Store.tell .info ("closed: " ++ s.path)]))

end Desk

namespace Action
variable {d : Desk} {s : Store} {a : Action} {given : Handle}

/-- An action that is executed makes its call. -/
theorem exec_follow (lent : d.registry.handles[a.handle]? = some given)
    (there : d.registry.stores[given.store]? = some s) (name : String) (h : History) :
    ∃ r h', follow (d.running s) h (callsOf [(a, name)]) = some (r, h') ∧
      (a.exec d name).2 = d.put given.store r := by
  unfold exec callsOf
  rw [lent, List.filterMap_cons, List.filterMap_nil, call?]
  cases a.entryFor name with
  | none => exact ⟨d.running s, h, rfl, (Desk.put_running there).symm⟩
  | some entry =>
      cases a.operation with
      | add => exact ⟨_, _, rfl, congrArg Prod.snd (Desk.call_eq there _)⟩
      | delete => exact ⟨_, _, rfl, congrArg Prod.snd (Desk.call_eq there _)⟩

theorem isCall_of_mem_callsOf {names : List (Action × String)} {m : Move}
    (listed : m ∈ callsOf names) : m.isCall = true := by
  obtain ⟨c, -, calls⟩ := List.mem_filterMap.mp listed
  obtain ⟨entry, -, rfl⟩ := Option.map_eq_some_iff.mp calls
  split <;> rfl

theorem ne_close_of_mem_callsOf {names : List (Action × String)} {m : Move}
    (listed : m ∈ callsOf names) : m ≠ .close := by
  rintro rfl
  cases isCall_of_mem_callsOf listed

/-- Without a handle nothing happens. -/
theorem run_unlent (unlent : d.registry.handles[a.handle]? = none) (name : String) :
    (a.run d name).2 = d := by
  unfold run exec
  rw [unlent]
  cases a.entryFor name <;> simp only [rest, unlent]

theorem run_missing (lent : d.registry.handles[a.handle]? = some given)
    (missing : d.registry.stores[given.store]? = none) (name : String) : (a.run d name).2 = d := by
  have executed : (a.exec d name).2 = d := by
    unfold exec
    rw [lent]
    cases a.entryFor name with
    | none => rfl
    | some entry => cases a.operation <;> simp only [Desk.call_none missing]
  simp only [run, executed, rest, lent, Desk.rest_none missing]

/-- The call of an action, and then moves in the background. -/
theorem run_follow (lent : d.registry.handles[a.handle]? = some given)
    (there : d.registry.stores[given.store]? = some s) (name : String) (h : History) :
    ∃ ms r h', follow (d.running s) h ms = some (r, h') ∧ (∀ m ∈ ms, m ≠ .close) ∧
      (a.run d name).2 = d.put given.store r := by
  obtain ⟨r, h', called, executed⟩ := exec_follow lent there name h
  obtain ⟨ms, h'', settled, background⟩ := r.settleWithin_follow h' (Running.workload r.store)
  refine ⟨callsOf [(a, name)] ++ ms, r.settle, h'', follow_append called settled, ?_, ?_⟩
  · refine List.forall_mem_append.mpr ⟨fun m => ne_close_of_mem_callsOf, fun m hm close => ?_⟩
    have eager := background m hm
    rw [close] at eager
    exact absurd eager (by decide)
  · have handles : (d.put given.store r).registry.handles[a.handle]? = some given := lent
    simp only [run, executed, rest, handles]
    rw [Desk.rest_eq (Desk.stores_put there r), Desk.put_put]
    rfl

end Action

namespace Desk
variable {d between d' : Desk} {id : Nat} {s : Store} {names : List (Action × String)}

/-- Actions that are executed in turn make their calls in turn. -/
theorem Executes.follow (executes : Executes id d names d')
    (there : d.registry.stores[id]? = some s) (h : History) :
    ∃ ms r h', Collect.follow (d.running s) h ms = some (r, h') ∧ (∀ m ∈ ms, m ≠ .close) ∧
      ms.filter Move.isCall = callsOf names ∧ d' = d.put id r := by
  induction executes generalizing s h with
  | done d => exact ⟨[], d.running s, h, rfl, by simp, rfl, (put_running there).symm⟩
  | @exec d d' a given names name lent shared _ ih =>
      subst shared
      obtain ⟨r, h', called, executed⟩ := Action.exec_follow lent there name h
      rw [executed] at ih
      obtain ⟨ms, r', h'', followed, others, calls, rfl⟩ := ih (stores_put there r) h'
      refine ⟨callsOf [(a, name)] ++ ms, r', h'', follow_append called followed, ?_, ?_,
        put_put ..⟩
      · exact List.forall_mem_append.mpr ⟨fun m => Action.ne_close_of_mem_callsOf, others⟩
      · rw [List.filter_append, calls,
          List.filter_eq_self.mpr fun m => Action.isCall_of_mem_callsOf, callsOf, callsOf,
          ← List.filterMap_append]
        rfl
  | @move d d' s' m r names here background other moved _ ih =>
      obtain rfl := Option.some.inj (there.symm.trans here)
      obtain ⟨ms, r', h', followed, others, calls, rfl⟩ :=
        ih (stores_put there r) (h.note (d.running s) m r)
      refine ⟨m :: ms, r', h', ?_, List.forall_mem_cons.mpr ⟨other, others⟩, ?_, put_put ..⟩
      · rw [Collect.follow, moved, Option.bind_some]
        exact followed
      · rw [List.filter_cons_of_neg (by simp [background]), calls]

/-- A store that is shut down is closed and goes on with moves of its own. -/
theorem Shuts.follow (shuts : Shuts id d d') (there : d.registry.stores[id]? = some s)
    (accepted : s.closed = false) (h : History) :
    ∃ ms r h', Collect.follow (d.running s) h (.close :: ms) = some (r, h') ∧
      (∀ m ∈ ms, m.isCall = false) ∧ (r.store.writerEnded = true ∨ r.Waits) ∧
      d' = d.put id (r.tell [Store.tell .info ("closed: " ++ s.path)]) := by
  cases shuts with
  | atOnce =>
      obtain ⟨ms, r, h', closing, background, shut, ended⟩ :=
        shutdown_eager (r := d.running s) h accepted
      refine ⟨ms, r, h', closing, fun m hm => Move.background_of_eager (background m hm), ended, ?_⟩
      rw [shutdown_eq there, shut]
      rfl
  | @slowly s' r ms here background moved ended =>
      obtain rfl := Option.some.inj (there.symm.trans here)
      rw [← follow_moves (d.running s) h] at moved
      obtain ⟨⟨r', h'⟩, closing, rfl⟩ := Option.map_eq_some_iff.mp moved
      exact ⟨ms, r', h', closing, background, .inl ended, rfl⟩

/-- Executing actions on a store that has just been opened and shutting it down collects
their names, unless a dropped write is told of. -/
theorem Executes.collected {content : String} (executes : Executes id d names between)
    (shuts : Shuts id between d') (there : d.registry.stores[id]? = some s)
    (opened : (d.running s).Opened) (reads : d.files.Reads s.path content)
    (undropped : dropReports d'.events = dropReports d.events) :
    ∃ r h, Collected (d.running s) names r h ∧ d'.files = r.files := by
  obtain ⟨ms, r, h, followed, others, calls, rfl⟩ := executes.follow there {}
  have accepted : r.store.closed = false := by
    rw [closed_follow followed others]
    obtain ⟨event, loaded⟩ := opened
    exact (load_ok loaded).2
  obtain ⟨ms', r', h', closing, background, ended, rfl⟩ :=
    shuts.follow (stores_put there r) accepted h
  have executed : Run (d.running s) r h := Run.start.follow followed
  have run : Run (d.running s) r' h' := executed.follow closing
  have ended : r'.store.writerEnded = true := by
    refine ended.resolve_right fun ⟨e, _, waits⟩ => ?_
    have still : d.files.Reads r'.store.path content := by rwa [run.place.1]
    obtain ⟨now, reads⟩ := (run.untouchedOrMade opened reads).reads still
    rw [reads.appendWaits] at waits
    cases waits
  have dropped : h'.dropped = [] := by
    have told : dropReports r'.events = dropReports d.events := by
      have last : dropReports [Store.tell .info ("closed: " ++ r.store.path)] = [] :=
        dropReports_quiet (by simp [reportsDrop_tell, List.isPrefixOf])
      rw [← undropped]
      change _ = dropReports (r'.events ++ _)
      rw [dropReports_append, last, List.append_nil]
    have reports := (run.dropsReported opened).reports.length_eq
    rw [told, List.length_append, List.length_map] at reports
    exact List.length_eq_zero_iff.mp (Nat.left_eq_add.mp reports)
  have unrefused : ∀ x ∈ h'.submissions, x.fate ≠ .refused :=
    unrefused_follow closing (List.forall_mem_cons.mpr ⟨rfl, background⟩)
      (executed.unrefused accepted)
  refine ⟨r', h', ⟨opened, ⟨ms ++ .close :: ms', follow_append followed closing, ?_⟩, ended,
    fun x listed => ⟨unrefused x listed, fun drop => ?_⟩⟩, rfl⟩
  · rw [List.filter_append, calls, List.filter_cons_of_neg (by decide),
      filter_isCall_background background, List.append_nil]
  · have listed : x ∈ h'.dropped := List.mem_filter.mpr ⟨listed, by simp [drop]⟩
    rw [dropped] at listed
    cases listed

end Desk
end LiveRules.Collect
