import LiveRules.Proofs.Intel.Eviction

/-!
# How long entries stay

Nothing but a question for it or a sweep takes an expired entry away, so an entry may be
stored long after it is answered for the last time. But a cache that is swept whenever that
is due holds nothing from before the last sweep that was due by then, and less than a
lifetime passes until the next one is due. So no entry is kept for two lifetimes.
-/
namespace LiveRules.Intel.VerdictCache
variable {c : VerdictCache} {earlier now start ttl : Nat} {call : Call}
  {calls : List (Nat × Call)} {e : String × CachedVerdict}

/-- A sweep is due. -/
def Due (c : VerdictCache) (now : Nat) : Prop := c.lastSweep + c.ttl ≤ now

instance (c : VerdictCache) (now : Nat) : Decidable (c.Due now) := Nat.decLe _ _

/-- The times of the sweeps that were run because they were due. -/
def sweeps (c : VerdictCache) : List (Nat × Call) → List Nat
  | [] => []
  | (now, call) :: calls =>
      if call = .purgeIfDue ∧ c.Due now then now :: (c.after now call).sweeps calls
      else (c.after now call).sweeps calls

/-- No entry had expired before the last sweep that was due. -/
structure Swept (c : VerdictCache) (now : Nat) : Prop where
  past : c.lastSweep ≤ now
  alive : ∀ e ∈ c.entries, c.lastSweep ≤ e.2.expires

theorem purgeIfDue_of_due (due : c.Due now) :
    c.purgeIfDue now = { c with lastSweep := now }.purge now := by
  unfold Due at due
  rw [purgeIfDue, if_neg (by omega)]

theorem purgeIfDue_of_not_due (early : ¬ c.Due now) : c.purgeIfDue now = c := by
  unfold Due at early
  rw [purgeIfDue, if_pos (by omega)]

theorem get_lastSweep (c : VerdictCache) (now : Nat) (key : String) :
    (c.get now key).2.lastSweep = c.lastSweep := by
  unfold get
  split
  · rfl
  · split <;> rfl

/-! ## What is stored -/

/-- An entry that is there after a call was left by the call, or it was there before and the
call is not about its key. -/
theorem mem_after (distinct : c.Distinct) (listed : e ∈ (c.after now call).entries) :
    (call.writes e.1 = true ∧ call.stored c.ttl now = some e.2) ∨
      (call.writes e.1 = false ∧ e ∈ c.entries) := by
  have kept {c' : VerdictCache} (pruned : Pruned now c c') (listed : e ∈ c'.entries) :
      e ∈ c.entries := pruned.fewer.subset listed
  cases call with
  | insert k malicious =>
      rcases List.mem_cons.mp listed with new | old
      · subst new
        exact .inl ⟨decide_eq_true rfl, rfl⟩
      · have ⟨there, other⟩ := List.mem_filter.mp old
        exact .inr ⟨decide_eq_false (Ne.symm (of_decide_eq_true other)), there⟩
  | remove k =>
      have ⟨there, other⟩ := List.mem_filter.mp listed
      exact .inr ⟨decide_eq_false (Ne.symm (of_decide_eq_true other)), there⟩
  | get k => exact .inr ⟨rfl, kept (get_pruned distinct now k) listed⟩
  | purge => exact .inr ⟨rfl, kept (purge_pruned c now) listed⟩
  | purgeIfDue => exact .inr ⟨rfl, kept (purgeIfDue_pruned c now) listed⟩

/-- Every entry is what the last call about its key left. -/
theorem stored_play (listed : e ∈ ((create ttl start).play calls).entries) :
    ∃ time malicious, lastWrite calls e.1 = some (time, .insert e.1 malicious) ∧
      e.2 = ⟨malicious, time + ttl⟩ := by
  induction calls using List.reverseRecOn with
  | nil => cases listed
  | append_singleton calls call ih =>
      obtain ⟨time, call⟩ := call
      have ⟨distinct, same⟩ := play_sound (distinct_create ttl start) calls
      rw [play_concat] at listed
      rw [lastWrite_concat]
      rcases mem_after distinct listed with ⟨writes, left⟩ | ⟨silent, there⟩
      · rw [if_pos writes]
        cases call with
        | insert k malicious =>
            obtain rfl : k = e.1 := of_decide_eq_true writes
            rw [same] at left
            exact ⟨time, malicious, rfl, (Option.some.inj left).symm⟩
        | remove k => cases left
        | get k | purge | purgeIfDue => cases writes
      · rw [if_neg (by simp [silent])]
        exact ih there

/-! ## Since the last sweep -/

theorem Swept.after (swept : c.Swept earlier) (distinct : c.Distinct) (le : earlier ≤ now)
    (call : Call) : (c.after now call).Swept now := by
  have past : c.lastSweep ≤ now := Nat.le_trans swept.past le
  cases call with
  | insert k malicious =>
      refine ⟨past, fun e listed => ?_⟩
      rcases List.mem_cons.mp listed with new | old
      · subst new
        exact Nat.le_trans past (Nat.le_add_right now c.ttl)
      · exact swept.alive e (List.mem_of_mem_filter old)
  | remove k => exact ⟨past, fun e listed => swept.alive e (List.mem_of_mem_filter listed)⟩
  | get k =>
      have same : (c.after now (.get k)).lastSweep = c.lastSweep := get_lastSweep c now k
      refine ⟨by rw [same]; exact past, fun e listed => ?_⟩
      rw [same]
      exact swept.alive e ((get_pruned distinct now k).fewer.subset listed)
  | purge => exact ⟨past, fun e listed => swept.alive e (List.mem_of_mem_filter listed)⟩
  | purgeIfDue =>
      by_cases due : c.Due now
      · rw [VerdictCache.after, purgeIfDue_of_due due]
        refine ⟨Nat.le_refl now, fun e listed => ?_⟩
        have fresh : now < e.2.expires := of_decide_eq_true (List.mem_filter.mp listed).2
        exact Nat.le_of_lt fresh
      · rw [VerdictCache.after, purgeIfDue_of_not_due due]
        exact ⟨past, swept.alive⟩

theorem swept_play (ordered : Ordered calls now) (made : start ≤ now)
    (since : ∀ call ∈ calls, start ≤ call.1) : ((create ttl start).play calls).Swept now := by
  induction calls using List.reverseRecOn generalizing now with
  | nil => exact ⟨made, nofun⟩
  | append_singleton calls call ih =>
      obtain ⟨time, call⟩ := call
      have ⟨earlier, le⟩ := ordered.init
      have before := ih earlier (since (time, call) (by simp)) fun call listed =>
        since call (List.mem_append_left _ listed)
      have distinct := (play_sound (distinct_create ttl start) calls).1
      have swept := before.after distinct (Nat.le_refl time) call
      rw [play_concat]
      exact ⟨Nat.le_trans swept.past le, swept.alive⟩

/-- Less than a lifetime passes before the next sweep is due. So what had not expired at the
last one can only have expired since then. -/
theorem Swept.stale_lt (swept : c.Swept now) (listed : e ∈ (c.purgeIfDue now).entries) :
    now < e.2.expires + c.ttl := by
  by_cases due : c.Due now
  · rw [purgeIfDue_of_due due] at listed
    have fresh : now < e.2.expires := of_decide_eq_true (List.mem_filter.mp listed).2
    omega
  · rw [purgeIfDue_of_not_due due] at listed
    have alive := swept.alive e listed
    unfold Due at due
    omega

/-! ## From one sweep to the next -/

theorem lastSweep_after (c : VerdictCache) (now : Nat) (call : Call) :
    (c.after now call).lastSweep =
      if call = .purgeIfDue ∧ c.Due now then now else c.lastSweep := by
  cases call with
  | insert k malicious | remove k | purge => simp [VerdictCache.after, insert, remove, purge]
  | get k => simp [VerdictCache.after, get_lastSweep]
  | purgeIfDue =>
      by_cases due : c.Due now
      · simp [VerdictCache.after, due, purgeIfDue_of_due due, purge]
      · simp [VerdictCache.after, due, purgeIfDue_of_not_due due]

/-- No sweep is run before it is due. -/
theorem due_le_of_mem_sweeps (distinct : c.Distinct) {time : Nat} (swept : time ∈ c.sweeps calls) :
    c.lastSweep + c.ttl ≤ time := by
  induction calls generalizing c with
  | nil => cases swept
  | cons call calls ih =>
      obtain ⟨now, call⟩ := call
      have ⟨distinct', same⟩ := after_sound distinct now call
      have last := lastSweep_after c now call
      rw [sweeps] at swept
      split at swept
      · rename_i run
        have due : c.lastSweep + c.ttl ≤ now := run.2
        rw [if_pos run] at last
        rcases List.mem_cons.mp swept with here | later
        · omega
        · have le := ih distinct' later
          omega
      · rename_i idle
        rw [if_neg idle] at last
        have le := ih distinct' swept
        omega

theorem sweeps_apart (distinct : c.Distinct) (calls : List (Nat × Call)) :
    (c.sweeps calls).Pairwise fun a b => a + c.ttl ≤ b := by
  induction calls generalizing c with
  | nil => exact .nil
  | cons call calls ih =>
      obtain ⟨now, call⟩ := call
      have ⟨distinct', same⟩ := after_sound distinct now call
      have last := lastSweep_after c now call
      have rest := ih distinct'
      rw [same] at rest
      rw [sweeps]
      split
      · rename_i run
        rw [if_pos run] at last
        refine List.pairwise_cons.mpr ⟨fun time later => ?_, rest⟩
        have le := due_le_of_mem_sweeps distinct' later
        omega
      · exact rest

/-- Right after a sweep that is run if it is due, every entry was cached less than two
lifetimes ago, by the last call about its key. The sweeps that are run are a lifetime or more
apart, and no call but such a sweep counts as one. -/
theorem staleness_bounded (ttl : Nat) (ordered : Ordered calls now) (made : start ≤ now)
    (since : ∀ call ∈ calls, start ≤ call.1) :
    (∀ e ∈ (((create ttl start).play calls).purgeIfDue now).entries,
      ∃ time malicious, lastWrite calls e.1 = some (time, .insert e.1 malicious) ∧
        e.2 = ⟨malicious, time + ttl⟩ ∧ now < time + 2 * ttl) ∧
    ((create ttl start).sweeps calls).Pairwise fun a b => a + ttl ≤ b := by
  have ⟨distinct, same⟩ := play_sound (distinct_create ttl start) calls
  have swept : ((create ttl start).play calls).Swept now := swept_play ordered made since
  constructor
  · intro e listed
    have there := (purgeIfDue_pruned _ now).fewer.subset listed
    obtain ⟨time, malicious, last, left⟩ := stored_play there
    have lt := swept.stale_lt listed
    rw [same, left] at lt
    have lt : now < time + ttl + ttl := lt
    exact ⟨time, malicious, last, left, by omega⟩
  · exact sweeps_apart (distinct_create ttl start) calls

/-- One verdict expires just when a sweep is due, the next one just after that. -/
def overstays : List (Nat × Call) :=
  [(0, .insert "a.test" true), (9, .purgeIfDue), (10, .purgeIfDue), (11, .insert "b.test" true),
    (15, .get "a.test"), (20, .purgeIfDue)]

/-- The second verdict expires at 21 and is there until the sweep that is due at 30. -/
theorem staleness_bounded_overstayed :
    Ordered overstays 29 ∧ 0 ≤ 29 ∧ (∀ call ∈ overstays, 0 ≤ call.1) ∧
      (∃ e ∈ (((create 10 0).play overstays).purgeIfDue 29).entries, ∃ time malicious,
        lastWrite overstays e.1 = some (time, .insert e.1 malicious) ∧
          e.2 = ⟨malicious, time + 10⟩ ∧ 29 < time + 2 * 10) ∧
      (create 10 0).sweeps overstays = [10, 20] ∧
      ((create 10 0).sweeps overstays).Pairwise fun a b => a + 10 ≤ b := by
  have ordered : Ordered overstays 29 := ⟨by decide, by decide⟩
  have since : ∀ call ∈ overstays, 0 ≤ call.1 := fun call _ => Nat.zero_le call.1
  have stored : ("b.test", ⟨true, 21⟩) ∈
      (((create 10 0).play overstays).purgeIfDue 29).entries := by decide
  have ⟨bounded, apart⟩ := staleness_bounded 10 ordered (Nat.zero_le 29) since
  exact ⟨ordered, Nat.zero_le 29, since, ⟨_, stored, bounded _ stored⟩, by decide, apart⟩

end LiveRules.Intel.VerdictCache
