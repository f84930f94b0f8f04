import LiveRules.Proofs.Rules.Freshness

/-!
# Attempts and lookups that get on

Whoever holds the lock is at work, and lets go of it if it gets on. A lookup goes through
the members that it has loaded, at least one at each of its steps. If they refer to no other
group it comes to the answer of a group that has just these members, after as many steps as
there are members and one more, whatever others do in between.
-/
namespace LiveRules
variable {D : Dialect}

/-- The members refer to no other group. -/
def TablesOnly (members : List (Member D.Table)) : Prop := ∀ id, .group id ∉ members

theorem TablesOnly.drop {members : List (Member D.Table)} (only : TablesOnly (D := D) members)
    (n : Nat) : TablesOnly (D := D) (members.drop n) :=
  fun id listed => only id (List.mem_of_mem_drop listed)

/-- A lookup of a key that has loaded some members goes by them: it is through with as many
as it has taken steps, and none of those knew the key, or it has the answer of a group with
just these members. -/
inductive Lookup.GoesBy (key : D.Key) (loaded : List (Member D.Table)) (steps : Nat) :
    Lookup D → Prop
  | probing : steps ≤ loaded.length →
      (∀ gs : Groups D.Table,
        gs.findIn (D.probe key) loaded = gs.findIn (D.probe key) (loaded.drop steps)) →
      GoesBy key loaded steps (.probing key loaded (loaded.drop steps))
  | answered (answer : Option D.Value) :
      (∀ gs : Groups D.Table, gs.findIn (D.probe key) loaded = answer) →
      GoesBy key loaded steps (.answered key loaded answer)

theorem Lookup.GoesBy.answers {key : D.Key} {loaded : List (Member D.Table)} {steps : Nat}
    {l : Lookup D} (goes : l.GoesBy key loaded steps) (enough : loaded.length < steps) :
    ∃ answer, l = .answered key loaded answer := by
  cases goes with
  | probing few => exact absurd few (by omega)
  | answered answer => exact ⟨answer, rfl⟩

namespace Site
variable {R : Recipe D} {c : Composite} {s s' : Site R} {i : Nat} {a : Attempt R}

/-! ## What a step of an attempt keeps -/

theorem Takes.lookups (takes : Takes c s i a s') : s'.lookups = s.lookups := by
  cases takes <;> rfl

theorem Takes.files (takes : Takes c s i a s') : s'.files = s.files := by
  cases takes <;> rfl

/-- No step makes an attempt forget when it was called for. -/
theorem Takes.called (takes : Takes c s i a s') (here : s.attempts[i]? = some a) {j : Nat}
    {b : Attempt R} (there : s.attempts[j]? = some b) :
    ∃ b', s'.attempts[j]? = some b' ∧ b'.called = b.called := by
  have set (phase : Phase R) :
      ∃ b', (s.become i a phase).attempts[j]? = some b' ∧ b'.called = b.called := by
    have bound := (List.getElem?_eq_some_iff.mp here).1
    by_cases same : j = i
    · subst same
      obtain rfl : a = b := Option.some.inj (here.symm.trans there)
      exact ⟨_, List.getElem?_set_self bound, rfl⟩
    · exact ⟨b, (List.getElem?_set_ne (Ne.symm same)).trans there, rfl⟩
  cases takes with
  | stays => exact ⟨b, there, rfl⟩
  | enters | reads | compiles | resolves | fails | publishes | leaves => exact set _

/-! ## The lock -/

/-- Whoever holds the lock is at work. -/
def Held (s : Site R) : Prop :=
  ∀ i, s.holder = some i → ∃ a, s.attempts[i]? = some a ∧ a.phase.inside = true

theorem inside_enter (R : Recipe D) (c : Composite) : (enter R c).inside = true := by
  unfold enter
  split <;> rfl

theorem Held.become (held : s.Held) (here : s.attempts[i]? = some a) (phase : Phase R)
    (inside : phase.inside = true) : (s.become i a phase).Held := by
  intro j holds
  obtain ⟨b, there, works⟩ := held j holds
  have bound := (List.getElem?_eq_some_iff.mp here).1
  by_cases same : j = i
  · subst same
    exact ⟨_, List.getElem?_set_self bound, inside⟩
  · exact ⟨b, (List.getElem?_set_ne (Ne.symm same)).trans there, works⟩

theorem Held.step (held : s.Held) (here : s.attempts[i]? = some a) (takes : Takes c s i a s') :
    s'.Held := by
  cases takes with
  | stays => exact held
  | enters waiting free =>
      have bound := (List.getElem?_eq_some_iff.mp here).1
      rintro j ⟨⟩
      exact ⟨_, List.getElem?_set_self bound, inside_enter R c⟩
  | reads phase taken => exact held.become here _ rfl
  | compiles phase => exact held.become here _ rfl
  | resolves phase found => exact held.become here _ rfl
  | fails inside => exact held.become here _ rfl
  | publishes phase => exact held.become here (.leaving (.ok _)) rfl
  | leaves phase => exact nofun

theorem Held.move (held : s.Held) (m : Move D) : (s.move c m).Held := by
  cases m with
  | advance i =>
      unfold Site.move
      dsimp only
      split
      · exact held.step ‹_› (takes_advance ..)
      · exact held
  | call reloading =>
      intro j holds
      obtain ⟨b, there, works⟩ := held j holds
      exact ⟨b, Lists.getElem?_append_of_some there, works⟩
  | edit | retag | look | probe => exact held

theorem Held.play (held : s.Held) (moves : List (Move D)) : (s.play c moves).Held := by
  induction moves generalizing s with
  | nil => exact held
  | cons m moves ih => exact ih (held.move m)

/-- An attempt at work gets to its end, or to its table and all references. -/
theorem gets_inside (bound : i < s.attempts.length) {phase : Phase R}
    (inside : phase.inside = true) :
    (∃ outcome, Gets c s i a phase (.leaving outcome)) ∨
      ∃ table references reads, Gets c s i a phase (.resolving table references [] reads) := by
  have resolving (table : D.Table) (references : List Nat) (rest : List String)
      (reads : List Nat) :
      (∃ outcome, Gets c s i a (.resolving table references rest reads) (.leaving outcome)) ∨
        ∃ more, Gets c s i a (.resolving table references rest reads)
          (.resolving table (references ++ more) [] reads) := by
    have resolved := gets_resolved (R := R) (c := c) (a := a) bound rest table references reads
    split at resolved
    · exact .inr ⟨_, resolved⟩
    · exact .inl ⟨_, resolved⟩
  cases phase with
  | waiting => cases inside
  | finished outcome => cases inside
  | leaving outcome => exact .inl ⟨outcome, .refl _⟩
  | resolving table references rest reads =>
      exact (resolving table references rest reads).imp_right fun ⟨more, gets⟩ => ⟨_, _, _, gets⟩
  | reading state index rest reads =>
      have read := gets_read (c := c) (a := a) bound rest state index reads
      split at read
      · rename_i state' _
        obtain ⟨index', reads', read⟩ := read
        have checked := gets_checked (c := c) (a := a) bound state' index' reads'
        split at checked
        · exact .inl ⟨_, read.trans checked⟩
        · have all := read.trans checked
          exact (resolving _ _ _ _).imp (fun ⟨outcome, gets⟩ => ⟨outcome, all.trans gets⟩)
            fun ⟨more, gets⟩ => ⟨_, _, _, all.trans gets⟩
      · exact .inl ⟨_, read⟩

/-- Whoever holds the lock lets go of it, if it gets on. -/
theorem Held.releases (held : s.Held) (holds : s.holder = some i) :
    ∃ n, (s.play c (List.replicate n (.advance i))).holder = none := by
  obtain ⟨a, here, inside⟩ := held i holds
  have bound := (List.getElem?_eq_some_iff.mp here).1
  have now : s.become i a a.phase = s := by
    obtain ⟨_, rfl⟩ := List.getElem?_eq_some_iff.mp here
    exact congrArg (fun attempts => { s with attempts }) (List.set_getElem_self bound)
  rw [← now]
  rcases gets_inside (c := c) (a := a) bound inside with
    ⟨outcome, gets⟩ | ⟨table, references, reads, gets⟩
  · obtain ⟨n, played⟩ := play_leaving bound gets
    exact ⟨n, by rw [played]⟩
  · obtain ⟨n, played⟩ := play_resolving bound gets
    exact ⟨n, by rw [played]⟩

/-! ## Lookups -/

/-- It is this lookup that the move lets get on. -/
def Move.asks (i : Nat) : Move D → Bool
  | .probe j _ => j = i
  | _ => false

/-- A move that is not for a lookup leaves it as it is. -/
theorem lookup_move {l : Lookup D} (here : s.lookups[i]? = some l) {m : Move D}
    (other : m.asks i = false) : (s.move c m).lookups[i]? = some l := by
  cases m with
  | advance j =>
      unfold move
      dsimp only
      split
      · rename_i b _
        exact ((takes_advance c s j b).lookups ▸ here)
      · exact here
  | look key => exact Lists.getElem?_append_of_some here
  | probe j deeper =>
      have apart : j ≠ i := of_decide_eq_false other
      exact (List.getElem?_modify_ne _ _ apart).trans here
  | call | edit | retag => exact here

theorem lookup_play {l : Lookup D} (here : s.lookups[i]? = some l) {moves : List (Move D)}
    (others : ∀ m ∈ moves, m.asks i = false) : (s.play c moves).lookups[i]? = some l := by
  induction moves generalizing s with
  | nil => exact here
  | cons m moves ih =>
      have ⟨other, others⟩ := List.forall_mem_cons.mp others
      exact ih (lookup_move here other) others

variable {key : D.Key} {loaded : List (Member D.Table)} {steps : Nat} {l : Lookup D}

theorem goesBy_probe (only : TablesOnly (D := D) loaded) (goes : l.GoesBy key loaded steps)
    (deeper : Option D.Value) : (s.probe deeper l).GoesBy key loaded (steps + 1) := by
  cases goes with
  | answered answer single => exact .answered answer single
  | probing few same =>
      have onlyRest := only.drop steps
      cases left : loaded.drop steps with
      | nil =>
          refine .answered none fun gs => ?_
          rw [same gs, left, Groups.findIn, Groups.findWithin]
      | cons m rest =>
          have next : loaded.drop (steps + 1) = rest := by
            rw [← List.drop_drop, left, List.drop_one, List.tail_cons]
          have more : steps + 1 ≤ loaded.length := by
            have := congrArg List.length left
            rw [List.length_drop, List.length_cons] at this
            omega
          rw [left] at onlyRest
          cases m with
          | group id => exact absurd List.mem_cons_self (onlyRest id)
          | table table =>
              have passes (gs : Groups D.Table) : gs.findIn (D.probe key) loaded =
                  (D.probe key table).or (gs.findIn (D.probe key) rest) := by
                rw [same gs, left, Groups.findIn, Groups.findWithin]
                cases D.probe key table <;> rfl
              unfold probe
              dsimp only
              cases hit : D.probe key table with
              | some v => exact .answered _ fun gs => by rw [passes gs, hit, Option.some_or]
              | none =>
                  have misses (gs : Groups D.Table) : gs.findIn (D.probe key) loaded =
                      gs.findIn (D.probe key) (loaded.drop (steps + 1)) := by
                    rw [passes gs, hit, Option.none_or, next]
                  rw [← next]
                  exact .probing more misses

/-- A lookup that has loaded its members goes by them, whatever is moved. -/
theorem goesBy_play (only : TablesOnly (D := D) loaded) (here : s.lookups[i]? = some l)
    (goes : l.GoesBy key loaded steps) (moves : List (Move D)) :
    ∃ l', (s.play c moves).lookups[i]? = some l' ∧
      l'.GoesBy key loaded (steps + moves.countP (·.asks i)) := by
  induction moves generalizing s l steps with
  | nil => exact ⟨l, here, goes⟩
  | cons m moves ih =>
      cases asks : m.asks i with
      | false =>
          rw [List.countP_cons_of_neg (by simp [asks])]
          exact ih (lookup_move here asks) goes
      | true =>
          rw [List.countP_cons_of_pos asks, Nat.add_comm _ 1, ← Nat.add_assoc]
          cases m with
          | probe j deeper =>
              obtain rfl : j = i := of_decide_eq_true asks
              have probed : (s.move c (.probe j deeper)).lookups[j]? =
                  some (s.probe deeper l) := by
                change (s.lookups.modify j (s.probe deeper))[j]? = _
                rw [List.getElem?_modify_eq, here]
                rfl
              exact ih probed (goesBy_probe only goes deeper)
          | _ => cases asks

end Site
end LiveRules
