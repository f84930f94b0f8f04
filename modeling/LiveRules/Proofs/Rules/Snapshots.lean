import LiveRules.Proofs.Rules.Progress

/-!
# What is published, and what lookups make of it

The published rules follow the files: no file goes back to an older version, and once
an attempt has succeeded that was called for after the last change, the rules are those
of the files as they are. Attempts end as a rebuild does, unless others keep them from
the lock. A lookup goes by what was published at its first step. If that refers to no
other group, the lookup comes to the answer of this one group, whatever is published in the
meantime.
-/
namespace LiveRules
variable {D : Dialect}

namespace Site
variable {R : Recipe D} {c : Composite} {s s' : Site R}

/-- What is written, oldest first. -/
def written (moves : List (Move D)) : List Files.Tree :=
  moves.filterMap fun m => match m with
    | .edit files => some files
    | _ => none

/-- No file of the composite has changed since. -/
def Unchanged (s : Site R) (c : Composite) (since : Nat) : Prop :=
  ∀ path ∈ c.source.files, ∀ m files, since ≤ m → s.files.at? m = some files →
    s.files.now.readText path = files.readText path

/-- What attempts to rebuild a composite come to, however many there are at once and
whatever happens between their steps. -/
structure Fresh (c : Composite) (s : Site R) : Prop where
  /-- The files are as they were last written, and known in all versions. -/
  files : ∀ moves, (s.play c moves).files = (written moves).foldl Files.History.change s.files
  /-- A publication knows one version of each file, and that version was there. -/
  versions : ∀ p ∈ s.published, c.source.files.length = p.reads.length ∧
    ∀ m ∈ p.reads, ∃ files, s.files.at? m = some files
  /-- The versions of the files in each publication are not older than in the ones
  before. -/
  forward : s.published.Pairwise fun newer older => List.Forall₂ (· ≤ ·) older.reads newer.reads
  /-- The table is compiled from the files in just these versions. -/
  compiled : ∀ p ∈ s.published, ∀ files,
    (∀ x ∈ c.source.files.zip p.reads, ∀ then_, s.files.at? x.2 = some then_ →
      files.readText x.1 = then_.readText x.1) →
    D.compile c.source files = .ok p.table
  /-- As soon as an attempt has succeeded that was called for after the last change, the
  rules are those of the files, whoever else is at work. -/
  current : ∀ reloading moves,
    let later := s.play c (.call reloading :: moves)
    later.Unchanged c s.files.version → (∃ a summary, later.attempts[s.attempts.length]? = some a ∧
      a.phase = .finished (.ok summary)) →
    ∃ table references, D.compile c.source later.files.now = .ok table ∧
      later.members = Family.members table references ∧
      ∀ own, .table own ∈ later.members ↔ own = table ∧ 0 < D.size table
  /-- Whoever holds the lock lets go of it, if it gets on. -/
  releases : ∀ i, s.holder = some i →
    ∃ n, (s.play c (List.replicate n (.advance i))).holder = none
  /-- An attempt that finds the lock free and that nothing disturbs ends as a rebuild does,
  and publishes the same. -/
  alone : s.holder = none → ∀ (f : Family D) (id : Nat), f.composites[id]? = some c →
    ∀ reloading, ∃ n,
    let later := s.play c (.call reloading :: List.replicate n (.advance s.attempts.length))
    later.holder = none ∧
    match f.rebuild id s.files.now (fun _ => s.tags) reloading with
    | .error e => later.published = s.published ∧
        later.attempts = s.attempts ++ [⟨reloading, s.files.version, .finished (.error e)⟩]
    | .ok (summary, _, f') => f' = { f with groups := f.groups.publish id later.members } ∧
        later.attempts =
          s.attempts ++ [⟨reloading, s.files.version, .finished (.ok summary)⟩]
  /-- Without references a lookup goes by the members that were published when it took its
  first step, one at each further step, and answers as a group of just these, whatever
  happens before, between and after its steps. -/
  single : c.sets = [] → ∀ key before deeper after,
    (∀ m ∈ before, m.asks s.lookups.length = false) →
    let loading := s.play c (.look key :: before)
    let steps := after.countP (·.asks s.lookups.length)
    ∃ lookup,
      (loading.play c (.probe s.lookups.length deeper :: after)).lookups[s.lookups.length]? =
        some lookup ∧ lookup.GoesBy key loading.members steps ∧
      (loading.members.length < steps → ∃ answer, lookup = .answered key loading.members answer)

/-- Files change where they are written, and nowhere else. -/
theorem files_play (moves : List (Move D)) :
    (s.play c moves).files = (written moves).foldl Files.History.change s.files := by
  induction moves generalizing s with
  | nil => rfl
  | cons m moves ih =>
      refine (ih (s := s.move c m)).trans ?_
      cases m with
      | edit files => rfl
      | advance i =>
          refine congrArg ((written moves).foldl Files.History.change) ?_
          unfold move
          dsimp only
          split
          · exact (takes_advance ..).files
          · rfl
      | call | retag | look | probe => rfl

/-- An attempt knows the version that the files had when it was called for. -/
theorem called_play {i : Nat} {a : Attempt R} (here : s.attempts[i]? = some a)
    (moves : List (Move D)) :
    ∃ b, (s.play c moves).attempts[i]? = some b ∧ b.called = a.called := by
  induction moves generalizing s a with
  | nil => exact ⟨a, here, rfl⟩
  | cons m moves ih =>
      have moved : ∃ b, (s.move c m).attempts[i]? = some b ∧ b.called = a.called := by
        cases m with
        | call reloading => exact ⟨a, Lists.getElem?_append_of_some here, rfl⟩
        | advance j =>
            unfold move
            dsimp only
            split
            · rename_i b there
              exact (takes_advance c s j b).called there here
            · exact ⟨a, here, rfl⟩
        | edit | retag | look | probe => exact ⟨a, here, rfl⟩
      obtain ⟨b, there, same⟩ := moved
      obtain ⟨b', later, same'⟩ := ih there
      exact ⟨b', later, same'.trans same⟩

namespace Sound

theorem length_reads (sound : Sound c s) {p : Publication D} (member : p ∈ s.published) :
    c.source.files.length = p.reads.length := by
  obtain ⟨state, read, -⟩ := sound.compiled p member
  exact read.length

theorem compile (sound : Sound c s) {p : Publication D} (member : p ∈ s.published)
    {files : Files.Tree} (agree : ∀ x ∈ c.source.files.zip p.reads, ∀ then_,
      s.files.at? x.2 = some then_ → files.readText x.1 = then_.readText x.1) :
    D.compile c.source files = .ok p.table := by
  obtain ⟨state, read, finished⟩ := sound.compiled p member
  rw [finished]
  exact read.compile agree

theorem pointwise (sound : Sound c s) :
    s.published.Pairwise fun newer older => List.Forall₂ (· ≤ ·) older.reads newer.reads := by
  refine sound.forward.imp_of_mem fun {newer older} hn ho before => ?_
  have lengths : older.reads.length = newer.reads.length :=
    (sound.length_reads ho).symm.trans (sound.length_reads hn)
  refine List.forall₂_iff_zip.mpr ⟨lengths, fun {old m} both => ?_⟩
  exact before old (List.of_mem_zip both).1 m (List.of_mem_zip both).2

/-- What was published last is at least as new as what an attempt has published that
succeeded. -/
theorem recent_last (sound : Sound c s) {a : Attempt R} (member : a ∈ s.attempts)
    {summary : RebuildSummary} (succeeded : a.phase = .finished (.ok summary)) :
    ∃ p, s.published.head? = some p ∧ ∀ m ∈ p.reads, a.called ≤ m := by
  obtain ⟨i, here⟩ := List.mem_iff_getElem?.mp member
  have achieved := sound.progress here
  rw [Progress, succeeded] at achieved
  obtain ⟨own, published, after⟩ := achieved
  cases all : s.published with
  | nil =>
      rw [all] at published
      cases published
  | cons last others =>
      refine ⟨last, rfl, fun m read => ?_⟩
      have lengths := (sound.length_reads published).symm.trans
        (sound.length_reads (p := last) (by rw [all]; exact List.mem_cons_self))
      have forward := sound.forward
      rw [all] at published forward
      rcases List.mem_cons.mp published with rfl | earlier
      · exact after m read
      · obtain ⟨old, listed⟩ := List.exists_mem_of_length_pos
          (lengths ▸ List.length_pos_of_mem read)
        have newer := (List.pairwise_cons.mp forward).1 own earlier old listed m read
        exact (after old listed).trans newer

/-- Once an attempt has succeeded, and no file has changed since it was called for, the rules
are those of the files. -/
theorem current (sound : Sound c s) {a : Attempt R} (member : a ∈ s.attempts)
    {summary : RebuildSummary} (succeeded : a.phase = .finished (.ok summary))
    (unchanged : s.Unchanged c a.called) :
    ∃ table references, D.compile c.source s.files.now = .ok table ∧
      s.members = Family.members table references ∧
      ∀ own, .table own ∈ s.members ↔ own = table ∧ 0 < D.size table := by
  obtain ⟨last, head, after⟩ := sound.recent_last member succeeded
  have members : s.members = last.members := by
    rw [members, head]
    rfl
  refine ⟨last.table, last.references, ?_, members, fun own => ?_⟩
  · refine sound.compile (List.mem_of_mem_head? head) fun x listed then_ at_ => ?_
    obtain ⟨path, read⟩ := List.of_mem_zip listed
    exact unchanged x.1 path x.2 then_ (after x.2 read) at_
  · rw [members]
    exact Family.table_mem_members

/-- What a composite without sets publishes refers to no other group. -/
theorem tablesOnly (sound : Sound c s) (none : c.sets = []) :
    TablesOnly (D := D) s.members := by
  intro id listed
  unfold members at listed
  cases all : s.published with
  | nil =>
      rw [all] at listed
      cases listed
  | cons p published =>
      have references : p.references = [] := by
        rw [← List.length_eq_zero_iff,
          sound.references p (by rw [all]; exact List.mem_cons_self), none]
        rfl
      rw [all] at listed
      simp only [List.head?_cons, Option.map_some, Option.getD_some, Publication.members,
        Family.members, references, List.map_nil, List.append_nil] at listed
      split at listed <;> simp at listed

end Sound

end Site

open Site in
/-- Rebuilds never bring back what is out of date, they come to an end, and so do lookups,
which know one publication only. -/
theorem rebuilds_fresh (R : Recipe D) (c : Composite) (files : Files.Tree)
    (tags : String → Except ProviderError Nat) (moves : List (Move D)) :
    Fresh c ((initial R files tags).play c moves) := by
  have sound := (Sound.opened (R := R) c files tags).play moves
  have held := Held.play (c := c) (s := initial R files tags) nofun moves
  generalize (initial R files tags).play c moves = s at sound held
  constructor
  · exact fun moves => files_play moves
  · exact fun p member => ⟨sound.length_reads member, fun m read =>
      Files.History.exists_at? (sound.known p member m read)⟩
  · exact sound.pointwise
  · exact fun p member files agree => sound.compile member agree
  · intro reloading moves later unchanged ⟨a, summary, here, succeeded⟩
    have sound' := sound.play (.call reloading :: moves)
    obtain ⟨b, there, called⟩ :=
      called_play (c := c) (s := s.move c (.call reloading)) List.getElem?_concat_length moves
    obtain rfl : a = b := Option.some.inj (here.symm.trans there)
    exact sound'.current (List.mem_of_getElem? here) succeeded (called ▸ unchanged)
  · exact fun i holds => held.releases holds
  · exact fun free f id composite reloading => rebuild_eq_play composite free reloading
  · intro none key before deeper after others loading steps
    have looked : loading.lookups[s.lookups.length]? = some (.started key) :=
      lookup_play (s := s.move c (.look key)) List.getElem?_concat_length others
    have only : TablesOnly (D := D) loading.members :=
      (sound.play (.look key :: before)).tablesOnly none
    have loaded : (loading.move c (.probe s.lookups.length deeper)).lookups[s.lookups.length]? =
        some (.probing key loading.members loading.members) := by
      change (loading.lookups.modify _ (loading.probe deeper))[_]? = _
      rw [List.getElem?_modify_eq, looked]
      rfl
    have start : (Lookup.probing key loading.members loading.members).GoesBy key
        loading.members 0 := .probing (Nat.zero_le _) fun _ => rfl
    obtain ⟨lookup, found, goes⟩ := goesBy_play (c := c) only loaded start after
    rw [Nat.zero_add] at goes
    exact ⟨lookup, found, goes, goes.answers⟩

end LiveRules
