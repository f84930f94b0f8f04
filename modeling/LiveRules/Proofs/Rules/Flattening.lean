import LiveRules.Proofs.Rules.Lookups

/-!
# Groups laid out flat

Members stand for a flat list of tables: a reference for the tables of its group as it is
published now, everything in order. A lookup is the first hit in that list. A snapshot
keeps one list of members, so it goes on standing for those, but for the present tables of
the groups that they refer to. Publishing touches only what leads to the group.
-/
namespace LiveRules.Groups
variable {L V : Type} {gs : Groups L} {probe : L → Option V} {members : List (Member L)}
  {tables tables' : List L} {id : Nat}

/-- The members stand for these tables, depth first and from the left. -/
inductive Expands (gs : Groups L) : List (Member L) → List L → Prop
  | nil : Expands gs [] []
  | table {content : L} {rest : List (Member L)} {tables : List L} :
      Expands gs rest tables → Expands gs (.table content :: rest) (content :: tables)
  | group {id : Nat} {rest : List (Member L)} {inner tables : List L} :
      Expands gs (gs.snapshot id) inner → Expands gs rest tables →
      Expands gs (.group id :: rest) (inner ++ tables)

theorem Expands.unique (first : gs.Expands members tables) (second : gs.Expands members tables') :
    tables = tables' := by
  induction first generalizing tables' with
  | nil => cases second; rfl
  | table _ ih =>
      cases second with
      | table rest => rw [ih rest]
  | group _ _ ih ih' =>
      cases second with
      | group inner rest => rw [ih inner, ih' rest]

/-- An unbounded lookup ends with the first hit of the tables. -/
theorem Expands.answers (expands : gs.Expands members tables) (probe : L → Option V) :
    Answers gs probe members (tables.findSome? probe) := by
  induction expands with
  | nil => exact .nothing
  | @table content rest tables _ ih =>
      rw [List.findSome?_cons]
      cases found : probe content with
      | some v => exact .hit found
      | none => exact .miss found ih
  | @group id rest inner tables _ _ ih ih' =>
      rw [List.findSome?_append]
      cases found : inner.findSome? probe with
      | some v => exact .deeper (found ▸ ih)
      | none => exact .past (found ▸ ih) ih'

/-- Members stand for tables if all groups do that they refer to. -/
theorem exists_expands_members
    (deeper : ∀ ref, .group ref ∈ members → ∃ tables, gs.Expands (gs.snapshot ref) tables) :
    ∃ tables, gs.Expands members tables := by
  induction members with
  | nil => exact ⟨[], .nil⟩
  | cons m rest ih =>
      obtain ⟨tables, expands⟩ := ih fun ref listed => deeper ref (List.mem_cons_of_mem m listed)
      cases m with
      | table content => exact ⟨_, .table expands⟩
      | group ref =>
          obtain ⟨inner, expands'⟩ := deeper ref List.mem_cons_self
          exact ⟨_, .group expands' expands⟩

/-- Without a cycle references come to an end: a lookup that has no hit anywhere ends. -/
theorem Acyclic.acc (acyclic : gs.Acyclic) (id : Nat) : Acc (fun a b => gs.Refers b a) id := by
  have ends := acyclic.answers (fun _ => (none : Option Unit)) id
  have below := (ends.acc_refers (fun _ _ _ _ => rfl) List.suffix_rfl).2
  exact Acc.intro id fun ref refers => below ref refers

theorem Acyclic.expands (acyclic : gs.Acyclic) (members : List (Member L)) :
    ∃ tables, gs.Expands members tables := by
  have all (ref : Nat) : ∃ tables, gs.Expands (gs.snapshot ref) tables := by
    induction acyclic.acc ref with
    | intro ref _ ih => exact exists_expands_members ih
  exact exists_expands_members fun ref _ => all ref

/-- All groups that the members refer to have been created. -/
def Known (gs : Groups L) (members : List (Member L)) : Prop :=
  ∀ ref, .group ref ∈ members → ref < gs.published.length

/-- The groups as they can come about: references are to groups, and have no cycle. -/
structure Sound (gs : Groups L) : Prop where
  acyclic : gs.Acyclic
  known : ∀ id, gs.Known (gs.snapshot id)

theorem Sound.lt_of_mem_chain (sound : gs.Sound) {chain : List Nat}
    (inside : id < gs.published.length) (linked : List.IsChain gs.Refers (id :: chain)) :
    ∀ x ∈ id :: chain, x < gs.published.length := by
  induction chain generalizing id with
  | nil => simpa using inside
  | cons next chain ih =>
      obtain ⟨refers, linked⟩ := List.isChain_cons_cons.mp linked
      exact List.forall_mem_cons.mpr ⟨inside, ih (sound.known id next refers) linked⟩

/-- The bound of a lookup is enough for any members that refer to groups, be they published
somewhere or not. -/
theorem Sound.findIn_eq (sound : gs.Sound) (known : gs.Known members)
    (expands : gs.Expands members tables) (probe : L → Option V) :
    gs.findIn probe members = tables.findSome? probe := by
  refine Answers.unique (answers_members fun before ref rest split _ => ?_)
    (expands.answers probe)
  have inside : ref < gs.published.length := known ref (by simp [split])
  refine ⟨gs.published.length - 1, by omega, answers_within fun chain linked => ?_⟩
  -- A chain without repetitions has at most as many groups in it as there are.
  have linked := linked.imp fun _ _ => Asks.refers
  have within : ref :: chain ⊆ List.range gs.published.length :=
    fun x listed => List.mem_range.mpr (sound.lt_of_mem_chain inside linked x listed)
  have few := ((sound.acyclic.nodup linked).subperm within).length_le
  rw [List.length_range, List.length_cons] at few
  omega

/-! ## Publishing -/

/-- The members lead to the group. -/
def Leads (gs : Groups L) (members : List (Member L)) (id : Nat) : Prop :=
  ∃ ref, .group ref ∈ members ∧ Relation.ReflTransGen gs.Refers ref id

/-- Members that do not lead to a group stand for the same tables whatever it publishes. -/
theorem Expands.publish (expands : gs.Expands members tables)
    (inside : id < gs.published.length) (away : ¬ gs.Leads members id)
    (new : List (Member L)) : (gs.publish id new).Expands members tables := by
  induction expands with
  | nil => exact .nil
  | table _ ih =>
      refine .table (ih fun ⟨ref, listed, leads⟩ => away ⟨ref, ?_, leads⟩)
      exact List.mem_cons_of_mem _ listed
  | @group ref rest inner tables _ _ ih ih' =>
      have apart : ref ≠ id := by
        rintro rfl
        exact away ⟨ref, List.mem_cons_self, .refl⟩
      refine .group ?_ (ih' fun ⟨ref, listed, leads⟩ => away ⟨ref, ?_, leads⟩)
      · rw [snapshot_publish inside, if_neg apart]
        exact ih fun ⟨next, refers, leads⟩ => away ⟨ref, List.mem_cons_self, .head refers leads⟩
      · exact List.mem_cons_of_mem _ listed

theorem Sound.findIn_publish (sound : gs.Sound) {new : List (Member L)}
    (sound' : (gs.publish id new).Sound) (inside : id < gs.published.length)
    (known : gs.Known members) (away : ¬ gs.Leads members id) (probe : L → Option V) :
    (gs.publish id new).findIn probe members = gs.findIn probe members := by
  have known' : (gs.publish id new).Known members := by
    simpa only [Known, Groups.publish, List.length_set] using known
  obtain ⟨tables, expands⟩ := sound.acyclic.expands members
  rw [sound.findIn_eq known expands,
    sound'.findIn_eq known' (expands.publish inside away new)]

/-! ## Groups and snapshots over time -/

/-- Groups with the snapshots that have been taken of them. -/
structure Album (L : Type) where
  groups : Groups L := {}
  /-- Oldest first. -/
  taken : List (List (Member L)) := []

inductive Act (L : Type) where
  | create
  | publish (id : Nat) (members : List (Member L))
  | take (id : Nat)

namespace Album

def act (a : Album L) : Act L → Album L
  | .create => { a with groups := a.groups.create }
  | .publish id members => { a with groups := a.groups.publish id members }
  | .take id => { a with taken := a.taken ++ [a.groups.snapshot id] }

def play (a : Album L) (acts : List (Act L)) : Album L := acts.foldl act a

/-- Whoever publishes has a handle of the group and of all groups that the members refer
to, and closes no cycle. -/
def Allows (a : Album L) : Act L → Prop
  | .publish id members => id < a.groups.published.length ∧ a.groups.Known members ∧
      (a.groups.publish id members).Acyclic
  | .create | .take _ => True

/-- Each act is allowed when it is its turn. -/
def AllowsAll : Album L → List (Act L) → Prop
  | _, [] => True
  | a, x :: acts => a.Allows x ∧ AllowsAll (a.act x) acts

variable {a : Album L} {acts acts' : List (Act L)} {x : Act L}

theorem play_append : a.play (acts ++ acts') = (a.play acts).play acts' := List.foldl_append

theorem allowsAll_append :
    a.AllowsAll (acts ++ acts') ↔ a.AllowsAll acts ∧ (a.play acts).AllowsAll acts' := by
  induction acts generalizing a with
  | nil => exact by simp [AllowsAll, play]
  | cons x acts ih => simp only [List.cons_append, AllowsAll, play, List.foldl_cons, ih, and_assoc]

/-- What holds of groups and snapshots at all times. -/
structure Sound (a : Album L) : Prop where
  groups : a.groups.Sound
  taken : ∀ members ∈ a.taken, a.groups.Known members

theorem Sound.empty : ({} : Album L).Sound where
  groups := by
    have nothing (id : Nat) : ({} : Groups L).snapshot id = [] := rfl
    refine ⟨Groups.acyclic_of_lt fun id ref listed => ?_, fun id ref listed => ?_⟩
    · rw [Groups.mem_links, Refers, nothing] at listed
      cases listed
    · rw [nothing] at listed
      cases listed
  taken := nofun

theorem Sound.act (sound : a.Sound) (allowed : a.Allows x) : (a.act x).Sound := by
  cases x with
  | create =>
      have refers : a.groups.create.Refers = a.groups.Refers := by
        funext id ref
        rw [Refers, Refers, snapshot_create]
      have more {members : List (Member L)} (known : a.groups.Known members) :
          a.groups.create.Known members := by
        intro ref listed
        have inside := known ref listed
        simp only [Groups.create, List.length_append, List.length_singleton]
        omega
      refine ⟨⟨?_, fun id => ?_⟩, fun members listed => more (sound.taken members listed)⟩
      · change a.groups.create.Acyclic
        rw [Acyclic, refers]
        exact sound.groups.acyclic
      · change a.groups.create.Known (a.groups.create.snapshot id)
        rw [snapshot_create]
        exact more (sound.groups.known id)
  | publish id members =>
      obtain ⟨inside, known, acyclic⟩ := allowed
      have same {members' : List (Member L)} (known : a.groups.Known members') :
          (a.groups.publish id members).Known members' := by
        simpa only [Known, Groups.publish, List.length_set] using known
      refine ⟨⟨acyclic, fun other => ?_⟩, fun shown listed => same (sound.taken shown listed)⟩
      change (a.groups.publish id members).Known ((a.groups.publish id members).snapshot other)
      rw [snapshot_publish inside]
      split
      · exact same known
      · exact same (sound.groups.known other)
  | take id =>
      refine ⟨sound.groups, fun shown listed => ?_⟩
      rcases List.mem_append.mp listed with old | new
      · exact sound.taken shown old
      · rw [List.mem_singleton.mp new]
        exact sound.groups.known id

theorem Sound.play (sound : a.Sound) (allowed : a.AllowsAll acts) : (a.play acts).Sound := by
  induction acts generalizing a with
  | nil => exact sound
  | cons x acts ih => exact ih (sound.act allowed.1) allowed.2

/-- A group shows the same members as long as nothing is published to it. -/
theorem snapshot_play (allowed : a.AllowsAll acts) (still : ∀ members, .publish id members ∉ acts) :
    (a.play acts).groups.snapshot id = a.groups.snapshot id := by
  induction acts generalizing a with
  | nil => rfl
  | cons x acts ih =>
      have rest := ih allowed.2 fun members listed => still members (List.mem_cons_of_mem x listed)
      refine rest.trans ?_
      cases x with
      | create => exact snapshot_create id
      | take other => rfl
      | publish other members =>
          have apart : id ≠ other := by
            rintro rfl
            exact still members List.mem_cons_self
          exact (snapshot_publish allowed.1.1 members id).trans (if_neg apart)

theorem taken_prefix (a : Album L) (acts : List (Act L)) : a.taken <+: (a.play acts).taken := by
  induction acts generalizing a with
  | nil => exact List.prefix_rfl
  | cons x acts ih =>
      refine List.IsPrefix.trans ?_ (ih (a.act x))
      cases x with
      | create | publish => exact List.prefix_rfl
      | take id => exact List.prefix_append _ _

end Album

/-- What lookups answer after some acts. -/
structure Flattening (acts : List (Act L)) (a : Album L) : Prop where
  /-- A group shows what was published to it last. -/
  current : ∀ before id members after, acts = before ++ .publish id members :: after →
    (∀ later, .publish id later ∉ after) → a.groups.snapshot id = members
  /-- A group to which nothing was published shows nothing. -/
  fresh : ∀ id, (∀ members, .publish id members ∉ acts) → a.groups.snapshot id = []
  /-- A lookup in a group finds the first hit in the tables that it stands for. -/
  groups : ∀ id, ∃ tables,
    (∀ flat, a.groups.Expands (a.groups.snapshot id) flat ↔ flat = tables) ∧
    ∀ {V : Type} (probe : L → Option V), a.groups.find probe id = tables.findSome? probe
  /-- A lookup in a snapshot does so in the tables that the members stand for now which
  the group showed when it was taken. -/
  snapshots : ∀ before id after, acts = before ++ .take id :: after →
    let earlier := Album.play {} before
    a.taken[earlier.taken.length]? = some (earlier.groups.snapshot id) ∧ ∃ tables,
      (∀ flat, a.groups.Expands (earlier.groups.snapshot id) flat ↔ flat = tables) ∧
      ∀ {V : Type} (probe : L → Option V),
        a.groups.findIn probe (earlier.groups.snapshot id) = tables.findSome? probe
  /-- Publishing changes answers only of groups and snapshots that lead to the group. -/
  elsewhere : ∀ id members, a.Allows (.publish id members) → ∀ {V : Type} (probe : L → Option V),
    (∀ other, ¬ Relation.ReflTransGen a.groups.Refers other id →
      (a.groups.publish id members).find probe other = a.groups.find probe other) ∧
    ∀ shown ∈ a.taken, ¬ a.groups.Leads shown id →
      (a.groups.publish id members).findIn probe shown = a.groups.findIn probe shown

/-- The tables that members stand for, and what a lookup makes of them. -/
theorem Sound.flat (sound : gs.Sound) (known : gs.Known members) : ∃ tables,
    (∀ flat, gs.Expands members flat ↔ flat = tables) ∧
    ∀ {V : Type} (probe : L → Option V), gs.findIn probe members = tables.findSome? probe := by
  obtain ⟨tables, expands⟩ := sound.acyclic.expands members
  refine ⟨tables, fun flat => ⟨fun other => other.unique expands, fun same => same ▸ expands⟩, ?_⟩
  exact fun probe => sound.findIn_eq known expands probe

theorem lookups_flatten {acts : List (Act L)} (allowed : Album.AllowsAll {} acts) :
    Flattening acts (Album.play {} acts) := by
  have sound : (Album.play {} acts).Sound := Album.Sound.empty.play allowed
  constructor
  · rintro before id members after rfl still
    obtain ⟨-, ⟨inside, -⟩, allowed⟩ := Album.allowsAll_append.mp allowed
    rw [Album.play_append]
    refine (Album.snapshot_play allowed still).trans ?_
    exact (snapshot_publish inside members id).trans (if_pos rfl)
  · intro id still
    exact Album.snapshot_play allowed still
  · intro id
    exact sound.groups.flat (sound.groups.known id)
  · rintro before id after rfl earlier
    have there : (Album.play {} (before ++ .take id :: after)).taken[earlier.taken.length]? =
        some (earlier.groups.snapshot id) := by
      rw [Album.play_append]
      obtain ⟨later, whole⟩ := Album.taken_prefix (earlier.act (.take id)) after
      change ((earlier.act (.take id)).play after).taken[_]? = _
      rw [← whole]
      simp [Album.act]
    exact ⟨there, sound.groups.flat (sound.taken _ (List.mem_of_getElem? there))⟩
  · intro id members may V probe
    have inside := may.1
    have sound' : ((Album.play {} acts).groups.publish id members).Sound :=
      (sound.act (x := .publish id members) may).groups
    constructor
    · intro other away
      have apart : other ≠ id := by
        rintro rfl
        exact away .refl
      rw [Groups.find, snapshot_publish inside, if_neg apart]
      refine sound.groups.findIn_publish sound' inside (sound.groups.known other) ?_ probe
      exact fun ⟨ref, refers, leads⟩ => away (.head refers leads)
    · intro shown listed away
      exact sound.groups.findIn_publish sound' inside (sound.taken shown listed) away probe

/-- The value that a table of one binding has for a key. -/
def boundTo (key : String) (binding : String × Nat) : Option Nat :=
  if binding.1 = key then some binding.2 else none

/-- One group refers to the other two, one of which refers to the last. Those two are
published again after a snapshot was taken. -/
def reprinted : List (Act (String × Nat)) :=
  [.create, .create, .create, .publish 0 [.table ("k", 1)],
    .publish 1 [.group 0, .table ("k", 2)],
    .publish 2 [.table ("x", 9), .group 1, .group 0], .take 1,
    .publish 1 [.table ("k", 3), .group 0], .publish 0 [.table ("j", 4)]]

/-- The snapshot keeps its own value for the key, which the first group has no more, and
has the new one of that group for another key. -/
theorem lookups_flatten_reprinted :
    let a := Album.play {} reprinted
    Album.AllowsAll {} reprinted ∧ a.groups.find (boundTo "k") 2 = some 3 ∧
      a.taken = [[.group 0, .table ("k", 2)]] ∧
      a.groups.findIn (boundTo "k") [.group 0, .table ("k", 2)] = some 2 ∧
      a.groups.findIn (boundTo "j") [.group 0, .table ("k", 2)] = some 4 := by
  intro a
  have acyclic (gs : Groups (String × Nat)) (few : gs.published.length = 3)
      (below : ∀ id < 3, ∀ ref ∈ gs.links id, ref < id) : gs.Acyclic := by
    refine Groups.acyclic_of_lt fun id ref listed => ?_
    have inside := (Groups.mem_links.mp listed).lt
    exact below id (few ▸ inside) ref listed
  have allowed : Album.AllowsAll {} reprinted := by
    refine ⟨trivial, trivial, trivial, ⟨by decide, ?_, acyclic _ rfl (by decide)⟩,
      ⟨by decide, ?_, acyclic _ rfl (by decide)⟩, ⟨by decide, ?_, acyclic _ rfl (by decide)⟩,
      trivial, ⟨by decide, ?_, acyclic _ rfl (by decide)⟩,
      ⟨by decide, ?_, acyclic _ rfl (by decide)⟩, trivial⟩
    all_goals simp [Known, Album.act, create, Groups.publish]
  have flattening := lookups_flatten allowed
  have zero : a.groups.snapshot 0 = [.table ("j", 4)] := rfl
  have one : a.groups.snapshot 1 = [.table ("k", 3), .group 0] := rfl
  have two : a.groups.snapshot 2 = [.table ("x", 9), .group 1, .group 0] := rfl
  have inner : a.groups.Expands (a.groups.snapshot 0) [("j", 4)] := zero ▸ .table .nil
  have middle : a.groups.Expands (a.groups.snapshot 1) [("k", 3), ("j", 4)] :=
    one ▸ .table (.group inner .nil)
  obtain ⟨tables, flat, find⟩ := flattening.groups 2
  obtain rfl := (flat [("x", 9), ("k", 3), ("j", 4), ("j", 4)]).mp
    (two ▸ .table (.group middle (.group inner .nil)))
  obtain ⟨taken, kept, flat', find'⟩ := flattening.snapshots
    [.create, .create, .create, .publish 0 [.table ("k", 1)],
      .publish 1 [.group 0, .table ("k", 2)], .publish 2 [.table ("x", 9), .group 1, .group 0]]
    1 [.publish 1 [.table ("k", 3), .group 0], .publish 0 [.table ("j", 4)]] rfl
  obtain rfl := (flat' [("j", 4), ("k", 2)]).mp (.group inner (.table .nil))
  exact ⟨allowed, find (boundTo "k"), rfl, find' (boundTo "k"), find' (boundTo "j")⟩

end LiveRules.Groups
