import LiveRules.Proofs.Collect.Delivery
import LiveRules.Proofs.Collect.Contents

/-!
# Outstanding changes

A list of entries that is behind the entries in memory: whatever it lacks was
added, and whatever it has too much was removed, by a change whose write is still
missing. Only the latest change of an entry counts.
-/
namespace LiveRules.Collect

/-- `x` is the latest change of `e`, and `later` are the submissions after it. -/
structure Latest (l : List Submission) (e : String) (x : Submission)
    (later : List Submission) : Prop where
  place : x :: later <:+ l
  entry : x.edit.entry = e
  last : ∀ y ∈ later, y.edit.entry ≠ e

theorem Latest.new (l : List Submission) (x : Submission) :
    Latest (l ++ [x]) x.edit.entry x [] where
  place := List.suffix_append l [x]
  entry := rfl
  last := by simp

theorem Latest.enter {l later : List Submission} {e : String} {x y : Submission}
    (latest : Latest l e x later) (other : y.edit.entry ≠ e) :
    Latest (l ++ [y]) e x (later ++ [y]) where
  place := by
    obtain ⟨before, rfl⟩ := latest.place
    exact ⟨before, by simp⟩
  entry := latest.entry
  last := by
    intro z hz
    rcases List.mem_append.mp hz with hz | hz
    · exact latest.last z hz
    · rwa [List.mem_singleton.mp hz]

theorem exists_latest {l : List Submission} {e : String} (some : ∃ x ∈ l, x.edit.entry = e) :
    ∃ x later, Latest l e x later := by
  induction l using List.reverseRecOn with
  | nil => simp at some
  | append_singleton l y ih =>
      by_cases same : y.edit.entry = e
      · exact ⟨y, [], same ▸ .new l y⟩
      · obtain ⟨x, hx, entry⟩ := some
        rcases List.mem_append.mp hx with hx | hx
        · obtain ⟨z, later, latest⟩ := ih ⟨x, hx, entry⟩
          exact ⟨z, later ++ [y], latest.enter same⟩
        · rw [List.mem_singleton.mp hx] at entry
          exact absurd entry same

theorem mem_advanceFirst {fate : Fate} {f : Submission → Submission} {l : List Submission}
    {y : Submission} (hy : y ∈ advanceFirst fate f l) :
    y ∈ l ∨ ∃ x ∈ l, x.fate = fate ∧ y = f x := by
  induction l with
  | nil => simp [advanceFirst] at hy
  | cons x xs ih =>
      simp only [advanceFirst] at hy
      split at hy
      · rename_i hx
        rcases List.mem_cons.mp hy with rfl | hy
        · exact .inr ⟨x, by simp, hx, rfl⟩
        · exact .inl (by simp [hy])
      · rcases List.mem_cons.mp hy with rfl | hy
        · exact .inl (by simp)
        · rcases ih hy with old | ⟨z, hz, fate, rfl⟩
          · exact .inl (by simp [old])
          · exact .inr ⟨z, by simp [hz], fate, rfl⟩

theorem mem_advanceFirst_of_ne {fate : Fate} {l : List Submission} {x : Submission}
    (f : Submission → Submission) (hx : x ∈ l) (other : x.fate ≠ fate) :
    x ∈ advanceFirst fate f l := by
  obtain ⟨before, after, rfl⟩ := List.append_of_mem hx
  induction before with
  | nil => simp [advanceFirst, other]
  | cons y ys ih =>
      simp only [List.cons_append, advanceFirst]
      split
      · simp
      · exact List.mem_cons_of_mem _ (ih (by simp))

/-- The submission that is changed, when there is one. -/
theorem exists_first {fate : Fate} {l : List Submission} (some : ∃ x ∈ l, x.fate = fate) :
    ∃ before x after, l = before ++ x :: after ∧ x.fate = fate ∧
      ∀ f, advanceFirst fate f l = before ++ f x :: after := by
  induction l with
  | nil => simp at some
  | cons y ys ih =>
      by_cases hy : y.fate = fate
      · exact ⟨[], y, ys, rfl, hy, fun f => by simp [advanceFirst, hy]⟩
      · obtain ⟨before, x, after, split, hx, changed⟩ := ih (by simpa [hy] using some)
        refine ⟨y :: before, x, after, by rw [split]; rfl, hx, fun f => ?_⟩
        simp [advanceFirst, hy, changed f]

theorem advanceFirst_append_cases (fate : Fate) (f : Submission → Submission)
    (before after : List Submission) :
    advanceFirst fate f (before ++ after) = advanceFirst fate f before ++ after ∨
      advanceFirst fate f (before ++ after) = before ++ advanceFirst fate f after := by
  induction before with
  | nil => exact .inr rfl
  | cons x xs ih =>
      simp only [List.cons_append, advanceFirst]
      split
      · exact .inl rfl
      · rcases ih with ih | ih
        · exact .inl (by rw [ih, List.cons_append])
        · exact .inr (by rw [ih])

/-- The latest change stays the latest one when a fate changes. -/
theorem Latest.advance {l later : List Submission} {e : String} {x : Submission} (fate : Fate)
    {f : Submission → Submission} (latest : Latest l e x later)
    (edit : ∀ x, (f x).edit = x.edit) :
    ∃ x' later', Latest (advanceFirst fate f l) e x' later' ∧ x'.edit = x.edit ∧
      ∀ y' ∈ x' :: later', y' ∈ x :: later ∨ ∃ y ∈ x :: later, y.fate = fate ∧ y' = f y := by
  obtain ⟨before, rfl⟩ := latest.place
  -- The submission that changes may come before the latest change of the entry, be
  -- that change itself, or come after it.
  rcases advanceFirst_append_cases fate f before (x :: later) with early | late
  · refine ⟨x, later, ⟨?_, latest.entry, latest.last⟩, rfl, fun y hy => .inl hy⟩
    rw [early]
    exact List.suffix_append _ _
  rw [late]
  simp only [advanceFirst]
  split
  · rename_i hx
    refine ⟨f x, later, ⟨List.suffix_append _ _, (by rw [edit, latest.entry]), latest.last⟩,
      edit x, ?_⟩
    intro y hy
    rcases List.mem_cons.mp hy with rfl | hy
    · exact .inr ⟨x, by simp, hx, rfl⟩
    · exact .inl (by simp [hy])
  · refine ⟨x, advanceFirst fate f later, ⟨List.suffix_append _ _, latest.entry, ?_⟩, rfl, ?_⟩
    · intro y hy
      rcases mem_advanceFirst hy with hy | ⟨z, hz, -, rfl⟩
      · exact latest.last y hy
      · rw [edit]
        exact latest.last z hz
    · intro y hy
      rcases List.mem_cons.mp hy with rfl | hy
      · exact .inl (by simp)
      · rcases mem_advanceFirst hy with hy | ⟨z, hz, same, rfl⟩
        · exact .inl (by simp [hy])
        · exact .inr ⟨z, by simp [hz], same, rfl⟩

/-- A change leaves all other entries alone. -/
theorem mem_apply_other {edit : Edit} {entries : List String} {e : String}
    (other : edit.entry ≠ e) : e ∈ edit.apply entries ↔ e ∈ entries := by
  cases edit with
  | added e' => simp [Edit.apply, show e ≠ e' from Ne.symm other]
  | removed e' => exact List.mem_erase_of_ne (Ne.symm other)

theorem Edit.eq_added_of_mem {edit : Edit} {entries : List String} {e : String}
    (entry : edit.entry = e) (nodup : entries.Nodup) (present : e ∈ edit.apply entries) :
    edit = .added e := by
  cases edit with
  | added e' => exact congrArg _ entry
  | removed e' =>
      obtain rfl : e' = e := entry
      exact absurd present nodup.not_mem_erase

theorem Edit.eq_removed_of_not_mem {edit : Edit} {entries : List String} {e : String}
    (entry : edit.entry = e) (absent : e ∉ edit.apply entries) : edit = .removed e := by
  cases edit with
  | added e' =>
      obtain rfl : e' = e := entry
      exact absurd (by simp [Edit.apply]) absent
  | removed e' => exact congrArg _ entry

theorem mem_replay {l : List Submission} {entries : List String} {e : String}
    (present : e ∈ entries) (others : ∀ y ∈ l, y.edit.entry ≠ e) : e ∈ replay entries l := by
  induction l generalizing entries with
  | nil => exact present
  | cons y ys ih =>
      exact ih ((mem_apply_other (others y (by simp))).mpr present)
        fun z hz => others z (by simp [hz])

/-- An absent entry was removed last, if it was ever changed. -/
theorem Latest.removed {l later : List Submission} {entries : List String} {e : String}
    {x : Submission} (latest : Latest l e x later) (absent : e ∉ replay entries l) :
    x.edit = .removed e := by
  obtain ⟨before, rfl⟩ := latest.place
  have then_absent : e ∉ x.edit.apply (replay entries before) := by
    intro present
    have kept := mem_replay present latest.last
    exact absent (by simpa [replay] using kept)
  exact Edit.eq_removed_of_not_mem latest.entry then_absent

/-- The latest change of an entry is `edit`. Its write, and any later one that
would do as well, has a fate with `p`. -/
def Outstanding (p : Fate → Prop) (l : List Submission) (edit : Edit) : Prop :=
  ∃ x later, Latest l edit.entry x later ∧ x.edit = edit ∧
    ∀ y ∈ x :: later, y.op = edit.op → p y.fate

namespace Outstanding
variable {p q : Fate → Prop} {l : List Submission} {edit : Edit}

theorem new {x : Submission} (l : List Submission) (fresh : p x.fate) :
    Outstanding p (l ++ [x]) x.edit := by
  refine ⟨x, [], .new l x, rfl, ?_⟩
  intro y hy _
  rwa [List.mem_singleton.mp hy]

theorem enter {x : Submission} (outstanding : Outstanding p l edit)
    (other : x.edit.entry ≠ edit.entry) (fresh : p x.fate) :
    Outstanding p (l ++ [x]) edit := by
  obtain ⟨y, later, latest, hy, all⟩ := outstanding
  refine ⟨y, later ++ [x], latest.enter other, hy, ?_⟩
  intro z hz op
  rw [← List.cons_append] at hz
  rcases List.mem_append.mp hz with hz | hz
  · exact all z hz op
  · rwa [List.mem_singleton.mp hz]

/-- `p` may turn into `q` as long as the fates that change turn into ones with
`q`. -/
theorem advance {fate : Fate} {f : Submission → Submission}
    (outstanding : Outstanding p l edit) (same : ∀ x, (f x).edit = x.edit)
    (weaker : ∀ φ, p φ → q φ)
    (moved : ∀ x ∈ l, x.fate = fate → x.op = edit.op → p x.fate → q (f x).fate) :
    Outstanding q (advanceFirst fate f l) edit := by
  obtain ⟨x, later, latest, hx, all⟩ := outstanding
  obtain ⟨x', later', latest', hx', from_⟩ := latest.advance fate same
  refine ⟨x', later', latest', hx'.trans hx, ?_⟩
  intro y hy op
  rcases from_ y hy with old | ⟨z, hz, fate, rfl⟩
  · exact weaker _ (all y old op)
  · have op : z.op = edit.op := by rw [← op]; exact (congrArg Edit.op (same z)).symm
    exact moved z (latest.place.subset hz) fate op (all z hz op)

end Outstanding

/-- The entries `shown` are behind those in memory, and the changes that they lack
are outstanding. -/
structure Behind (p : Fate → Prop) (l : List Submission) (entries shown : List String) :
    Prop where
  lacking : ∀ e ∈ entries, e ∉ shown → Outstanding p l (.added e)
  surplus : ∀ e ∈ shown, e ∉ entries → Outstanding p l (.removed e)

namespace Behind
variable {p q : Fate → Prop} {l : List Submission} {entries shown : List String}

theorem of_same (same : ∀ e, e ∈ shown ↔ e ∈ entries) : Behind p l entries shown where
  lacking := fun e he absent => absurd ((same e).mpr he) absent
  surplus := fun e he absent => absurd ((same e).mp he) absent

theorem enter {x : Submission} (behind : Behind p l entries shown) (nodup : entries.Nodup)
    (fresh : p x.fate) : Behind p (l ++ [x]) (x.edit.apply entries) shown := by
  constructor
  · intro e he absent
    by_cases same : x.edit.entry = e
    · have added := Edit.eq_added_of_mem same nodup he
      exact added ▸ .new l fresh
    · have old := (mem_apply_other same).mp he
      exact (behind.lacking e old absent).enter same fresh
  · intro e he absent
    by_cases same : x.edit.entry = e
    · have removed := Edit.eq_removed_of_not_mem same absent
      exact removed ▸ .new l fresh
    · have old := fun present => absent ((mem_apply_other same).mpr present)
      exact (behind.surplus e he old).enter same fresh

theorem advance {fate : Fate} {f : Submission → Submission}
    (behind : Behind p l entries shown) (same : ∀ x, (f x).edit = x.edit)
    (weaker : ∀ φ, p φ → q φ) (moved : ∀ x, x.fate = fate → p fate → q (f x).fate) :
    Behind q (advanceFirst fate f l) entries shown where
  lacking := fun e he absent => (behind.lacking e he absent).advance same weaker
    fun x _ fate _ old => moved x fate (fate ▸ old)
  surplus := fun e he absent => (behind.surplus e he absent).advance same weaker
    fun x _ fate _ old => moved x fate (fate ▸ old)

end Behind

end LiveRules.Collect
