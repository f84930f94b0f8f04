import LiveRules.Pattern.Parser
import LiveRules.Proofs.Host.Standing

/-!
# Which settings a host accepts

A host is built exactly from acceptable settings, if all watchers can be started that it
asks for. A tag then reaches the one plugin that was built for it. Otherwise the build ends
with what is wrong with the first blueprint that is judged badly.
-/
namespace LiveRules
open Engine LiveRules.Lists

section
variable [PatternLanguage]

namespace Engine

/-- Building plugins in turn ends as their blueprints are judged. -/
theorem Builds.judged {h h' : Host} {s s' : Engine} {before rest : List Blueprint}
    {result : Except Fault Unit} (builds : Builds h s rest result h' s')
    (standing : Standing s before) :
    Blueprint.judge s.files s.runtime before rest = result ∧
      (result = .ok () → Standing s' (before ++ rest)) := by
  induction builds generalizing before with
  | done => exact ⟨rfl, fun _ => by rwa [List.append_nil]⟩
  | @unbuilt h s s' b rest e refused unbuilt =>
      refine ⟨?_, fun fine => by cases fine⟩
      rw [Blueprint.judge, Blueprint.verdict, ← standing.construct_eq, refused]
  | @dismissed h s s' b rest p able makes taken =>
      refine ⟨?_, fun fine => by cases fine⟩
      obtain ⟨id, found⟩ := Option.isSome_iff_exists.mp taken
      rw [Blueprint.judge, Blueprint.verdict, ← standing.construct_eq, able]
      dsimp only
      rw [if_pos (standing.only found)]
  | @enlisted h h' s s' s'' b rest p result able makes free others ih =>
      obtain ⟨judged, stands⟩ := ih (standing.enlist makes free)
      have fresh := standing.not_mem_of_free free
      rw [Blueprint.judge, Blueprint.verdict, ← standing.construct_eq, able]
      dsimp only
      rw [if_neg fresh]
      have files : (Blueprint.enlist s' p).files = s.files := makes.aside.files
      have runtime : (Blueprint.enlist s' p).runtime = s.runtime := makes.aside.runtime
      rw [files, runtime] at judged
      refine ⟨judged, fun fine => ?_⟩
      rw [← List.singleton_append, ← List.append_assoc]
      exact stands fine

/-- What is told changes nothing. -/
theorem Standing.tell {s : Engine} {before : List Blueprint} (standing : Standing s before)
    {events : List LogEvent} : Standing (s.tell events) before where
  stands := fun b listed => by
    obtain ⟨id, p, resolved, there, stands⟩ := standing.stands b listed
    exact ⟨id, p, resolved, there, (Extends.beside s _ s.watches).stands stands⟩
  only := standing.only
  distinct := standing.distinct
  sorted := standing.sorted
  shared := standing.shared

/-- Before the first plugin there is nothing that could stand for anything. -/
theorem standing_beginning {s : Engine} (c : Settings) (unregistered : s.registry.providers = [])
    (unshared : s.collect.shared = []) : Standing (s.beginning c) [] where
  stands := nofun
  only := fun resolved => by
    have none : (s.beginning c).registry.providers = [] := unregistered
    simp [Registry.resolve, none] at resolved
  distinct := .nil
  sorted := by
    have none : (s.beginning c).registry.providers = [] := unregistered
    simp [Registry.tags, none]
  shared := by
    have none : (s.beginning c).collect.shared = [] := unshared
    simp [none]

end Engine

namespace Host

/-- The tags of the plugins of a kind. -/
def tagsOf (h : Host) (kind : PluginKind) : List String := (h.shelf kind).map (·.1)

/-- What a host offers once it is built. -/
structure Serves (h : Host) (c : Settings) (s : Engine) : Prop where
  /-- What is registered is kept, by kind, and nothing else is. -/
  registered : ∀ e, e ∈ s.registry.providers ↔ ∃ kind, e ∈ h.shelf kind
  sorted : s.registry.tags.Pairwise (· < ·) ∧ ∀ kind, (h.tagsOf kind).Pairwise (· < ·)
  /-- The plugins of a kind have the tags that the settings give them. -/
  kinds : ∀ kind tag, tag ∈ h.tagsOf kind ↔ ∃ b ∈ c.blueprints, b.kind = kind ∧ b.tag = tag
  apart : ∀ {kind kind'}, kind ≠ kind' → (h.tagsOf kind).Disjoint (h.tagsOf kind')
  union : ∀ tag, tag ∈ s.registry.tags ↔ ∃ kind, tag ∈ h.tagsOf kind
  /-- A tag reaches what was built for it. -/
  reaches : ∀ b ∈ c.blueprints, ∃ id p, s.registry.resolve b.tag = some id ∧
    (b.tag, id) ∈ h.shelf b.kind ∧ s.providers[id]? = some p ∧
    h.plugin? s b.tag = some p.plugin ∧ b.Stands s p
  answered : ∀ b ∈ c.blueprints, ∀ known key, (h.ask known b.tag key s).1 ≠ .error (.noPlugin b.tag)
  unknown : ∀ {tag}, tag ∉ s.registry.tags → ∀ known key,
    h.ask known tag key s = (.error (.noPlugin tag), s)

/-- Every plugin that stands for a blueprint has an answer to everything. -/
theorem ask_answers {h : Host} {s : Engine} {b : Blueprint} {p : Provider}
    (found : h.plugin? s b.tag = some p.plugin) (stands : b.Stands s p)
    (known : List (String × Bool)) (key : String) :
    (h.ask known b.tag key s).1 ≠ .error (.noPlugin b.tag) := by
  cases b with
  | rules k r =>
      obtain ⟨id, c, plugin, -⟩ := stands
      rw [Host.ask, found, plugin]
      rcases k with (_ | _) | _ <;> dsimp only [CompositeKind.plugin, SetKind.plugin]
      · nofun
      · split <;> nofun
      · split <;> nofun
  | action a =>
      obtain ⟨handle, x, st, place, plugin, -⟩ := stands
      rw [Host.ask, found, plugin]
      nofun
  | gate r =>
      obtain ⟨id, g, plugin, -⟩ := stands
      rw [Host.ask, found, plugin]
      dsimp only
      split <;> nofun

theorem kind_of_stands {s : Engine} {b : Blueprint} {p : Provider} (stands : b.Stands s p) :
    p.plugin.kind? = some b.kind := by
  cases b with
  | rules k r =>
      obtain ⟨id, c, plugin, -⟩ := stands
      rw [plugin]
      rcases k with (_ | _) | _ <;> rfl
  | action a =>
      obtain ⟨handle, h, st, place, plugin, -⟩ := stands
      rw [plugin]
      rfl
  | gate r =>
      obtain ⟨id, g, plugin, -⟩ := stands
      rw [plugin]
      rfl

omit [PatternLanguage] in
theorem mem_tagsOf {h : Host} {kind : PluginKind} {tag : String} :
    tag ∈ h.tagsOf kind ↔ ∃ id, (tag, id) ∈ h.shelf kind := by
  simp [tagsOf]

namespace Kept
variable {h : Host} {s : Engine} {c : Settings}

/-- What stands for a blueprint is on the shelf for its kind. -/
theorem shelved (kept : h.Kept s) (standing : Standing s c.blueprints) {b : Blueprint}
    (listed : b ∈ c.blueprints) : ∃ id p, s.registry.resolve b.tag = some id ∧
      (b.tag, id) ∈ h.shelf b.kind ∧ s.providers[id]? = some p ∧ b.Stands s p := by
  obtain ⟨id, p, resolved, there, stands⟩ := standing.stands b listed
  refine ⟨id, p, resolved, ?_, there, stands⟩
  obtain ⟨kind, shelved⟩ := (kept.registered (b.tag, id)).mp
    ((Registry.lookup_eq_some_iff standing.sorted).mp resolved)
  obtain ⟨p', there', same⟩ := kept.kinds shelved
  obtain rfl := Option.some.inj (there.symm.trans there')
  obtain rfl := Option.some.inj (same.symm.trans (kind_of_stands stands))
  exact shelved

/-- What is on a shelf stands for a blueprint of the kind. -/
theorem stands (kept : h.Kept s) (standing : Standing s c.blueprints) {kind : PluginKind}
    {tag : String} {id : Nat} (shelved : (tag, id) ∈ h.shelf kind) :
    ∃ b ∈ c.blueprints, b.kind = kind ∧ b.tag = tag := by
  have resolved := (Registry.lookup_eq_some_iff standing.sorted).mpr
    ((kept.registered (tag, id)).mpr ⟨kind, shelved⟩)
  obtain ⟨b, listed, rfl⟩ := List.mem_map.mp (standing.only resolved)
  obtain ⟨id', p, -, own, there, stands⟩ := kept.shelved standing listed
  exact ⟨b, listed, (kept.unique standing.sorted own shelved).1, rfl⟩

theorem plugin?_of_listed (kept : h.Kept s) (standing : Standing s c.blueprints)
    {b : Blueprint} (listed : b ∈ c.blueprints) : ∃ id p, s.registry.resolve b.tag = some id ∧
      (b.tag, id) ∈ h.shelf b.kind ∧ s.providers[id]? = some p ∧
      h.plugin? s b.tag = some p.plugin ∧ b.Stands s p := by
  obtain ⟨id, p, resolved, shelved, there, stands⟩ := kept.shelved standing listed
  exact ⟨id, p, resolved, shelved, there, kept.plugin?_eq standing.sorted shelved there, stands⟩

theorem serves (kept : h.Kept s) (standing : Standing s c.blueprints) : h.Serves c s where
  registered := kept.registered
  sorted := ⟨standing.sorted, kept.sorted⟩
  kinds := by
    intro kind tag
    rw [mem_tagsOf]
    constructor
    · rintro ⟨id, shelved⟩
      exact kept.stands standing shelved
    · rintro ⟨b, listed, rfl, rfl⟩
      obtain ⟨id, p, -, shelved, -⟩ := kept.shelved standing listed
      exact ⟨id, shelved⟩
  apart := by
    intro kind kind' other tag listed listed'
    obtain ⟨id, here⟩ := mem_tagsOf.mp listed
    obtain ⟨id', there⟩ := mem_tagsOf.mp listed'
    exact other (kept.unique standing.sorted here there).1
  union := by
    intro tag
    simp only [Registry.tags, List.mem_map, mem_tagsOf, kept.registered]
    constructor
    · rintro ⟨⟨_, id⟩, ⟨kind, shelved⟩, rfl⟩
      exact ⟨kind, id, shelved⟩
    · rintro ⟨kind, id, shelved⟩
      exact ⟨(tag, id), ⟨kind, shelved⟩, rfl⟩
  reaches := fun b listed => kept.plugin?_of_listed standing listed
  answered := by
    intro b listed known key
    obtain ⟨id, p, -, -, -, found, stands⟩ := kept.plugin?_of_listed standing listed
    exact ask_answers found stands known key
  unknown := by
    intro tag missing known key
    rw [ask, kept.plugin?_eq_none missing]

end Kept

/-- What comes of a build. -/
structure Outcome (c : Settings) (s : Engine) : Prop where
  accepts : (build c s).1.isOk = true ↔ c.Acceptable s.files
  /-- The error is that of the first plugin that cannot be built or registered. -/
  refuses : ∀ e, (build c s).1 = .error e ↔
    ∃ before b after, c.blueprints = before ++ b :: after ∧
      Each (fun earlier b => b.verdict s.files s.runtime earlier = .ok ()) before ∧
      b.verdict s.files s.runtime before = .error e
  serves : ∀ h, (build c s).1 = .ok h → h.Serves c (build c s).2

/-- A host is built from all acceptable settings and from no others. -/
theorem build_outcome (c : Settings) (s : Engine) (unregistered : s.registry.providers = [])
    (unshared : s.collect.shared = []) (watching : c.WatchersStart s.files s.runtime) :
    Outcome c s := by
  have ⟨result, h, s', builds, built⟩ := build_cases c s
  have ⟨judged, stands⟩ := builds.judged (standing_beginning c unregistered unshared)
  have judged : Blueprint.judge s.files s.runtime [] c.blueprints = result := judged
  have refuses (e : Fault) : Blueprint.judge s.files s.runtime [] c.blueprints = .error e ↔ _ :=
    Blueprint.judge_error_iff
  have acceptable := Settings.judge_iff_acceptable watching
  rw [judged] at acceptable
  simp only [judged, List.nil_append] at refuses
  cases result with
  | ok _ =>
      refine ⟨?_, fun e => ?_, fun h' same => ?_⟩
      · rw [built, ← acceptable]
        simp [Except.isOk, Except.toBool]
      · rw [← refuses e, built]
        simp
      · rw [built] at same ⊢
        obtain rfl := Except.ok.inj same
        have kept := builds.kept rfl (.start (s.beginning c) unregistered)
        exact (kept.tell [ready s']).serves (stands rfl).tell
  | error e =>
      refine ⟨?_, fun e' => ?_, fun h' same => ?_⟩
      · rw [built, ← acceptable]
        simp [Except.isOk, Except.toBool]
      · rw [← refuses e', built]
        simp
      · rw [built] at same
        cases same

end Host
end

namespace Host
open scoped Pattern

/-- Two sets of domains, of which the second has all rules of the first. -/
def household : Settings where
  domainSets :=
    [{ tag := "ads", expressions := ["ads.example"] }, { tag := "all", sets := ["ads"] }]

theorem build_outcome_household :
    ({} : Engine).registry.providers = [] ∧ ({} : Engine).collect.shared = [] ∧
      household.WatchersStart ({} : Engine).files ({} : Engine).runtime ∧
      Outcome household {} ∧ household.Acceptable {} := by
  have watching : household.WatchersStart ({} : Engine).files ({} : Engine).runtime := by
    intro b listed
    have silent : ∀ b ∈ household.blueprints, b.watch? = none := by
      simp [household, Settings.blueprints, Blueprint.watch?, SetRequest.watch?,
        SetRequest.wantsWatch, domainRequest]
    rw [silent b listed]
    rfl
  have outcome := build_outcome household {} rfl rfl watching
  have succeeds : (build household {}).1.isOk = true := by decide +kernel
  exact ⟨rfl, rfl, watching, outcome, outcome.accepts.mp succeeds⟩

end Host
end LiveRules
