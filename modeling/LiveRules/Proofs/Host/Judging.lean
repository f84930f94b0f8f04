import LiveRules.Proofs.Host.Building
import LiveRules.Proofs.Intel.Callbacks
import LiveRules.Proofs.Lists

/-!
# Judging settings

Whether settings are accepted can be told from the settings and the files alone. Every
blueprint is judged by those before it: its own rules, the sets that it refers to, the
watcher that it asks for, and last its tag.
-/
namespace LiveRules
open Engine LiveRules.Lists
variable [PatternLanguage]

namespace Blueprint

/-- Whether composites of the kind can refer to what is built. -/
def offers (k : CompositeKind) : Blueprint → Bool
  | rules k' _ => k.linked && k' = k
  | action _ | gate _ => false

/-- Whether tags refer to sets of the kind among those before. -/
def refer (k : CompositeKind) (before : List Blueprint) : List String → Except Fault Unit
  | [] => .ok ()
  | tag :: tags =>
      if k.linked = false then .error (.provider .registryClosed)
      else match before.find? (·.tag = tag) with
        | none => .error (.provider (.notFound tag))
        | some b =>
            if b.offers k then refer k before tags
            else .error (.provider (.capability tag k.dialect.capability))

/-- Whether a store can be opened on a file, which may be missing. -/
def loads (files : Files.Tree) (path : String) : Except Fault Unit :=
  match files.readText path with
  | .error .notFound => .ok ()
  | .error cause => .error (.collect (.load path cause))
  | .ok _ => .ok ()

/-- Whether a plugin can be built after others. -/
def construction (files : Files.Tree) (runtime : Bool) (before : List Blueprint) :
    Blueprint → Except Fault Unit
  | rules k r =>
      match k.dialect.compile r.source files with
      | .error e => .error (.rule e)
      | .ok _ =>
          match refer k before r.sets with
          | .error e => .error e
          | .ok () => watchable files runtime r.watch?
  | action a =>
      if a.path.isEmpty then .error (.config a.tag .noFilePath)
      else match files.canonical a.path with
        | .error cause => .error (.collect (.badPath a.path cause))
        | .ok place => loads files place.text
  | gate r =>
      match r.whitelist with
      | none => .ok ()
      | some path =>
          match Intel.WhitelistFile.load files path with
          | .error e => .error e
          | .ok file =>
              match Intel.Whitelist.networks file.ips with
              | .error e => .error (.rule e)
              | .ok _ => watchable files runtime r.watch?

/-- Whether a plugin can be built and registered after others. -/
def verdict (files : Files.Tree) (runtime : Bool) (before : List Blueprint) (b : Blueprint) :
    Except Fault Unit :=
  match b.construction files runtime before with
  | .error e => .error e
  | .ok () =>
      if b.tag ∈ before.map tag then .error (.provider (.duplicate b.tag)) else .ok ()

/-- Judges blueprints in turn, up to the first that offends. -/
def judge (files : Files.Tree) (runtime : Bool) (before : List Blueprint) :
    List Blueprint → Except Fault Unit
  | [] => .ok ()
  | b :: rest =>
      match b.verdict files runtime before with
      | .error e => .error e
      | .ok () => judge files runtime (before ++ [b]) rest

/-- The watcher that a plugin asks for. -/
def watch? : Blueprint → Option Watch.Request
  | rules _ r => r.watch?
  | action _ => none
  | gate r => r.watch?

section Verdicts
variable {files : Files.Tree} {runtime : Bool} {before rest : List Blueprint} {b : Blueprint}

theorem verdict_ok_iff : b.verdict files runtime before = .ok () ↔
    b.construction files runtime before = .ok () ∧ b.tag ∉ before.map tag := by
  unfold verdict
  cases b.construction files runtime before with
  | error e => simp
  | ok _ =>
      by_cases taken : b.tag ∈ before.map tag
      · simp [taken]
      · simp [taken]

theorem judge_ok_iff : judge files runtime before rest = .ok () ↔
    Each (fun mid b => b.verdict files runtime (before ++ mid) = .ok ()) rest := by
  induction rest generalizing before with
  | nil => simp [judge, each_nil]
  | cons b rest ih =>
      rw [judge, each_cons, List.append_nil]
      cases here : b.verdict files runtime before with
      | error e => simp
      | ok _ => simp only [ih, List.append_assoc, List.singleton_append, true_and]

/-- The error is that of the first blueprint that offends. -/
theorem judge_error_iff {e : Fault} : judge files runtime before rest = .error e ↔
    ∃ mid b after, rest = mid ++ b :: after ∧
      Each (fun mid b => b.verdict files runtime (before ++ mid) = .ok ()) mid ∧
      b.verdict files runtime (before ++ mid) = .error e := by
  induction rest generalizing before with
  | nil => simp [judge]
  | cons b rest ih =>
      rw [judge]
      cases here : b.verdict files runtime before with
      | error e' =>
          constructor
          · intro same
            refine ⟨[], b, rest, rfl, each_nil, ?_⟩
            rw [List.append_nil, here]
            exact same
          · intro ⟨mid, x, after, whole, passed, offends⟩
            cases mid with
            | nil =>
                obtain ⟨rfl, -⟩ := List.cons.inj whole
                rwa [List.append_nil, here] at offends
            | cons y mid =>
                obtain ⟨rfl, -⟩ := List.cons.inj whole
                have first := (each_cons.mp passed).1
                rw [List.append_nil, here] at first
                cases first
      | ok _ =>
          dsimp only
          rw [ih]
          constructor
          · intro ⟨mid, x, after, whole, passed, offends⟩
            refine ⟨b :: mid, x, after, by rw [whole]; rfl, each_cons.mpr ⟨?_, ?_⟩, ?_⟩
            · rwa [List.append_nil]
            · simpa only [List.append_assoc, List.singleton_append] using passed
            · simpa only [List.append_assoc, List.singleton_append] using offends
          · intro ⟨mid, x, after, whole, passed, offends⟩
            cases mid with
            | nil =>
                obtain ⟨rfl, -⟩ := List.cons.inj whole
                rw [List.append_nil, here] at offends
                cases offends
            | cons y mid =>
                obtain ⟨rfl, tail⟩ := List.cons.inj whole
                refine ⟨mid, x, after, tail, ?_, ?_⟩
                · simpa only [List.append_assoc, List.singleton_append] using
                    (each_cons.mp passed).2
                · simpa only [List.append_assoc, List.singleton_append] using offends

/-- Tags may refer to sets of the kind that come before. -/
theorem refer_ok_iff (distinct : (before.map tag).Nodup) (k : CompositeKind)
    (tags : List String) : refer k before tags = .ok () ↔
      ∀ tag ∈ tags, ∃ b ∈ before, b.tag = tag ∧ b.offers k = true := by
  have only {b b' : Blueprint} (listed : b ∈ before) (listed' : b' ∈ before)
      (same : b.tag = b'.tag) : b = b' := List.inj_on_of_nodup_map distinct listed listed' same
  induction tags with
  | nil => simp [refer]
  | cons tag tags ih =>
      rw [refer, List.forall_mem_cons, ← propext ih]
      cases linked : k.linked with
      | false =>
          have none (b : Blueprint) : b.offers k = false := by cases b <;> simp [offers, linked]
          simp [none]
      | true =>
          simp only [Bool.true_eq_false, if_false]
          cases found : before.find? (·.tag = tag) with
          | none =>
              have missing := List.find?_eq_none.mp found
              simp only [reduceCtorEq, false_iff, not_and]
              rintro ⟨b, listed, same, -⟩
              exact absurd same (by simpa using missing b listed)
          | some b =>
              have listed := List.mem_of_find?_eq_some found
              have here : b.tag = tag := by simpa using List.find?_some found
              have offers_iff : (∃ b' ∈ before, b'.tag = tag ∧ b'.offers k = true) ↔
                  b.offers k = true := by
                constructor
                · intro ⟨b', listed', same, offers⟩
                  rwa [only listed listed' (here.trans same.symm)]
                · intro offers
                  exact ⟨b, listed, here, offers⟩
              rw [offers_iff]
              cases offered : b.offers k <;> simp [offered]

omit [PatternLanguage] in
theorem loads_eq (files : Files.Tree) (config : Collect.Config) (path : String) :
    (match Collect.Store.load files config path with
      | .error e => .error (.collect e)
      | .ok _ => .ok ()) = loads files path := by
  unfold Collect.Store.load loads
  cases files.readText path with
  | ok content => rfl
  | error cause => cases cause <;> rfl

theorem rules_ok_iff (k : CompositeKind) (r : SetRequest) :
    (rules k r).construction files runtime before = .ok () ↔
      (k.dialect.compile r.source files).isOk = true ∧ refer k before r.sets = .ok () ∧
        watchable files runtime r.watch? = .ok () := by
  rw [construction]
  cases k.dialect.compile r.source files with
  | error e => simp [Except.isOk, Except.toBool]
  | ok table => cases refer k before r.sets <;> simp [Except.isOk, Except.toBool]

theorem action_ok_iff (a : ActionSettings) (config : Collect.Config) :
    (action a).construction files runtime before = .ok () ↔
      a.path ≠ "" ∧ ∃ place, files.canonical a.path = .ok place ∧
        (Collect.Store.load files config place.text).isOk = true := by
  rw [construction, Ne, ← String.isEmpty_iff]
  cases a.path.isEmpty with
  | true => simp
  | false =>
      cases files.canonical a.path with
      | error cause => simp
      | ok place =>
          simp only [Bool.false_eq_true, if_false, not_false_eq_true, true_and,
            Except.ok.injEq, exists_eq_left', ← loads_eq files config]
          cases Collect.Store.load files config place.text <;> simp [Except.isOk, Except.toBool]

theorem gate_ok_iff (r : GateRequest) :
    (gate r).construction files runtime before = .ok () ↔
      (∀ path, r.whitelist = some path → ∃ file, Intel.WhitelistFile.load files path = .ok file ∧
        ∀ ip ∈ file.ips, (AddressRules.network ip).isOk = true) ∧
      watchable files runtime r.watch? = .ok () := by
  rw [construction]
  cases whitelist : r.whitelist with
  | none => simp [GateRequest.watch?, whitelist, watchable]
  | some path =>
      simp only [Option.some.injEq, forall_eq']
      cases Intel.WhitelistFile.load files path with
      | error e => simp
      | ok file =>
          simp only [Except.ok.injEq, exists_eq_left', ← Intel.Whitelist.networks_isOk]
          cases Intel.Whitelist.networks file.ips <;> simp [Except.isOk, Except.toBool]

end Verdicts
end Blueprint

namespace Settings
open Blueprint

/-- What settings have to be like if all watchers can be started. -/
structure Acceptable (c : Settings) (files : Files.Tree) : Prop where
  /-- No two plugins share a tag, whatever their kinds. -/
  distinct : (c.domainSets.map (·.tag) ++ c.addressSets.map (·.tag) ++ c.hosts.map (·.tag) ++
    c.actions.map (·.tag) ++ c.intel.map (·.tag)).Nodup
  domains : ∀ d ∈ c.domainSets,
    (Dialect.domains.compile ⟨d.expressions, d.files⟩ files).isOk = true
  addresses : ∀ a ∈ c.addressSets, (Dialect.addresses.compile ⟨a.ips, a.files⟩ files).isOk = true
  hosts : ∀ h ∈ c.hosts, (Dialect.hosts.compile ⟨h.entries, h.files⟩ files).isOk = true
  /-- Sets refer to sets of their kind that are listed before them. -/
  domainLinks : Each (fun before d => ∀ tag ∈ d.sets, tag ∈ before.map (·.tag)) c.domainSets
  addressLinks : Each (fun before a => ∀ tag ∈ a.sets, tag ∈ before.map (·.tag)) c.addressSets
  actions : ∀ a ∈ c.actions, a.path ≠ "" ∧ ∃ place, files.canonical a.path = .ok place ∧
    (Collect.Store.load files c.collect place.text).isOk = true
  whitelists : ∀ i ∈ c.intel, ∀ path, i.whitelist = some path →
    ∃ file, Intel.WhitelistFile.load files path = .ok file ∧
      ∀ ip ∈ file.ips, (AddressRules.network ip).isOk = true

/-- All watchers that are asked for can be started. -/
def WatchersStart (c : Settings) (files : Files.Tree) (runtime : Bool) : Prop :=
  ∀ b ∈ c.blueprints, watchable files runtime b.watch? = .ok ()

omit [PatternLanguage] in
theorem tags_blueprints (c : Settings) : c.blueprints.map Blueprint.tag =
    c.domainSets.map (·.tag) ++ c.addressSets.map (·.tag) ++ c.hosts.map (·.tag) ++
      c.actions.map (·.tag) ++ c.intel.map (·.tag) := by
  simp only [blueprints, List.map_append, List.map_map]
  rfl

variable {c : Settings} {files : Files.Tree} {runtime : Bool}

/-- The sets that a kind of sets can refer to. -/
theorem refer_iff {k : CompositeKind} (linked : k.linked = true) {α : Type}
    {others : List Blueprint} {pre : List α} {request : α → SetRequest}
    (apart : ∀ b ∈ others, b.offers k = false)
    (distinct : ((others ++ pre.map fun x => rules k (request x)).map Blueprint.tag).Nodup)
    (tags : List String) :
    refer k (others ++ pre.map fun x => rules k (request x)) tags = .ok () ↔
      ∀ tag ∈ tags, tag ∈ pre.map fun x => (request x).tag := by
  rw [refer_ok_iff distinct]
  refine forall₂_congr fun tag _ => ?_
  rw [List.mem_map]
  constructor
  · intro ⟨b, listed, here, offers⟩
    rcases List.mem_append.mp listed with other | own
    · rw [apart b other] at offers
      cases offers
    · obtain ⟨x, member, rfl⟩ := List.mem_map.mp own
      exact ⟨x, member, here⟩
  · intro ⟨x, member, here⟩
    exact ⟨_, List.mem_append_right _ (List.mem_map_of_mem member), here,
      by simp [Blueprint.offers, linked]⟩

/-- Sets can be built if they compile and refer to sets before them. -/
theorem sets_iff {k : CompositeKind} (linked : k.linked = true) {α : Type}
    (others : List Blueprint) (sets : List α) (request : α → SetRequest) {rest : List Blueprint}
    (apart : ∀ b ∈ others, b.offers k = false)
    (distinct : ((others ++ (sets.map fun x => rules k (request x)) ++ rest).map
      Blueprint.tag).Nodup)
    (watched : ∀ x ∈ sets, watchable files runtime (request x).watch? = .ok ()) :
    Each (fun before x => (rules k (request x)).construction files runtime
        (others ++ before.map fun x => rules k (request x)) = .ok ()) sets ↔
      (∀ x ∈ sets, (k.dialect.compile (request x).source files).isOk = true) ∧
        Each (fun before x => ∀ tag ∈ (request x).sets,
          tag ∈ before.map fun x => (request x).tag) sets := by
  rw [← each_const, ← each_and]
  refine each_congr fun before x after whole => ?_
  have earlier : ((others ++ before.map fun x => rules k (request x)).map
      Blueprint.tag).Nodup := by
    have first : (others ++ before.map fun x => rules k (request x)) <+:
        others ++ (sets.map fun x => rules k (request x)) ++ rest := by
      rw [whole, List.map_append, ← List.append_assoc, List.append_assoc]
      exact List.prefix_append _ _
    exact distinct.sublist (first.sublist.map Blueprint.tag)
  rw [rules_ok_iff, refer_iff linked apart earlier, watched x (by simp [whole])]
  simp

/-- Every blueprint can be built after those before it. -/
theorem constructions_iff (distinct : (c.blueprints.map Blueprint.tag).Nodup)
    (watching : c.WatchersStart files runtime) :
    Each (fun before b => b.construction files runtime before = .ok ()) c.blueprints ↔
      (c.Acceptable files) := by
  have tags := distinct
  rw [tags_blueprints] at tags
  have watched (b : Blueprint) (listed : b ∈ c.blueprints) := watching b listed
  unfold blueprints at distinct watched ⊢
  simp only [List.mem_append, List.mem_map] at watched
  have domains := sets_iff (k := .set .domains) rfl [] c.domainSets
    (Host.domainRequest c.reload) (by simp)
    (by simpa only [List.append_assoc, List.nil_append] using distinct)
    fun d listed => watched _ (.inl (.inl (.inl (.inl ⟨d, listed, rfl⟩))))
  have addresses := sets_iff (k := .set .addresses) rfl
    (c.domainSets.map fun d => rules (.set .domains) (Host.domainRequest c.reload d))
    c.addressSets (Host.addressRequest c.reload) (by simp [Blueprint.offers])
    (by simpa only [List.append_assoc] using distinct)
    fun a listed => watched _ (.inl (.inl (.inl (.inr ⟨a, listed, rfl⟩))))
  have tables (front : List HostsSettings → List Blueprint) :
      Each (fun before h => (rules .hosts (Host.hostsRequest c.reload h)).construction files runtime
        (front before) = .ok ()) c.hosts ↔
        ∀ h ∈ c.hosts, (Dialect.hosts.compile ⟨h.entries, h.files⟩ files).isOk = true := by
    refine each_iff_forall fun before h listed => ?_
    have awake := watched _ (.inl (.inl (.inr ⟨h, listed, rfl⟩)))
    rw [rules_ok_iff]
    simp only [Host.hostsRequest, refer, true_and]
    exact and_iff_left awake
  have actions (front : List ActionSettings → List Blueprint) :
      Each (fun before a => (action a).construction files runtime (front before) = .ok ())
        c.actions ↔ ∀ a ∈ c.actions, a.path ≠ "" ∧ ∃ place, files.canonical a.path = .ok place ∧
          (Collect.Store.load files c.collect place.text).isOk = true :=
    each_iff_forall fun _ a _ => action_ok_iff a c.collect
  have gates (front : List IntelSettings → List Blueprint) :
      Each (fun before i => (gate (Host.gateRequest c.reload i)).construction files runtime
        (front before) = .ok ()) c.intel ↔
        ∀ i ∈ c.intel, ∀ path, i.whitelist = some path →
          ∃ file, Intel.WhitelistFile.load files path = .ok file ∧
            ∀ ip ∈ file.ips, (AddressRules.network ip).isOk = true := by
    refine each_iff_forall fun before i listed => ?_
    have awake := watched _ (.inr ⟨i, listed, rfl⟩)
    rw [gate_ok_iff]
    exact and_iff_left awake
  simp only [List.nil_append] at domains
  simp only [each_append, each_map, domains, addresses, tables, actions, gates]
  constructor
  · intro ⟨⟨⟨⟨⟨domains, domainLinks⟩, addresses, addressLinks⟩, hosts⟩, actions⟩, whitelists⟩
    exact ⟨tags, domains, addresses, hosts, domainLinks, addressLinks, actions, whitelists⟩
  · intro fine
    exact ⟨⟨⟨⟨⟨fine.domains, fine.domainLinks⟩, fine.addresses, fine.addressLinks⟩, fine.hosts⟩,
      fine.actions⟩, fine.whitelists⟩

/-- Settings pass exactly if they are acceptable. -/
theorem judge_iff_acceptable (watching : c.WatchersStart files runtime) :
    judge files runtime [] c.blueprints = .ok () ↔ c.Acceptable files := by
  rw [judge_ok_iff]
  simp only [List.nil_append, verdict_ok_iff, each_and]
  have tags : Each (fun before b => b.tag ∉ before.map Blueprint.tag) c.blueprints ↔
      (c.blueprints.map Blueprint.tag).Nodup := by
    rw [nodup_iff_each, each_map]
  rw [tags]
  constructor
  · intro ⟨built, distinct⟩
    exact (constructions_iff distinct watching).mp built
  · intro acceptable
    have distinct : (c.blueprints.map Blueprint.tag).Nodup := by
      rw [tags_blueprints]
      exact acceptable.distinct
    exact ⟨(constructions_iff distinct watching).mpr acceptable, distinct⟩

end Settings
end LiveRules
