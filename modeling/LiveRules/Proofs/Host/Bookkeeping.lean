import LiveRules.Proofs.Collect.Executing
import LiveRules.Proofs.Engine.Background
import LiveRules.Proofs.Host.Closing
import LiveRules.Proofs.Host.Turns

/-!
# What stores write while a host lives and when it is closed

Beside the engine there is an account of every store that has come since some time. While a
host lives, its stores work, and files are edited, sets are reloaded and watchers run. None
of this takes anything out of the hands of its plugins. When the host is closed, stores carry
out what was handed in, and nothing is handed in any more.
-/
namespace LiveRules
open Engine
variable [PatternLanguage]

/-- An engine with the accounts of its stores, by number. -/
structure Books where
  engine : Engine
  accounts : Nat → Collect.Account := fun _ => {}

namespace Books

/-- A store makes moves in turn, and its account is kept. -/
inductive Works (b : Books) (id : Nat) (ms : List Collect.Move) : Books → Prop
  | moves {st : Collect.Store} {r : Collect.Running} {h : Collect.History}
      (there : b.engine.collect.stores[id]? = some st)
      (followed : Collect.follow (b.engine.desk.running st) (b.accounts id).history ms =
        some (r, h)) :
      Works b id ms
        ⟨(b.engine.atDesk fun d => ((), d.put id r)).2,
          Function.update b.accounts id ⟨h, (b.accounts id).told ++ r.events⟩⟩

/-- What can happen while nothing is closed. -/
inductive Lives (b : Books) : Books → Prop
  | works {id : Nat} {ms : List Collect.Move} {b' : Books} (others : ∀ m ∈ ms, m ≠ .close)
      (works : b.Works id ms b') : Lives b b'
  | beside {s : Engine} (aside : Undisturbed b.engine s) : Lives b { b with engine := s }

/-- What happens when a host is closed. -/
inductive Closes (b : Books) : Books → Prop
  | works {id : Nat} {ms : List Collect.Move} {b' : Books}
      (background : ∀ m ∈ ms, m ∈ Collect.Running.eager) (works : b.Works id (.close :: ms) b') :
      Closes b b'
  | beside {s : Engine} (files : s.files = b.engine.files)
      (stores : s.collect.stores = b.engine.collect.stores)
      (journal : b.engine.journal <+: s.journal) : Closes b { b with engine := s }

/-- The accounts of the stores from number `first` on are right, and the journal has what
they tell. -/
def Right (first : Nat) (b : Books) : Prop :=
  ∀ id, first ≤ id → ∀ st, b.engine.collect.stores[id]? = some st →
    (b.accounts id).Right st ∧ (b.accounts id).told.Sublist b.engine.journal

variable {b b' : Books} {first : Nat}

theorem Works.right {id : Nat} {ms : List Collect.Move} (works : b.Works id ms b')
    (right : b.Right first) : b'.Right first := by
  cases works with
  | @moves st r h there followed =>
      intro id' new st' there'
      have told : b.engine.journal <+: b.engine.journal ++ r.events := List.prefix_append _ _
      rcases Lists.getElem?_set_cases there' with ⟨rfl, rfl⟩ | ⟨other, there'⟩
      · have ⟨account, journal⟩ := right id' new st there
        simp only [Function.update_self]
        exact ⟨account.work (r := b.engine.desk.running st) rfl followed,
          journal.append (List.Sublist.refl _)⟩
      · have ⟨account, journal⟩ := right id' new st' there'
        simp only [Function.update_of_ne other]
        exact ⟨account, journal.trans told.sublist⟩

theorem Right.beside {s : Engine} (right : b.Right first)
    (stores : s.collect.stores = b.engine.collect.stores)
    (journal : b.engine.journal <+: s.journal) : Right first { b with engine := s } := by
  intro id new st there
  have ⟨account, told⟩ := right id new st (stores ▸ there)
  exact ⟨account, told.trans journal.sublist⟩

theorem Lives.right (lives : b.Lives b') (right : b.Right first) : b'.Right first := by
  cases lives with
  | works others works => exact works.right right
  | beside aside => exact right.beside (by rw [aside.collect]) aside.journal

theorem Closes.right (closes : b.Closes b') (right : b.Right first) : b'.Right first := by
  cases closes with
  | works background works => exact works.right right
  | beside files stores journal => exact right.beside stores journal

/-- Closing hands nothing in. -/
theorem Closes.proceeds (closes : b.Closes b') (id : Nat) :
    List.Forall₂ Collect.Proceeds (b.accounts id).history.submissions
      (b'.accounts id).history.submissions := by
  cases closes with
  | @works id' ms _ background works =>
      cases works with
      | @moves st r h there followed =>
          by_cases same : id = id'
          · subst same
            simp only [Function.update_self]
            refine Collect.proceeds_follow (fun m listed => ?_) followed
            rcases List.mem_cons.mp listed with rfl | listed
            · rfl
            · exact Collect.Move.background_of_eager (background m listed)
          · simp only [Function.update_of_ne same]
            exact List.forall₂_refl _
  | beside => exact List.forall₂_refl _

end Books

namespace Host.Tends
variable {h : Host} {before s : Engine} {ids : List Nat}

theorem undisturbed {s' : Engine} (tends : h.Tends before s ids) (aside : Undisturbed s s') :
    h.Tends before s' ids where
  tended := tends.tended.frame (List.Subset.refl _) aside.collect
    (fun there => by rwa [aside.providers])
    fun i w there opened => .inl (aside.watches i w there opened)
  within := tends.within
  employed := fun id listed => (tends.employed id listed).of_providers aside.providers
  registered := by
    rw [aside.registry]
    exact tends.registered

/-- A store that works stays in the same hands. -/
theorem put {id : Nat} {st : Collect.Store} {r : Collect.Running} (tends : h.Tends before s ids)
    (there : s.collect.stores[id]? = some st) (alike : st.Alike r.store) :
    h.Tends before (s.atDesk fun d => ((), d.put id r)).2 ids where
  tended := by
    have tended := tends.tended
    have owned := tended.owned.frame (.put (d := s.desk) there alike)
    refine ⟨owned.of_registry rfl, tended.handles, fun i w new present opened => ?_,
      fun id' new inside => ?_⟩
    · have ⟨old, present, opened⟩ := Tended.exists_observed (s := { s with
        collect := (s.desk.put id r).registry, files := r.files }) present opened
      exact tended.watches i old new present opened
    · have same : (s.desk.put id r).registry.stores.length = s.collect.stores.length :=
        List.length_set
      exact tended.stores id' new (same ▸ inside)
  within := tends.within
  employed := tends.employed
  registered := tends.registered

end Host.Tends

namespace Books
variable {b b' : Books} {h : Host} {before : Engine} {ids : List Nat}

/-- Whatever happens while nothing is closed stays in the hands of the plugins. -/
theorem Lives.tends (lives : b.Lives b') (tends : h.Tends before b.engine ids) :
    h.Tends before b'.engine ids ∧ b'.engine.registry = b.engine.registry := by
  cases lives with
  | works others works =>
      cases works with
      | moves there followed => exact ⟨tends.put there (Collect.alike_follow others followed), rfl⟩
  | beside aside => exact ⟨tends.undisturbed aside, aside.registry⟩

/-! ## The calls of a host -/

theorem undisturbed_changeFiles (s : Engine)
    (change : Files.Tree → Except Files.ReadError (Files.Tree × List Files.Change)) :
    Undisturbed s (s.changeFiles change).2 := by
  unfold changeFiles
  split
  · rename_i files changes _
    exact ⟨rfl, rfl, rfl, fun i w' there opened =>
      Tended.exists_observed (s := { s with files }) there opened, List.prefix_refl _⟩
  · exact .refl s

/-- Collecting a name has one store work. -/
theorem lives_run (b : Books) (a : Collect.Action) (name : String) :
    ∃ accounts, Relation.ReflTransGen Lives b
      ⟨(b.engine.atDesk fun d => a.run d name).2, accounts⟩ := by
  have idle (unchanged : (a.run b.engine.desk name).2 = b.engine.desk) :
      (b.engine.atDesk fun d => a.run d name).2 = b.engine := by
    rw [atDesk_eq (by rw [unchanged]; rfl) (by rw [unchanged]; rfl), unchanged]
    exact tell_nil _
  cases given : b.engine.collect.handles[a.handle]? with
  | none =>
      rw [idle (Collect.Action.run_unlent given name)]
      exact ⟨b.accounts, .refl⟩
  | some handle =>
      cases there : b.engine.collect.stores[handle.store]? with
      | none =>
          rw [idle (Collect.Action.run_missing given there name)]
          exact ⟨b.accounts, .refl⟩
      | some st =>
          obtain ⟨ms, r, history, followed, others, executed⟩ :=
            Collect.Action.run_follow (d := b.engine.desk) given there name
              (b.accounts handle.store).history
          have same : (b.engine.atDesk fun d => a.run d name).2 =
              (b.engine.atDesk fun d => ((), d.put handle.store r)).2 := by
            change (atDesk b.engine fun _ => ((), (a.run b.engine.desk name).2)).2 = _
            rw [executed]
            rfl
          rw [same]
          exact ⟨_, .single (.works others (.moves there followed))⟩

/-- Whatever is done with a host, its stores work or its plugins are left alone, unless it is
closed. -/
theorem lives_turn {h : Host} {s : Engine} (b : Books) (turn : h.Turn b.engine s) :
    s = h.close b.engine ∨
      ∃ accounts, Relation.ReflTransGen Lives b ⟨s, accounts⟩ := by
  have beside {s : Engine} (aside : Undisturbed b.engine s) :
      ∃ accounts, Relation.ReflTransGen Lives b ⟨s, accounts⟩ :=
    ⟨b.accounts, .single (.beside aside)⟩
  cases turn with
  | edit change => exact .inr (beside (undisturbed_changeFiles b.engine change))
  | ask known tag key =>
      rcases h.ask_cases b.engine known tag key with same | ⟨g, same⟩ | ⟨a, same⟩ <;> rw [same]
      · exact .inr (beside (.refl b.engine))
      · exact .inr (beside (beside_checkGate b.engine g _ [key]).toUndisturbed)
      · exact .inr (lives_run b a key)
  | collect tag name =>
      rcases h.collect_cases b.engine tag name with same | ⟨a, same⟩ <;> rw [same]
      · exact .inr (beside (.refl b.engine))
      · exact .inr (lives_run b a name)
  | check id lookup indicators =>
      exact .inr (beside (beside_checkGate b.engine id lookup indicators).toUndisturbed)
  | rebuild k id reloading => exact .inr (beside (undisturbed_rebuild b.engine k id reloading))
  | reload id => exact .inr (beside (beside_reloadGate b.engine id).toUndisturbed)
  | pass time => exact .inr (beside (covers_undisturbed.pass b.engine time))
  | close => exact .inl rfl

/-! ## Closing by moves of stores -/

/-- The release of a handle closes a store and has it carry out its writes, or no store does
anything. -/
theorem closes_release (b : Books) (owned : b.engine.desk.Owned) {handle : Nat}
    {d : Collect.Desk} (releases : b.engine.desk.Releases handle d) :
    ∃ accounts, Relation.ReflTransGen Closes b
      ⟨(b.engine.atDesk fun _ => ((), d)).2, accounts⟩ := by
  cases releases with
  | again | one =>
      refine ⟨b.accounts, .single (.beside rfl rfl ?_)⟩
      exact List.prefix_append _ _
  | @last e st member held only there =>
      have ⟨st', there', _, accepted⟩ := owned.registered e member
      obtain rfl := Option.some.inj (there.symm.trans there')
      have ⟨ms, r, history, followed, background, shut, _⟩ := Collect.shutdown_eager
        (r := b.engine.desk.running st) (b.accounts e.store).history accepted
      have worked : b.Works e.store (.close :: ms) _ := .moves there followed
      have first : Closes b _ := .works background worked
      rw [shut]
      refine ⟨_, .tail (.single first) (.beside rfl rfl ?_)⟩
      refine ⟨[Collect.Store.tell .info ("closed: " ++ st.path)], ?_⟩
      exact List.append_assoc b.engine.journal r.events _

theorem closes_closeProvider (b : Books) (owned : b.engine.desk.Owned) {id : Nat}
    (employed : Employed before b.engine id) :
    ∃ accounts, Relation.ReflTransGen Closes b ⟨b.engine.closeProvider id, accounts⟩ := by
  rcases closeProvider_cases employed with ⟨_, watches, events, same⟩ | ⟨p, action, _, _, same⟩
  · rw [same]
    exact ⟨b.accounts, .single (.beside rfl rfl (List.prefix_append _ _))⟩
  · rw [same]
    exact b.closes_release owned (owned.releases_release action.handle)

theorem closes_closeProviders {closing : List Nat} (tended : Tended before b.engine ids)
    (employed : ∀ id ∈ closing, Employed before b.engine id)
    (returns : b.engine.AllReturn closing) :
    ∃ accounts, Relation.ReflTransGen Closes b
      ⟨closing.foldl closeProvider b.engine, accounts⟩ := by
  induction closing generalizing b ids with
  | nil => exact ⟨b.accounts, .refl⟩
  | cons id closing ih =>
      have first := employed id List.mem_cons_self
      have ⟨accounts, closed⟩ := b.closes_closeProvider tended.owned first
      have ⟨providers, _⟩ := employed_closeProvider first
      have ⟨accounts', others⟩ := ih (b := ⟨b.engine.closeProvider id, accounts⟩)
        (tended.closeProvider first returns.1)
        (fun id' listed => (employed id' (List.mem_cons_of_mem _ listed)).of_providers providers)
        returns.2
      exact ⟨accounts', closed.trans others⟩

/-- A host is closed by moves of its stores. -/
theorem closes_close (tends : h.Tends before b.engine ids)
    (returns : b.engine.AllReturn h.closingOrder) :
    ∃ accounts, Relation.ReflTransGen Closes b ⟨h.close b.engine, accounts⟩ := by
  have ⟨same, _⟩ := tends.close_eq returns
  have ⟨accounts, closed⟩ := closes_closeProviders tends.tended tends.employed returns
  rw [same]
  exact ⟨accounts, closed.tail (.beside rfl rfl (List.prefix_refl _))⟩

/-- What was on its way to a file when a host was closed. -/
theorem settled {first : Nat} (right : b.Right first)
    (closed : Relation.ReflTransGen Closes b b') {id : Nat} (new : first ≤ id)
    {st : Collect.Store} (there : b'.engine.collect.stores[id]? = some st)
    (ended : st.writerEnded = true) :
    (b.accounts id).Settles (b'.accounts id) st ∧
      (b'.accounts id).told.Sublist b'.engine.journal := by
  have both : b'.Right first ∧ List.Forall₂ Collect.Proceeds
      (b.accounts id).history.submissions (b'.accounts id).history.submissions := by
    clear there
    induction closed with
    | refl => exact ⟨right, List.forall₂_refl _⟩
    | tail _ step ih =>
        exact ⟨step.right ih.1, Lists.forall₂_trans (R := Collect.Proceeds) .trans ih.2
          (step.proceeds id)⟩
  have ⟨account, told⟩ := both.1 id new st there
  exact ⟨account.settles ended both.2, told⟩

end Books
end LiveRules
