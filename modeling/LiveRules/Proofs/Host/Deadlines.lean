import LiveRules.Pattern.Parser
import LiveRules.Proofs.Engine.Timing
import LiveRules.Proofs.Host.Judging
import LiveRules.Proofs.Host.Shelves
import LiveRules.Proofs.Host.Turns
import LiveRules.Proofs.Settings.Words
import Mathlib

/-!
# Deadlines of a host

The gates of a host keep verdicts for as many seconds as its settings say, and its watchers
wait for as many milliseconds, as long as it lives. Milliseconds of 64 bits never lead past the
last reading of a clock that is in the first half of its readings, but seconds of 64 bits do:
a gate with such a lifetime ends the program with the first verdict that it has to cache.
-/
namespace LiveRules
open Engine

section
variable [PatternLanguage]

namespace Blueprint

/-- The lifetime of the gate that is built. -/
def lifetimes : Blueprint → List (String × Nat)
  | rules _ _ | action _ => []
  | gate r => [(r.tag, r.ttl)]

/-- The window of the watcher that is started. -/
def windows (b : Blueprint) : List Nat := (b.watch?.map (·.debounce)).toList

end Blueprint

namespace Engine

/-- There are some more gates and watchers, which have noted nothing. -/
structure Adds (s : Engine) (lifetimes : List (String × Nat)) (windows : List Nat)
    (s' : Engine) : Prop where
  lifetimes : s'.lifetimes = s.lifetimes ++ lifetimes
  windows : s'.windows = s.windows ++ windows
  past : s.Past → s'.Past

namespace Adds
variable {s s' s'' : Engine} {l l' : List (String × Nat)} {w w' : List Nat}

theorem of_ticks (ticks : Ticks s s') : Adds s [] [] s' where
  lifetimes := by rw [ticks.lifetimes, List.append_nil]
  windows := by rw [ticks.windows, List.append_nil]
  past := ticks.past

theorem trans (first : Adds s l w s') (second : Adds s' l' w' s'') :
    Adds s (l ++ l') (w ++ w') s'' where
  lifetimes := by rw [second.lifetimes, first.lifetimes, List.append_assoc]
  windows := by rw [second.windows, first.windows, List.append_assoc]
  past := fun past => second.past (first.past past)

theorem gate (s : Engine) (g : Intel.Gate) :
    Adds s [g.lifetime] [] { s with gates := s.gates ++ [g] } where
  lifetimes := List.map_append
  windows := (List.append_nil _).symm
  past := id

end Adds

omit [PatternLanguage] in
theorem debouncer_start {files : Files.Tree} {r : Watch.Request} {events : List LogEvent}
    {watcher : Watch.Watcher} (started : Watch.Watcher.start files r = (events, .ok watcher)) :
    watcher.debouncer = ⟨r.debounce, []⟩ := by
  unfold Watch.Watcher.start at started
  split at started
  · cases started
  · split at started
    · cases started
    · split at started <;> cases started
      rfl

theorem Starts.adds {s s' : Engine} {job : Job} {asked : Option Watch.Request}
    {watch : Option Nat} (starts : Starts s job asked watch s') :
    Adds s [] (asked.map (·.debounce)).toList s' := by
  cases starts with
  | none => exact .of_ticks (.refl s)
  | @some r events watcher runtime started =>
      have debouncer := debouncer_start started
      refine ⟨(List.append_nil _).symm, ?_, fun past w listed => ?_⟩
      · change (s.watches ++ [({ watcher, job } : Watch)]).map _ = _
        rw [List.map_append]
        simp only [List.map_cons, List.map_nil, debouncer]
        rfl
      · rcases List.mem_append.mp listed with old | new
        · exact past w old
        · obtain rfl := List.mem_singleton.mp new
          dsimp only
          rw [debouncer]
          exact nofun

end Engine

namespace Blueprint
variable {s s' : Engine} {b : Blueprint} {p : Provider}

theorem Makes.adds (makes : b.Makes s p s') : Adds s b.lifetimes b.windows s' := by
  cases makes with
  | @rules k r table refs event watch s' compiled resolved starts =>
      have published : Ticks s ((s.withComposites k (s.published k r table refs)).tell [event]) := by
        rcases k with (_ | _) | _ <;> exact .of_eq (Nat.le_refl _) rfl rfl
      exact (Adds.of_ticks published).trans starts.adds
  | action got => exact .of_ticks (.of_eq (Nat.le_refl _) rfl rfl)
  | @gate r g events watch s' loaded starts =>
      have same : g.lifetime = (r.tag, r.ttl) := Intel.Gate.lifetime_reload loaded
      have made := ((Adds.gate s g).trans (.of_ticks (.tell _ events))).trans starts.adds
      rw [same] at made
      exact made

theorem ticks_enlist (s : Engine) (p : Provider) : Ticks s (enlist s p) :=
  .of_eq (Nat.le_refl _) rfl rfl

end Blueprint

/-- A build that comes to its end has added what it was asked for. -/
theorem Engine.Builds.adds {h h' : Host} {s s' : Engine} {bs : List Blueprint}
    {result : Except Fault Unit} (builds : Builds h s bs result h' s') (ends : result = .ok ()) :
    Adds s (bs.flatMap Blueprint.lifetimes) (bs.flatMap Blueprint.windows) s' := by
  induction builds with
  | done => exact .of_ticks (.refl _)
  | unbuilt refused unbuilt => cases ends
  | dismissed able makes taken => cases ends
  | @enlisted h h' s s' s'' b rest p result able makes free others ih =>
      have enlisted := makes.adds.trans (.of_ticks (Blueprint.ticks_enlist s' p))
      rw [List.append_nil, List.append_nil] at enlisted
      exact enlisted.trans (ih ends)

namespace Blueprint

omit [PatternLanguage] in
theorem mem_windows {b : Blueprint} {window : Nat} :
    window ∈ b.windows ↔ ∃ asked, b.watch? = some asked ∧ asked.debounce = window := by
  simp [windows]

omit [PatternLanguage] in
theorem eq_of_mem_windows_rules {k : CompositeKind} {r : SetRequest} {window : Nat}
    (listed : window ∈ (rules k r).windows) : window = r.debounce := by
  obtain ⟨asked, asks, rfl⟩ := mem_windows.mp listed
  have asks : r.watch? = some asked := asks
  unfold SetRequest.watch? at asks
  split at asks <;> cases asks
  rfl

omit [PatternLanguage] in
theorem eq_of_mem_windows_gate {r : GateRequest} {window : Nat}
    (listed : window ∈ (gate r).windows) : window = r.debounce := by
  obtain ⟨asked, asks, rfl⟩ := mem_windows.mp listed
  have asks : r.watch? = some asked := asks
  unfold GateRequest.watch? at asks
  split at asks
  · cases asks
  · split at asks <;> cases asks
    rfl

end Blueprint

namespace Settings
variable {c : Settings}

omit [PatternLanguage] in
theorem lifetimes_blueprints (c : Settings) :
    c.blueprints.flatMap Blueprint.lifetimes = c.intel.map fun i => (i.tag, i.ttl * 1000) := by
  have none {α : Type} (items : List α) :
      (items.flatMap fun _ => ([] : List (String × Nat))) = [] :=
    List.flatMap_eq_nil_iff.mpr fun _ _ => rfl
  simp only [blueprints, List.flatMap_append, List.flatMap_map, Blueprint.lifetimes, none,
    List.nil_append]
  exact List.map_eq_flatMap.symm

omit [PatternLanguage] in
/-- Every watcher of a host waits for a word of milliseconds. -/
theorem Words.windows (words : c.Words) {window : Nat}
    (listed : window ∈ c.blueprints.flatMap Blueprint.windows) : window < 2 ^ 64 := by
  have own {o : Option Nat} (small : ∀ ms ∈ o, ms < 2 ^ 64) : c.reload.debounceFor o < 2 ^ 64 := by
    cases o with
    | none => exact words.reload
    | some ms => exact small ms rfl
  obtain ⟨b, planned, listed⟩ := List.mem_flatMap.mp listed
  simp only [blueprints, List.mem_append, List.mem_map] at planned
  rcases planned with (((⟨d, there, rfl⟩ | ⟨a, there, rfl⟩) | ⟨h, there, rfl⟩) |
    ⟨a, there, rfl⟩) | ⟨i, there, rfl⟩
  · rw [Blueprint.eq_of_mem_windows_rules listed]
    exact own (words.domainSets d there)
  · rw [Blueprint.eq_of_mem_windows_rules listed]
    exact own (words.addressSets a there)
  · rw [Blueprint.eq_of_mem_windows_rules listed]
    exact words.reload
  · cases listed
  · rw [Blueprint.eq_of_mem_windows_gate listed]
    exact words.reload

end Settings

namespace Host

variable {h : Host} {s s' : Engine}

theorem ticks_runAction (s : Engine) (a : Collect.Action) (name : String) :
    Ticks s (runAction s a name).2 := ticks_atDesk s fun d => a.run d name

theorem ticks_ask (h : Host) (known : List (String × Bool)) (tag key : String) (s : Engine) :
    Ticks s (h.ask known tag key s).2 := by
  rcases h.ask_cases s known tag key with same | ⟨g, same⟩ | ⟨a, same⟩ <;> rw [same]
  · exact .refl s
  · exact ticks_checkGate s g (Intel.staticReply known) [key]
  · exact ticks_runAction s a key

theorem ticks_collect (h : Host) (tag name : String) (s : Engine) :
    Ticks s (h.collect tag name s).2 := by
  rcases h.collect_cases s tag name with same | ⟨a, same⟩ <;> rw [same]
  · exact .refl s
  · exact ticks_runAction s a name

theorem ticks_close (h : Host) (s : Engine) : Ticks s (h.close s) :=
  (Ticks.foldl ticks_closeProvider h.closingOrder s).trans (ticks_closeAll _)

theorem Turn.ticks (turn : h.Turn s s') : Ticks s s' := by
  cases turn with
  | edit change => exact ticks_changeFiles s change
  | ask known tag key => exact h.ticks_ask known tag key s
  | collect tag name => exact h.ticks_collect tag name s
  | check id lookup indicators => exact ticks_checkGate s id lookup indicators
  | rebuild k id reloading => exact ticks_rebuild s k id reloading
  | reload id => exact ticks_reloadGate s id
  | pass time => exact clockwork_ticks.pass s time
  | close => exact h.ticks_close s

theorem Life.ticks (life : h.Life s s') : Ticks s s' := by
  induction life with
  | refl => exact .refl s
  | tail _ turn ih => exact ih.trans turn.ticks

/-- What a host is built with. -/
theorem adds_of_build {c : Settings} (built : (build c s).1 = .ok h) :
    Adds s (c.intel.map fun i => (i.tag, i.ttl * 1000)) (c.blueprints.flatMap Blueprint.windows)
      (build c s).2 := by
  obtain ⟨result, h', made, builds, outcome⟩ := build_cases c s
  rw [outcome] at built ⊢
  cases result with
  | error e => cases built
  | ok _ =>
      have begun : Ticks s (s.beginning c) := .of_eq (Nat.le_refl _) rfl rfl
      have added := ((Adds.of_ticks begun).trans (builds.adds rfl)).trans
        (.of_ticks (.tell made [ready made]))
      rw [c.lifetimes_blueprints, List.nil_append, List.nil_append, List.append_nil,
        List.append_nil] at added
      exact added

/-- Settings that are loaded have words of 64 bits only. With such settings, however a host has
lived: while the clock is in the first half of its readings, it reads the next deadline of every
watcher. It reads the time when a verdict expires unless the lifetime of
the gate, in seconds, leads past its last reading. In that case each check that has a verdict to
cache ends the program. All other checks are made. -/
theorem deadlines_read {c : Settings} (words : c.Words) {s : Engine} (gates : s.gates = [])
    (watches : s.watches = []) {h : Host} (built : (build c s).1 = .ok h) {e : Engine}
    (life : h.Life (build c s).2 e) {start reading : Instant}
    (reads : start.later? e.now = some reading) (early : reading.seconds.toInt ≤ 2 ^ 62) :
    (∀ files env path loaded, Settings.load files env path = .ok loaded → loaded.Words) ∧
    (∀ w ∈ e.watches, (w.watcher.debouncer.nextReading? start).isSome = true) ∧
    e.lifetimes = c.intel.map (fun i => (i.tag, i.ttl * 1000)) ∧
    ∀ id i, c.intel[id]? = some i → ∀ lookup indicators,
      e.checkGate? start id lookup indicators =
        if Intel.gained lookup (e.checkGate id lookup indicators).2.1 = [] ∨
            reading.seconds.toInt + i.ttl < 2 ^ 63 then
          some (e.checkGate id lookup indicators)
        else none := by
  have added := adds_of_build built
  have ticks := life.ticks
  have lifetimes : e.lifetimes = c.intel.map fun i => (i.tag, i.ttl * 1000) := by
    rw [ticks.lifetimes, added.lifetimes, Engine.lifetimes, gates]
    rfl
  have windows : e.windows = c.blueprints.flatMap Blueprint.windows := by
    rw [ticks.windows, added.windows, Engine.windows, watches]
    rfl
  have past : e.Past := by
    have nothing : s.Past := by simp [Engine.Past, watches]
    exact ticks.past (added.past nothing)
  refine ⟨fun _ _ _ _ => Settings.words_of_load, fun w listed => ?_, lifetimes,
    fun id i there lookup indicators => ?_⟩
  · have listed' : w.watcher.debouncer.window ∈ e.windows := List.mem_map_of_mem listed
    rw [windows] at listed'
    exact Watch.Debouncer.isSome_nextReading? (past w listed) (words.windows listed') reads early
  · have kept : e.lifetimes[id]? = some (i.tag, i.ttl * 1000) := by
      rw [lifetimes, List.getElem?_map, there]
      rfl
    exact checkGate?_seconds kept reads lookup indicators

end Host
end

namespace Host
open scoped Pattern

/-- Two gates, of which the first is to keep verdicts for ever and watches its whitelist. -/
def forever : Settings where
  reload := { debounce := 2 ^ 64 - 1 }
  intel := [{ tag := "mail", ttl := 2 ^ 64 - 1, whitelist := some "/w" },
    { tag := "web", ttl := 2 ^ 62 }]

/-- An engine whose files are an empty whitelist. -/
def blank : Engine where
  files := { nodes := [(["w"], .file (.text ""))] }

/-- The host of these settings ten seconds after its whitelist was written again. -/
def waited : Engine :=
  ((build forever blank).2.changeFiles fun files => files.write "/w" (.text "")).2.pass 10000

/-- The first gate, which has cached nothing yet. -/
def mail : Intel.Gate where
  tag := "mail"
  file := some "/w"
  cache := { ttl := (2 ^ 64 - 1) * 1000 }

/-- The second gate. -/
def web : Intel.Gate where
  tag := "web"
  cache := { ttl := 2 ^ 62 * 1000 }

/-- The verdict of a name that is known to be malicious. -/
def blames : List String → Intel.LookupReply := Intel.staticReply [("bad.test", true)]

/-- The watcher waits for the longest time that there is. The first gate ends the program when
it hears of the name, the second one blocks it. -/
theorem deadlines_read_forever :
    forever.Words ∧ blank.gates = [] ∧ blank.watches = [] ∧
    ∃ h, (build forever blank).1 = .ok h ∧ h.Life (build forever blank).2 waited ∧
    ∃ start reading : Instant, start.later? waited.now = some reading ∧
      reading.seconds.toInt ≤ 2 ^ 62 ∧
      waited.watches.map (·.watcher.debouncer) = [⟨2 ^ 64 - 1, [("/w", 0)]⟩] ∧
      (∀ w ∈ waited.watches, (w.watcher.debouncer.nextReading? start).isSome = true) ∧
      waited.checkGate? start 0 blames ["bad.test"] = none ∧
      (waited.checkGate? start 1 blames ["bad.test"]).map Prod.fst = some (.block "bad.test") := by
  have words : forever.Words := ⟨by decide, by decide, by decide, by decide⟩
  have succeeds : (build forever blank).1.isOk = true := by cbv
  obtain ⟨h, built⟩ := exists_ok_of_isOk succeeds
  have life : h.Life (build forever blank).2 waited :=
    .tail (.single (.edit fun files => files.write "/w" (.text ""))) (.pass 10000)
  have reads : ({ seconds := 86400 } : Instant).later? waited.now = some { seconds := 86410 } := by
    cbv
  have early : ({ seconds := 86410 } : Instant).seconds.toInt ≤ 2 ^ 62 := by decide
  obtain ⟨-, waits, -, checks⟩ := deadlines_read words rfl rfl built life reads early
  have noted : waited.watches.map (·.watcher.debouncer) = [⟨2 ^ 64 - 1, [("/w", 0)]⟩] := by cbv
  have now : waited.now = 10000 := by cbv
  have gates : waited.gates = [mail, web] := by cbv
  have gains : Intel.gained blames (waited.checkGate 0 blames ["bad.test"]).2.1 ≠ [] := by
    rw [checkGate, gates, now]
    change Intel.gained blames (mail.check 10000 blames ["bad.test"]).2.1 ≠ []
    decide +kernel
  have blocks : (waited.checkGate 1 blames ["bad.test"]).1 = .block "bad.test" := by
    rw [checkGate, gates, now]
    change (web.check 10000 blames ["bad.test"]).1 = .block "bad.test"
    decide +kernel
  refine ⟨words, rfl, rfl, h, built, life, _, _, reads, early, noted, waits, ?_, ?_⟩
  · rw [checks 0 ⟨"mail", some "/w", 2 ^ 64 - 1, true⟩ rfl, if_neg]
    rintro (nothing | fits)
    · exact gains nothing
    · exact absurd fits (by decide)
  · rw [checks 1 ⟨"web", none, 2 ^ 62, true⟩ rfl, if_pos (.inr (by decide)), Option.map_some, blocks]

end Host
end LiveRules
