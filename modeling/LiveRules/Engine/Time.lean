import LiveRules.Engine.Sets

/-!
# Waiting

While somebody waits, the clock jumps from one deadline of a watcher to the next
one. At a deadline every path that has settled starts one reload.
-/
namespace LiveRules.Engine
variable [PatternLanguage]

/-- Does the job of a watcher. -/
def perform : Job → Act Unit
  | .domainSet set => discard (rebuild domainAccess set true)
  | .addressSet set => discard (rebuild addressAccess set true)
  | .hosts table => discard (rebuild hostAccess table true)
  | .whitelist gate => reloadGate gate
  | .nothing true => return
  | .nothing false => throw (.config "" .emptyReload)

/-- Starts the job of a watcher because a path has settled. -/
def startJob (w : Watch) (id : Nat) (s : Engine) (path : String) : Engine :=
  let (result, s) := s.inBackground (perform w.job)
  let event := match result with
    | .ok _ => LogEvent.note .info .watcher w.watcher.name "reloaded" path
    | .error e => LogEvent.note .error .watcher w.watcher.name
        ("reload failed after " ++ path ++ " changed") e.message
  (s.updateWatch id fun w => { w with runs := w.runs + 1 }).tell
    [{ event with foreground := false }]

/-- Starts what one watcher has due. -/
def settleWatch (s : Engine) (id : Nat) : Engine :=
  match s.watches[id]? with
  | none => s
  | some w =>
      let (ready, watcher) := w.watcher.take s.now
      ready.foldl (startJob w id) (s.updateWatch id fun w => { w with watcher })

/-- Starts everything that is due. -/
def settle (s : Engine) : Engine :=
  (List.range s.watches.length).foldl settleWatch s

/-- The next deadline of any watcher. -/
def deadline? (s : Engine) : Option Nat :=
  (s.watches.filterMap fun w => w.watcher.deadline?).min?

/-- How many paths wait to settle. -/
def unsettled (s : Engine) : Nat :=
  (s.watches.map fun w => w.watcher.debouncer.pending.length).foldl (· + ·) 0

/-- Asks again and again until the answer is wanted or `limit` is reached. -/
def pollUntil {α : Type} (ask : Engine → α × Engine) (wanted : α → Bool) (limit : Nat)
    (s : Engine) : (fuel : Nat) → α × Engine
  | 0 => ask s
  | fuel + 1 =>
      let (a, asked) := ask s
      if wanted a then (a, asked)
      else match asked.deadline? with
        | some t =>
            if t ≤ limit then
              pollUntil ask wanted limit ({ asked with now := max asked.now t }.settle) fuel
            else (a, { asked with now := max asked.now limit })
        | none => (a, { asked with now := max asked.now limit })

/-- How long waiting for an answer lasts at most, in milliseconds. -/
def patience : Nat := 3000

/-- Asks until the answer is wanted, as long as patience lasts. -/
def await {α : Type} (s : Engine) (ask : Engine → α × Engine) (wanted : α → Bool) :
    α × Engine :=
  pollUntil ask wanted (s.now + patience) s (s.unsettled + 1)

/-- Lets time pass. -/
def pass (s : Engine) (time : Nat) : Engine :=
  (pollUntil (fun s => ((), s)) (fun _ => false) (s.now + time) s (s.unsettled + 1)).2

end LiveRules.Engine
