import LiveRules.Intel.Cache
import LiveRules.Intel.Whitelist
import LiveRules.Journal
import LiveRules.Text.Inspect

/-!
# Intel gates

A gate decides whether indicators may pass. Whitelisted ones always do. Of the
rest, those with a cached verdict are decided by it; the others are looked up in
one batch, and what the lookup answers is cached.
-/
namespace LiveRules.Intel

/-- What a lookup answers for a batch: names with verdicts in some order, no
verdict at all, or why it failed. -/
inductive LookupReply where
  | verdicts (results : List (String × Bool))
  | unknown
  | failed (reason : String)
  deriving DecidableEq, Repr

/-- Verdicts that are known beforehand; without any, no lookup has a verdict. -/
def staticReply (known : List (String × Bool)) (batch : List String) : LookupReply :=
  if known.isEmpty then .unknown
  else .verdicts (batch.filterMap fun ioc => (known.lookup ioc).map (ioc, ·))

inductive Verdict where
  | block (indicator : String)
  | pass
  deriving DecidableEq, Repr

structure Gate where
  tag : String
  /-- The file that the whitelist is read from. -/
  file : Option String := none
  whitelist : Whitelist := {}
  cache : VerdictCache
  deriving DecidableEq, Repr

namespace Gate

/-- How far the indicators decide without a lookup. -/
inductive Screening where
  | blocked (indicator : String)
  /-- Sorted, without repetitions. -/
  | undecided (batch : List String)
  deriving DecidableEq, Repr

/-- Inserts into a sorted list unless it is there. -/
def insertSorted (s : String) : List String → List String
  | [] => [s]
  | t :: ts => if s = t then t :: ts else if s < t then s :: t :: ts else t :: insertSorted s ts

/-- Goes through indicators in order; stops at one that is known to be
malicious. -/
def screen (g : Gate) (now : Nat) (batch : List String) : List String → Screening × Gate
  | [] => (.undecided batch, g)
  | indicator :: rest =>
      let name := normalize indicator
      if name.isEmpty || g.whitelist.contains name then screen g now batch rest
      else
        let (verdict, cache) := g.cache.get now name
        let g := { g with cache }
        match verdict with
        | some true => (.blocked name, g)
        | some false => screen g now batch rest
        | none => screen g now (insertSorted name batch) rest

/-- The verdict that answers give for a name in normal form; of several the last
counts. -/
def verdictOf (results : List (String × Bool)) (name : String) : Option Bool :=
  (results.reverse.find? fun r => normalize r.1 = name).map (·.2)

/-- Caches what a lookup answered, under normal forms. -/
def learn (g : Gate) (now : Nat) (results : List (String × Bool)) : Gate :=
  { g with cache := results.foldl (fun c r => c.insert now (normalize r.1) r.2) g.cache }

/-- Caches verdicts one after another; the program ends at the first that expires
when the clock has no reading any more. -/
def learn? (g : Gate) (start : Instant) (now : Nat) (results : List (String × Bool)) :
    Option Gate := do
  let cache ← results.foldlM (fun c r => c.insert? start now (normalize r.1) r.2) g.cache
  return { g with cache }

def tell (level : LogLevel) (text : String) : LogEvent :=
  { level, origin := .gate, text := "[intel] " ++ text }

/-- Decides by the reply to a batch. -/
def conclude (g : Gate) (now : Nat) (batch : List String) :
    LookupReply → Verdict × List LogEvent × Gate
  | .unknown =>
      (.pass, [tell .debug ("no verdict: " ++ g.tag ++ ": " ++ toString batch.length
        ++ " indicators")], g)
  | .failed reason =>
      (.pass, [tell .error ("lookup failed for " ++ g.tag ++ ": Verdict lookup failed: "
        ++ reason)], g)
  | .verdicts results =>
      let g := g.learn now results
      match batch.find? fun name => verdictOf results name = some true with
      | some name =>
          (.block name,
            [tell .warn ("malicious indicator " ++ name ++ " blocked by " ++ g.tag)], g)
      | none => (.pass, [], g)

/-- Decides by the reply to a batch unless caching it ends the program. -/
def conclude? (g : Gate) (start : Instant) (now : Nat) (batch : List String) :
    LookupReply → Option (Verdict × List LogEvent × Gate)
  | .verdicts results =>
      (g.learn? start now results).map fun _ => g.conclude now batch (.verdicts results)
  | reply => some (g.conclude now batch reply)

/-- Decides on indicators with a given lookup; answers, too, the batch that was
looked up, if there was one. -/
def check (g : Gate) (now : Nat) (lookup : List String → LookupReply)
    (indicators : List String) : Verdict × Option (List String) × List LogEvent × Gate :=
  let g := { g with cache := g.cache.purgeIfDue now }
  match g.screen now [] indicators with
  | (.blocked name, g) => (.block name, none, [], g)
  | (.undecided [], g) => (.pass, none, [], g)
  | (.undecided batch, g) =>
      let (verdict, events, g) := g.conclude now batch (lookup batch)
      (verdict, some batch, events, g)

/-- A check as it runs with a clock that reads `start` at time 0: nothing is
answered if the program ends meanwhile. -/
def check? (g : Gate) (start : Instant) (now : Nat) (lookup : List String → LookupReply)
    (indicators : List String) :
    Option (Verdict × Option (List String) × List LogEvent × Gate) :=
  let g := { g with cache := g.cache.purgeIfDue now }
  match g.screen now [] indicators with
  | (.blocked name, g) => some (.block name, none, [], g)
  | (.undecided [], g) => some (.pass, none, [], g)
  | (.undecided batch, g) => do
      let (verdict, events, g) ← g.conclude? start now batch (lookup batch)
      return (verdict, some batch, events, g)

/-- Reads the whitelist file again; both lists change or none does. -/
def reload (g : Gate) (files : Files.Tree) : Except Fault Gate :=
  match g.file with
  | none => .ok g
  | some path =>
      match WhitelistFile.load files path with
      | .error e => .error e
      | .ok file =>
          match g.whitelist.apply file with
          | .ok whitelist => .ok { g with whitelist }
          | .error e => .error (.rule e)

def announce (g : Gate) : LogEvent :=
  .note .info .gate "intel" "whitelist loaded"
    (g.tag ++ ": " ++ toString g.whitelist.names.length ++ " domains, "
      ++ toString g.whitelist.addresses.size ++ " ip rules")

def inspect (g : Gate) (watching : Bool) : String :=
  Text.record "IntelGate" [("tag", Text.quoted g.tag),
    ("whitelisted_domains", toString g.whitelist.names.length),
    ("whitelisted_ips", toString g.whitelist.addresses.size),
    ("cached", toString g.cache.size), ("watching", toString watching)]

end Gate
end LiveRules.Intel
