import LiveRules.Journal
import LiveRules.Text.Blank
import LiveRules.Text.Printable
import LiveRules.Text.Lines

/-!
# Which events are shown

A filter is a list of directives between commas. A directive sets a level, for
everything or for the targets that begin with a name; an event is shown when the
most specific directive about it lets its level through. Without any directive
errors alone are shown. Directives about spans are understood, but since events
here happen outside of spans, they let nothing through.
-/
namespace LiveRules

/-- The most talkative level that is shown; `none` shows nothing. -/
abbrev LogThreshold := Option LogLevel

namespace LogThreshold

def allows (t : LogThreshold) (level : LogLevel) : Bool :=
  t.any fun most => level.rank ≤ most.rank

/-- The thresholds in the order of their numbers. -/
def numbered : List LogThreshold :=
  [none, some .error, some .warn, some .info, some .debug, some .trace]

/-- A number, with leading zeros and a plus sign if it likes. -/
def number? (s : String) : Option LogThreshold :=
  let digits := match s.toList with
    | '+' :: rest => rest
    | cs => cs
  if digits.isEmpty || !digits.all Char.isDigit then none
  else numbered[digits.foldl (fun n c => n * 10 + (c.toNat - 48)) 0]?

/-- A word, in letters of either case. -/
def word? (s : String) : Option LogThreshold :=
  match Text.lower s with
  | "off" => some none
  | "error" => some (some .error)
  | "warn" => some (some .warn)
  | "info" => some (some .info)
  | "debug" => some (some .debug)
  | "trace" => some (some .trace)
  | _ => none

def parse? (s : String) : Option LogThreshold := number? s <|> word? s

end LogThreshold

structure LogDirective where
  /-- How the targets begin that it is about. -/
  target : Option String := none
  /-- A field that the events must have. -/
  field : Option String := none
  /-- Whether it is about a span or the value of a field. -/
  inSpan : Bool := false
  threshold : LogThreshold := some .trace
  deriving DecidableEq, Repr

namespace LogDirective

/-- Why a directive cannot be read. -/
inductive Complaint where
  | malformed
  | badLevel
  deriving DecidableEq, Repr

def Complaint.message : Complaint → String
  | malformed => "invalid filter directive"
  | badLevel => "error parsing level filter: expected one of \"off\", \"error\", \"warn\", " ++
      "\"info\", \"debug\", \"trace\", or a number 0-5"

/-- Sets the level that is spelled after an equals sign; no spelling shows all. -/
def withLevel (d : LogDirective) (spelled : List Char) : Except Complaint LogDirective :=
  if spelled.isEmpty then .ok { d with threshold := some .trace }
  else match LogThreshold.parse? (.ofList spelled) with
    | some threshold => .ok { d with threshold }
    | none => .error .badLevel

/-- Reads what follows the closing bracket of a span; `ending` gives the end of
the directive from a place on. -/
def afterSpan (d : LogDirective) (ending : List Char → List Char) :
    List Char → Except Complaint LogDirective
  | [] => .ok d
  | '=' :: level => d.withLevel (ending level)
  | _ => .error .malformed

/-- Reads a span after its opening bracket: a name, and a field between braces. -/
def readSpan (d : LogDirective) (ending : List Char → List Char) (cs : List Char) :
    Except Complaint LogDirective :=
  let stops (c : Char) : Bool := c = ']' || c = '\x7b'
  let name := cs.takeWhile (!stops ·)
  match cs.dropWhile (!stops ·) with
  | ']' :: rest => { d with inSpan := true }.afterSpan ending rest
  | _ :: inside =>
      let field := inside.takeWhile (· ≠ '\x7d')
      match inside.dropWhile (· ≠ '\x7d') with
      | _ :: ']' :: rest =>
          if field.isEmpty then .error .malformed
          else { d with
            field := some (.ofList (field.takeWhile (· ≠ '=')))
            inSpan := !name.isEmpty || field.contains '=' }.afterSpan ending rest
      | _ => .error .malformed
  | [] => .error .malformed

/-- Whether a directive without a span can start with the character. -/
def isStart (c : Char) : Bool := c = '-' || c = ':' || Text.isWord c

/-- Reads one directive. White space at its ends is not noticed while it is
divided, and then belongs to its parts. -/
def parse (s : String) : Except Complaint LogDirective :=
  let whole := s.toList
  let cs := Text.trimmed whole
  let stops (c : Char) : Bool := c = '=' || c = '['
  let name := cs.takeWhile (!stops ·)
  let ending (rest : List Char) : List Char := whole.drop (cs.length - rest.length)
  let target := String.ofList (whole.take name.length)
  if !name.isEmpty && !(name.head?.any isStart) then .error .malformed
  else match cs.dropWhile (!stops ·) with
    | [] =>
        if name.isEmpty then .error .malformed
        else match LogThreshold.parse? s with
          | some threshold => .ok { threshold }
          | none => .ok { target := some s }
    | '=' :: level =>
        if name.isEmpty then .error .malformed
        else { target := some target : LogDirective }.withLevel (ending level)
    | _ :: span =>
        { target := if name.isEmpty then none else some target : LogDirective }.readSpan
          ending span

/-- Whether it decides about the events of a target. Events have a message and no
other field. -/
def isAbout (d : LogDirective) (target : String) : Bool :=
  !d.inSpan && d.target.all (target.startsWith ·) && d.field.all (· = "message")

/-- Longer targets are more specific, and one field more than none. -/
def specificity (d : LogDirective) : Nat :=
  let byTarget := match d.target with
    | none => 0
    | some t => t.utf8ByteSize + 1
  2 * byTarget + if d.field.isSome then 1 else 0

end LogDirective

structure LogFilter where
  directives : List LogDirective := []
  deriving DecidableEq, Repr

namespace LogFilter

/-- The most specific directive about a target; of equal ones the last. -/
def directive? (f : LogFilter) (target : String) : Option LogDirective :=
  (f.directives.filter (·.isAbout target)).foldl (fun best d =>
    match best with
    | none => some d
    | some b => if b.specificity ≤ d.specificity then some d else some b) none

def allows (f : LogFilter) (e : LogEvent) : Bool :=
  (f.directive? e.origin.target).any fun d => d.threshold.allows e.level

/-- Reads a filter. Directives that cannot be read are left out, with a remark
about each. -/
def parse (s : String) : LogFilter × List String :=
  let read := ((Text.pieces ',' s.toList).filter (!·.isEmpty)).map fun cs =>
    let text := String.ofList cs
    (text, LogDirective.parse text)
  let directives := read.filterMap fun r => r.2.toOption
  let remarks := read.filterMap fun r =>
    match r.2 with
    | .ok _ => none
    | .error e => some ("ignoring \x60" ++ r.1 ++ "\x60: " ++ e.message)
  (⟨if directives.isEmpty then [{ threshold := some .error }] else directives⟩, remarks)

end LogFilter

end LiveRules
