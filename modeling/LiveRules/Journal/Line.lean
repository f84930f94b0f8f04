import LiveRules.Journal
import LiveRules.Text.Inspect

/-!
# Log lines

An event is written as one line with its time, level and target.
-/
namespace LiveRules.LogEvent

/-- The spelling of a character in a log line: those that could command a
terminal are written by their code points. -/
def shownChar (c : Char) : String :=
  let n := c.toNat
  if n = 0x1b || n = 7 || n = 8 || n = 0xc || n = 0x7f then "\\x" ++ Text.twoHexDigits n
  else if 0x80 ≤ n && n ≤ 0x9f then "\\u\x7b" ++ Text.hexDigits n ++ "\x7d"
  else .singleton c

/-- A number in decimal digits, at least `width` of them. -/
def padded (width n : Nat) : String :=
  let digits := toString n
  .ofList (List.replicate (width - digits.length) '0') ++ digits

/-- The time of day, to the millisecond, of a time counted from midnight. -/
def clockText (milliseconds : Nat) : String :=
  let seconds := milliseconds / 1000
  padded 2 (seconds / 3600 % 24) ++ ":" ++ padded 2 (seconds / 60 % 60) ++ ":" ++
    padded 2 (seconds % 60) ++ "." ++ padded 3 (milliseconds % 1000)

/-- Levels stand right-aligned in five columns. -/
def line (time : String) (e : LogEvent) : String :=
  let level := e.level.text
  let indent := String.ofList (List.replicate (5 - level.length) ' ')
  time ++ " " ++ indent ++ level ++ " " ++ e.origin.target ++ ": " ++
    String.join (e.text.toList.map shownChar)

end LiveRules.LogEvent
