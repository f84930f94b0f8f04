/-!
# Languages of patterns

A rule may hold a pattern. Which texts are patterns and what they match is left to a
language of patterns; the matchers, sets and hosts work with any.
-/
namespace LiveRules

class PatternLanguage where
  /-- A pattern that has been understood. -/
  Compiled : Type
  /-- The pattern that a text writes down, or a complaint about the text. -/
  compile : String → Except String Compiled
  /-- Whether a pattern matches anywhere in a text. -/
  isMatch : Compiled → String → Bool

end LiveRules
