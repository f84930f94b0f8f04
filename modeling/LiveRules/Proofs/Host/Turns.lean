import LiveRules.Host.Basic
import LiveRules.Proofs.Engine.Attempts
import Mathlib.Logic.Relation

/-!
# The calls of a host

Once a host is built its plugins are asked, names are collected, sets and whitelists are
reloaded and the host is closed, while files are edited and time passes. A question does
nothing to the engine unless it reaches a gate or an action that collects.
-/
namespace LiveRules.Host
open Engine
variable [PatternLanguage]

/-- What can happen once a host is built. -/
inductive Turn (h : Host) (s : Engine) : Engine → Prop
  | edit (change : Files.Tree → Except Files.ReadError (Files.Tree × List Files.Change)) :
      Turn h s (s.changeFiles change).2
  | ask (known : List (String × Bool)) (tag key : String) : Turn h s (h.ask known tag key s).2
  | collect (tag name : String) : Turn h s (h.collect tag name s).2
  | check (id : Nat) (lookup : List String → Intel.LookupReply) (indicators : List String) :
      Turn h s (s.checkGate id lookup indicators).2.2
  | rebuild (k : CompositeKind) (id : Nat) (reloading : Bool) :
      Turn h s (after (Engine.rebuild k.access id reloading) s)
  | reload (id : Nat) : Turn h s (after (reloadGate id) s)
  | pass (time : Nat) : Turn h s (s.pass time)
  | close : Turn h s (h.close s)

/-- One thing after another. -/
abbrev Life (h : Host) : Engine → Engine → Prop := Relation.ReflTransGen h.Turn

variable (h : Host) (s : Engine)

/-- A question has a gate check the key or an action collect it, or nothing happens. -/
theorem ask_cases (known : List (String × Bool)) (tag key : String) :
    (h.ask known tag key s).2 = s ∨
    (∃ g, (h.ask known tag key s).2 = (s.checkGate g (Intel.staticReply known) [key]).2.2) ∨
    ∃ a, (h.ask known tag key s).2 = (runAction s a key).2 := by
  unfold ask
  split
  · exact .inl rfl
  · split <;> exact .inl rfl
  · split <;> exact .inl rfl
  · rename_i g _
    refine .inr (.inl ⟨g, ?_⟩)
    dsimp only
    split <;> rfl
  · rename_i a _
    exact .inr (.inr ⟨a, rfl⟩)
  · exact .inl rfl

theorem collect_cases (tag name : String) : (h.collect tag name s).2 = s ∨
    ∃ a, (h.collect tag name s).2 = (runAction s a name).2 := by
  unfold collect
  split
  · rename_i a _
    exact .inr ⟨a, rfl⟩
  · exact .inl rfl

end LiveRules.Host
