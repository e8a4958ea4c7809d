import Hsql.Parser.Locations
import Hsql.Parser.WellFormed

/-! What a failed parse leaves in the result. Only the action of `input` publishes statements and
parameters, but it is a default reduction: it runs before the parser looks whether the input ends
there. -/

namespace Hsql
open Bison

/-- The parser has reduced everything in front of these tokens to `input`. -/
def Completes (sql : Str) (rest : List Token) : Prop :=
  ∃ c, (startConfig (trees grammar TokenKind.Val Location) sql ()).Steps automaton (eof sql) c ∧
    topState c.stack = 10 ∧ c.input.map Prod.fst = rest.map fun t => ⟨t.kind, t.val⟩

/-! In state 10 the parser only accepts. -/

theorem row_ten : automaton.row 10 = ⟨[(none, .accept)], .error⟩ := rfl

/-- In state 10 the run ends with that stack. -/
theorem stop_ten {c : Config (trees grammar TokenKind.Val Location)} {eof : Location}
    (h : topState c.stack = 10) : ∃ o, c.step automaton eof = .inr o ∧
      (o = .accept c.stack c.st ∨ o = .reject c.stack c.kind (c.ahead automaton eof).pos c.st) := by
  rw [Config.step_eq]
  unfold Config.action
  rw [h, row_ten]
  have hkind : (c.ahead automaton eof).kind = c.kind := by
    unfold Config.kind
    rw [Config.ahead_input]
  cases hk : c.kind with
  | none =>
    refine ⟨.accept c.stack c.st, ?_, .inl rfl⟩
    show Sum.inr (Outcome.accept (c.ahead automaton eof).stack (c.ahead automaton eof).st) = _
    rw [Config.ahead_stack, Config.ahead_st]
  | some t =>
    refine ⟨.reject c.stack (some t) (c.ahead automaton eof).pos c.st, ?_, .inr rfl⟩
    show Sum.inr (Outcome.reject (c.ahead automaton eof).stack (c.ahead automaton eof).kind
      (c.ahead automaton eof).pos (c.ahead automaton eof).st) = _
    rw [Config.ahead_stack, Config.ahead_st, hkind, hk]

/-- It is not where more than its semicolon is read. -/
example : (parse 100 ⟨0, 0, 0, 0⟩ .new "SELECT ?; (".toList).map (fun x =>
    (x.2.isValid, x.2.statements.length, x.2.parameters.length)) = some (false, 0, 0) := by
  rw [parse_rowwise]
  decide +kernel

/-- What stands in front of the error then is a derivation of an input by itself. -/
theorem Completes.exists_derivation {sql : Str} {rest : List Token} (h : Completes sql rest) :
    ∃ (d : Derivation .input) (pre : List Token), tokens sql = pre ++ rest ∧
      d.yield = pre.map fun t => ⟨t.kind, t.val⟩ := by
  obtain ⟨c, hsteps, hten, hrest⟩ := h
  obtain ⟨hlink, hspells⟩ := hsteps.inv
    (I := fun c => Linked automaton c.stack ∧ c.Spells (Location.zero.tokens (lexemes sql)))
    (fun hc hstep => ⟨Config.step_linked hc.1 hstep, Config.step_spells hc.2 hstep⟩)
    ⟨trivial, rfl⟩
  obtain ⟨d, hd⟩ := linked_ten hlink hten
  unfold Config.Spells at hspells
  rw [hd, hrest, tokens_map_fst] at hspells
  have hsplit := List.map_eq_append_iff.mp hspells.symm
  obtain ⟨pre, rest', hpre, hyield, hrest'⟩ := hsplit
  have hinj : Function.Injective fun t : Token => (⟨t.kind, t.val⟩ : Sigma TokenKind.Val) := by
    intro a b hab
    cases a
    cases b
    cases hab
    rfl
  obtain rfl := List.map_injective_iff.mpr hinj hrest'
  exact ⟨d, pre, hpre, by rw [hyield]; rfl⟩

end Hsql
