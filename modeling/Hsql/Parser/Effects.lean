import Hsql.Parser.Grammar

/-! Which actions work on the state, and which parts of it they leave alone. -/

namespace Hsql
open Bison Production

/-- The nonterminals with an action that allocates or works on the location and the result. -/
def NT.effectful : List NT := [.input, .statementList, .selectClause, .orderDesc, .optLimit, .paramExpr]

theorem stateless {n : NT} (hn : n ∉ NT.effectful) : ∀ p ∈ productions n, p.Stateless := by
  cases n with
  | input | statementList | selectClause | orderDesc | optLimit | paramExpr => exact absurd (by decide) hn
  | _ =>
    repeat' refine List.forall_mem_cons.mpr ⟨?_, ?_⟩
    all_goals
      first
      | exact List.forall_mem_nil _
      | exact stateless_rule _
      | exact stateless_deref _

/-- The state behind an action `param_expr: '?'`. -/
def ParserState.pushParam (s : ParserState) (l : Location) : ParserState :=
  { s.newParam.2 with
    paramList := s.paramList ++
      [{ Parameter.new s.heap.params l.totalColumn with ival2 := s.paramList.length }] }

/-- What the actions of a nonterminal can do to the state. -/
def NT.Changes (l : Location) (s : ParserState) : NT → ParserState → Prop
  | .input, s' => ∃ stmts, s' = s.finish stmts
  | .statementList, s' => s' = { s with lengthStart := l.totalColumn }
  | .selectClause, s' => s' = s.newSelect.2
  | .orderDesc, s' => s' = s.newOrder.2
  | .optLimit, s' => s' = s.newLimit.2 ∨ s' = s
  | .paramExpr, s' => s' = s.pushParam l ∨ s' = s
  | _, s' => s' = s

theorem changes {n : NT} {p : Production n} (hp : p ∈ productions n)
    {vs : Vals TokenKind.Val NT.Val p.rhs} {l : Location} {s s' : ParserState} {v : n.Val}
    (h : p.action vs l s = some (v, s')) : n.Changes l s s' := by
  have hless (hn : n ∉ NT.effectful) : s' = s := by
    obtain ⟨f, hf⟩ := stateless hn p hp
    rw [hf] at h
    obtain ⟨u, -, heq⟩ := Option.map_eq_some_iff.mp h
    exact (Prod.mk.inj heq).2.symm
  cases n with
  | input =>
    obtain rfl := List.mem_singleton.mp hp
    obtain ⟨stmts, -, heq⟩ := Option.map_eq_some_iff.mp h
    exact ⟨stmts, (Prod.mk.inj heq).2.symm⟩
  | statementList =>
    have hmeasure {x v : Option SQLStatement} {t : ParserState} (h : s.measure l x = some (v, t)) :
        t = { s with lengthStart := l.totalColumn } := by
      obtain ⟨y, -, heq⟩ := Option.map_eq_some_iff.mp h
      exact (Prod.mk.inj heq).2.symm
    simp only [productions, statementListRules, List.mem_cons, List.not_mem_nil, or_false] at hp
    rcases hp with rfl | rfl
    · obtain ⟨⟨w, t⟩, hw, heq⟩ := Option.map_eq_some_iff.mp h
      cases heq
      exact hmeasure hw
    · obtain ⟨⟨w, t⟩, hw, heq⟩ := Option.bind_eq_some_iff.mp h
      obtain ⟨l', -, heq⟩ := Option.bind_eq_some_iff.mp heq
      cases heq
      exact hmeasure hw
  | selectClause =>
    obtain rfl := List.mem_singleton.mp hp
    exact (Prod.mk.inj (Option.some.inj h)).2.symm
  | orderDesc =>
    simp only [productions, orderDescRules, List.mem_cons, List.not_mem_nil, or_false] at hp
    rcases hp with rfl | rfl <;> exact (Prod.mk.inj (Option.some.inj h)).2.symm
  | optLimit =>
    simp only [productions, optLimitRules, List.mem_cons, List.not_mem_nil, or_false] at hp
    rcases hp with rfl | rfl | rfl | rfl
    · exact .inl (Prod.mk.inj (Option.some.inj h)).2.symm
    · exact .inl (Prod.mk.inj (Option.some.inj h)).2.symm
    · exact .inl (Prod.mk.inj (Option.some.inj h)).2.symm
    · exact .inr (Prod.mk.inj (Option.some.inj h)).2.symm
  | paramExpr =>
    simp only [productions, paramExprRules, List.mem_cons, List.not_mem_nil, or_false] at hp
    rcases hp with rfl | rfl
    · exact .inl (Prod.mk.inj (Option.some.inj h)).2.symm
    · exact .inr (Prod.mk.inj (Option.some.inj h)).2.symm
  | _ => exact hless (by decide)

/-- Only the action of `input` works on the result. -/
theorem result_eq {n : NT} {p : Production n} (hp : p ∈ productions n) (hn : n ≠ .input)
    {vs : Vals TokenKind.Val NT.Val p.rhs} {l : Location} {s s' : ParserState} {v : n.Val}
    (h : p.action vs l s = some (v, s')) : s'.result = s.result := by
  have hchanges := changes hp h
  unfold NT.Changes at hchanges
  split at hchanges
  · exact absurd rfl hn
  · rw [hchanges]
  · rw [hchanges]; rfl
  · rw [hchanges]; rfl
  · rcases hchanges with rfl | rfl <;> rfl
  · rcases hchanges with rfl | rfl <;> rfl
  · rw [hchanges]

end Hsql
