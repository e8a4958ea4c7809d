import Hsql.Parser.Spec

/-! What the actions of expressions do: one lemma for each nonterminal. -/

namespace Hsql
open Bison Vals Node Expr

attribute [local simp] forall_terminal forall_nonterminal forall_nil Vals.All Vals.sum NT.Given
  NT.Sound NT.addrs NT.nodes Member.nodes Node.parts Node.addr Node.Shaped

attribute [local simp] Expr.Shaped Expr.KindShaped Expr.OperatorShaped Expr.Listed Expr.new

theorem keeps_exprList : ∀ p ∈ exprListRules, p.Keeps := by
  simp only [exprListRules, List.forall_mem_cons]
  refine ⟨keeps_rule ?_, keeps_deref ?_, List.forall_mem_nil _⟩
  · simp +contextual [filled_vector, vec_vector]
  · simp only [forall_terminal, forall_nonterminal, forall_nil]
    intro l _ x hgiven v hv
    refine ⟨hgiven.1.pushBack hgiven.2.1 hv, ?_, ?_⟩ <;> simp [vec_pushBack _ hv]

theorem keeps_exprAlias : ∀ p ∈ exprAliasRules, p.Keeps := by
  simp only [exprAliasRules, List.forall_mem_cons]
  refine ⟨keeps_deref ?_, List.forall_mem_nil _⟩
  simp only [forall_nonterminal, forall_nil]
  intro e a hgiven v hv
  obtain ⟨x, rfl, rfl⟩ := Option.map_eq_some_iff.mp hv
  refine ⟨rfl, ?_, ?_⟩ <;> simp

theorem keeps_expr : ∀ p ∈ exprRules, p.Keeps := by
  simp only [exprRules, List.forall_mem_cons]
  refine ⟨keeps_rule ?_, keeps_rule ?_, keeps_rule ?_, keeps_rule ?_, keeps_rule ?_,
    List.forall_mem_nil _⟩ <;> simp

theorem keeps_operand : ∀ p ∈ operandRules, p.Keeps := by
  simp only [operandRules, List.forall_mem_cons]
  refine ⟨keeps_rule ?_, keeps_rule ?_, keeps_rule ?_, keeps_rule ?_, keeps_rule ?_,
    keeps_rule ?_, keeps_rule ?_, List.forall_mem_nil _⟩ <;> simp +contextual [makeSelect]

theorem keeps_scalarExpr : ∀ p ∈ scalarExprRules, p.Keeps := by
  simp only [scalarExprRules, List.forall_mem_cons]
  refine ⟨keeps_rule ?_, keeps_rule ?_, List.forall_mem_nil _⟩ <;>
    simp +contextual [Option.isSome_iff_exists]

theorem keeps_unaryExpr : ∀ p ∈ unaryExprRules, p.Keeps := by
  simp only [unaryExprRules, List.forall_mem_cons]
  refine ⟨keeps_rule ?_, keeps_rule ?_, keeps_rule ?_, keeps_rule ?_, keeps_rule ?_,
    List.forall_mem_nil _⟩ <;> simp +contextual [makeOpUnary]

theorem keeps_binaryExpr : ∀ p ∈ binaryExprRules, p.Keeps := by
  simp only [binaryExprRules, List.forall_mem_cons]
  refine ⟨keeps_rule ?_, keeps_rule ?_, keeps_rule ?_, keeps_rule ?_, keeps_rule ?_,
    keeps_rule ?_, keeps_rule ?_, keeps_rule ?_, keeps_rule ?_, keeps_rule ?_, keeps_rule ?_,
    keeps_rule ?_, keeps_rule ?_, keeps_rule ?_, keeps_rule ?_, List.forall_mem_nil _⟩ <;>
    simp +contextual [makeOpBinary]

theorem keeps_logicExpr : ∀ p ∈ logicExprRules, p.Keeps := by
  simp only [logicExprRules, List.forall_mem_cons]
  refine ⟨keeps_rule ?_, keeps_rule ?_, List.forall_mem_nil _⟩ <;> simp +contextual [makeOpBinary]

theorem keeps_inExpr : ∀ p ∈ inExprRules, p.Keeps := by
  simp only [inExprRules, List.forall_mem_cons]
  refine ⟨keeps_rule ?_, keeps_rule ?_, keeps_rule ?_, keeps_rule ?_, keeps_rule ?_,
    keeps_rule ?_, List.forall_mem_nil _⟩ <;>
    simp +contextual [makeInList, makeInSelect, makeInEmpty, makeOpUnary, Filled]

theorem isSome_of_elements {l : List (Option Expr)}
    (h : ∀ x ∈ l, ∃ c, x = some c ∧ c.IsCaseListElement) : ∀ x ∈ l, x.isSome := by
  intro x hx
  obtain ⟨c, rfl, -⟩ := h x hx
  rfl

/-- A `CASE` takes over its operand, the elements of the list and the `ELSE`. -/
theorem makeCase_spec {e b v : Option Expr} {l : NT.caseList.Val} (hl : NT.caseList.Given l)
    (h : (makeCase e l b).map some = some v) : v.isSome ∧
      (Sounds (ptr .expr e) → Sounds (vec .expr (l.bind Expr.exprList)) → Sounds (ptr .expr b) →
        Sounds (ptr .expr v)) ∧
      Node.addrs (ptr .expr v) = Node.addrs (ptr .expr e) +
        (Node.addrs (vec .expr (l.bind Expr.exprList)) + Node.addrs (ptr .expr b)) := by
  obtain ⟨x, xs, rfl, hxs, hne, hall⟩ := hl
  obtain ⟨y, hy, rfl⟩ := Option.map_eq_some_iff.mp h
  cases hy
  have hlisted := isSome_of_elements hall
  refine ⟨rfl, fun he hvec hb => ?_, ?_⟩
  · rw [sounds_ptr_some]
    simp_all
  · rw [addrs_ptr_some]
    simp [add_comm]

theorem keeps_caseExpr : ∀ p ∈ caseExprRules, p.Keeps := by
  simp only [caseExprRules, List.forall_mem_cons]
  refine ⟨keeps_deref ?_, keeps_deref ?_, keeps_deref ?_, keeps_deref ?_, List.forall_mem_nil _⟩
  · rintro ⟨_, e, l, _, _⟩ hvs v hv
    obtain ⟨hgiven, hsound, haddrs⟩ := makeCase_spec hvs.2.1 hv
    exact ⟨hgiven, fun h => hsound h.1 h.2.1 sounds_nil, haddrs⟩
  · rintro ⟨_, e, l, _, b, _, _⟩ hvs v hv
    obtain ⟨hgiven, hsound, haddrs⟩ := makeCase_spec hvs.2.1 hv
    refine ⟨hgiven, fun h => hsound h.1 h.2.1 h.2.2.1, ?_⟩
    rw [← add_zero (Node.addrs (ptr .expr b))] at haddrs
    exact haddrs
  · rintro ⟨_, l, _, _⟩ hvs v hv
    obtain ⟨hgiven, hsound, haddrs⟩ := makeCase_spec hvs.1 hv
    rw [ptr_none, addrs_nil, zero_add] at haddrs
    exact ⟨hgiven, fun h => hsound sounds_nil h.1 sounds_nil, haddrs⟩
  · rintro ⟨_, l, _, b, _, _⟩ hvs v hv
    obtain ⟨hgiven, hsound, haddrs⟩ := makeCase_spec hvs.1 hv
    rw [ptr_none, addrs_nil, zero_add, ← add_zero (Node.addrs (ptr .expr b))] at haddrs
    exact ⟨hgiven, fun h => hsound sounds_nil h.1 h.2.1, haddrs⟩

theorem keeps_caseList : ∀ p ∈ caseListRules, p.Keeps := by
  simp only [caseListRules, List.forall_mem_cons]
  refine ⟨keeps_rule ?_, keeps_deref ?_, List.forall_mem_nil _⟩
  · simp +contextual [makeCaseList, makeCaseListElement, IsCaseListElement]
  · simp only [forall_terminal, forall_nonterminal, forall_nil]
    intro l _ a _ b hgiven v hv
    obtain ⟨⟨e, l, rfl, hlist, -, hl⟩, ha, hb, -⟩ := hgiven
    obtain rfl : some { e with exprList := some (l ++ [some (makeCaseListElement a b)]) } = v := by
      simpa [caseListAppend, hlist] using hv
    refine ⟨⟨_, _, rfl, rfl, by simp, ?_⟩, ?_, ?_⟩
    · rintro x hx
      rcases List.mem_append.mp hx with hx | hx
      · exact hl x hx
      · exact ⟨_, List.mem_singleton.mp hx, rfl, rfl, ha, hb⟩
    · simp +contextual [hlist, makeCaseListElement, show a.isSome from ha, show b.isSome from hb]
    · simp [hlist, makeCaseListElement]

theorem keeps_existsExpr : ∀ p ∈ existsExprRules, p.Keeps := by
  simp only [existsExprRules, List.forall_mem_cons]
  refine ⟨keeps_rule ?_, keeps_rule ?_, List.forall_mem_nil _⟩ <;>
    simp +contextual [makeExists, makeOpUnary]

theorem keeps_compExpr : ∀ p ∈ compExprRules, p.Keeps := by
  simp only [compExprRules, List.forall_mem_cons]
  refine ⟨keeps_rule ?_, keeps_rule ?_, keeps_rule ?_, keeps_rule ?_, keeps_rule ?_,
    keeps_rule ?_, List.forall_mem_nil _⟩ <;> simp +contextual [makeOpBinary]

theorem keeps_functionExpr : ∀ p ∈ functionExprRules, p.Keeps := by
  simp only [functionExprRules, List.forall_mem_cons]
  refine ⟨keeps_rule ?_, keeps_rule ?_, List.forall_mem_nil _⟩ <;>
    simp +contextual [makeFunctionRef, Filled]

theorem keeps_betweenExpr : ∀ p ∈ betweenExprRules, p.Keeps := by
  simp only [betweenExprRules, List.forall_mem_cons]
  refine ⟨keeps_rule ?_, List.forall_mem_nil _⟩
  rintro ⟨a, _, b, _, c, _⟩ ⟨ha, hb, hc, -⟩
  obtain ⟨a, rfl⟩ := Option.isSome_iff_exists.mp ha
  obtain ⟨b, rfl⟩ := Option.isSome_iff_exists.mp hb
  obtain ⟨c, rfl⟩ := Option.isSome_iff_exists.mp hc
  simp [makeBetween]

theorem keeps_columnName : ∀ p ∈ columnNameRules, p.Keeps := by
  simp only [columnNameRules, List.forall_mem_cons]
  refine ⟨keeps_rule ?_, keeps_rule ?_, keeps_rule ?_, keeps_rule ?_, List.forall_mem_nil _⟩ <;>
    simp [makeColumnRef, makeTableColumnRef, makeStar, makeTableStar]

theorem keeps_literal : ∀ p ∈ literalRules, p.Keeps := by
  simp only [literalRules, List.forall_mem_cons]
  refine ⟨keeps_rule ?_, keeps_rule ?_, keeps_rule ?_, keeps_rule ?_, List.forall_mem_nil _⟩ <;>
    simp

theorem keeps_stringLiteral : ∀ p ∈ stringLiteralRules, p.Keeps := by
  simp only [stringLiteralRules, List.forall_mem_cons]
  refine ⟨keeps_rule ?_, List.forall_mem_nil _⟩
  simp [makeLiteralString]

theorem keeps_numLiteral : ∀ p ∈ numLiteralRules, p.Keeps := by
  simp only [numLiteralRules, List.forall_mem_cons]
  refine ⟨keeps_rule ?_, keeps_rule ?_, List.forall_mem_nil _⟩ <;> simp [makeLiteralFloat]

theorem keeps_intLiteral : ∀ p ∈ intLiteralRules, p.Keeps := by
  simp only [intLiteralRules, List.forall_mem_cons]
  refine ⟨keeps_rule ?_, List.forall_mem_nil _⟩
  simp [makeLiteralInt]

theorem keeps_nullLiteral : ∀ p ∈ nullLiteralRules, p.Keeps := by
  simp only [nullLiteralRules, List.forall_mem_cons]
  refine ⟨keeps_rule ?_, List.forall_mem_nil _⟩
  simp [makeNullLiteral]

theorem keeps_paramExpr : ∀ p ∈ paramExprRules, p.Keeps := by
  simp only [paramExprRules, List.forall_mem_cons]
  refine ⟨keeps_effect ?_, keeps_rule ?_, List.forall_mem_nil _⟩
  · simp only [forall_terminal, forall_nil]
    intro _ _ l s v s' heq
    cases heq
    refine ⟨rfl, ?_, ?_⟩ <;> simp [Expr.makeParameter]
  · simp [makeNamedParameter]

end Hsql
