import Hsql.Parser.Spec

/-! What the actions of selects and tables do: one lemma for each nonterminal. -/

namespace Hsql
open Bison Vals Node Expr

attribute [local simp] forall_terminal forall_nonterminal forall_nil Vals.All Vals.sum NT.Given
  NT.Sound NT.addrs NT.nodes Member.nodes Node.parts Node.addr Node.Shaped

attribute [local simp] SelectStatement.new SelectStatement.shaped_iff

@[simp] theorem setLimit_eq (s : SelectStatement) (l : Option LimitDescription) :
    s.setLimit l = { s with limit := l.or s.limit } := by
  cases s
  cases l <;> rfl

theorem keeps_selectClause : ∀ p ∈ selectClauseRules, p.Keeps := by
  simp only [selectClauseRules, List.forall_mem_cons]
  refine ⟨keeps_effect ?_, List.forall_mem_nil _⟩
  simp only [forall_terminal, forall_nonterminal, forall_nil]
  intro _ d l t w g hvs p s v s' heq
  cases heq
  obtain ⟨-, hlist, hfrom, -⟩ := hvs
  refine ⟨⟨_, rfl, rfl, rfl, rfl⟩, ?_, ?_⟩
  · simp +contextual [show Filled l from hlist, show t.isSome from hfrom]
  · simp [add_assoc, add_left_comm]

theorem keeps_selectWithParen : ∀ p ∈ selectWithParenRules, p.Keeps := by
  simp only [selectWithParenRules, List.forall_mem_cons]
  refine ⟨keeps_rule ?_, keeps_rule ?_, List.forall_mem_nil _⟩ <;> simp

theorem keeps_selectParenOrClause : ∀ p ∈ selectParenOrClauseRules, p.Keeps := by
  simp only [selectParenOrClauseRules, List.forall_mem_cons]
  refine ⟨keeps_rule ?_, keeps_rule ?_, List.forall_mem_nil _⟩ <;>
    simp +contextual [Option.isSome_iff_exists]

theorem keeps_selectNoParen : ∀ p ∈ selectNoParenRules, p.Keeps := by
  simp only [selectNoParenRules, List.forall_mem_cons]
  refine ⟨keeps_deref ?_, keeps_deref ?_, List.forall_mem_nil _⟩
  · simp only [forall_nonterminal, forall_nil]
    intro s o l hgiven v hv
    obtain ⟨⟨x, rfl, hu, ho, hl⟩, horder, -⟩ := hgiven
    cases hv
    refine ⟨rfl, ?_, ?_⟩
    · simp +contextual [hu, ho, hl, show o.isSome → Filled o from horder]
    · simp [hu, ho, hl, add_assoc]
  · simp only [forall_nonterminal, forall_nil]
    intro s _ u o l hgiven v hv
    obtain ⟨⟨x, rfl, hu, ho, hl⟩, -, -, horder, -⟩ := hgiven
    cases hv
    refine ⟨rfl, ?_, ?_⟩
    · simp +contextual [SelectStatement.union, hu, ho, hl, show o.isSome → Filled o from horder]
    · simp [SelectStatement.union, hu, ho, hl, add_assoc]

theorem keeps_selectList : ∀ p ∈ selectListRules, p.Keeps := by
  simp only [selectListRules, List.forall_mem_cons]
  refine ⟨keeps_rule ?_, List.forall_mem_nil _⟩
  simp

theorem keeps_fromClause : ∀ p ∈ fromClauseRules, p.Keeps := by
  simp only [fromClauseRules, List.forall_mem_cons]
  refine ⟨keeps_rule ?_, List.forall_mem_nil _⟩
  simp

theorem keeps_optWhere : ∀ p ∈ optWhereRules, p.Keeps := by
  simp only [optWhereRules, List.forall_mem_cons]
  refine ⟨keeps_rule ?_, keeps_rule ?_, List.forall_mem_nil _⟩ <;> simp

theorem keeps_optGroup : ∀ p ∈ optGroupRules, p.Keeps := by
  simp only [optGroupRules, List.forall_mem_cons]
  refine ⟨keeps_rule ?_, keeps_rule ?_, List.forall_mem_nil _⟩ <;> simp +contextual

theorem keeps_optHaving : ∀ p ∈ optHavingRules, p.Keeps := by
  simp only [optHavingRules, List.forall_mem_cons]
  refine ⟨keeps_rule ?_, keeps_rule ?_, List.forall_mem_nil _⟩ <;> simp

theorem keeps_optOrder : ∀ p ∈ optOrderRules, p.Keeps := by
  simp only [optOrderRules, List.forall_mem_cons]
  refine ⟨keeps_rule ?_, keeps_rule ?_, List.forall_mem_nil _⟩ <;> simp +contextual

theorem keeps_orderList : ∀ p ∈ orderListRules, p.Keeps := by
  simp only [orderListRules, List.forall_mem_cons]
  refine ⟨keeps_rule ?_, keeps_deref ?_, List.forall_mem_nil _⟩
  · simp +contextual [filled_vector, vec_vector]
  · simp only [forall_terminal, forall_nonterminal, forall_nil]
    intro l _ x hgiven v hv
    refine ⟨hgiven.1.pushBack hgiven.2.1 hv, ?_, ?_⟩ <;> simp [vec_pushBack _ hv]

theorem keeps_orderDesc : ∀ p ∈ orderDescRules, p.Keeps := by
  simp only [orderDescRules, List.forall_mem_cons]
  refine ⟨keeps_effect ?_, keeps_effect ?_, List.forall_mem_nil _⟩
  · simp only [forall_terminal, forall_nonterminal, forall_nil]
    intro e _ c t hvs l s v s' heq
    cases heq
    refine ⟨rfl, ?_, ?_⟩ <;> simp [show e.isSome from hvs.1]
  · simp only [forall_nonterminal, forall_nil]
    intro e t hvs l s v s' heq
    cases heq
    refine ⟨rfl, ?_, ?_⟩ <;> simp [show e.isSome from hvs.1]

theorem keeps_optLimit : ∀ p ∈ optLimitRules, p.Keeps := by
  simp only [optLimitRules, List.forall_mem_cons]
  refine ⟨keeps_effect ?_, keeps_effect ?_, keeps_effect ?_, keeps_rule ?_, List.forall_mem_nil _⟩
  · simp only [forall_terminal, forall_nonterminal, forall_nil]
    intro _ e hvs l s v s' heq
    cases heq
    refine ⟨trivial, ?_, ?_⟩ <;> simp [show e.isSome from hvs.1]
  · simp only [forall_terminal, forall_nonterminal, forall_nil]
    intro _ e _ o hvs l s v s' heq
    cases heq
    refine ⟨trivial, ?_, ?_⟩ <;> simp +contextual [show e.isSome from hvs.1, add_assoc, add_left_comm]
  · simp only [forall_terminal, forall_nonterminal, forall_nil]
    intro _ o _ e hvs l s v s' heq
    cases heq
    refine ⟨trivial, ?_, ?_⟩ <;>
      simp +contextual [show e.isSome from hvs.2.1, add_assoc, add_left_comm]
  · simp

/-- What `$1` of a set operation pointed to and the result does not. -/
def SelectStatement.overwritten (s : SelectStatement) (limit : Option LimitDescription) :
    List Node :=
  ptr .select s.unionSelect ++ vec .order s.order ++
    if limit.isSome then ptr .limit s.limit else []

/-- What each production of `selectStatement` loses. -/
noncomputable def selectStatementLost : (i : Fin selectStatementRules.length) →
    Vals TokenKind.Val NT.Val (selectStatementRules.get i).rhs → Multiset Addr
  | ⟨2, _⟩, (s, _, _, _, l, _) => s.elim 0 fun s => Node.addrs (s.overwritten l)
  | _, _ => 0

theorem spec_selectStatement (i : Fin selectStatementRules.length) :
    (selectStatementRules.get i).Spec (selectStatementLost i) := by
  match i with
  | ⟨0, _⟩ => exact keeps_rule (by simp)
  | ⟨1, _⟩ => exact keeps_rule (by simp)
  | ⟨2, _⟩ =>
    refine spec_deref ?_
    simp only [forall_nonterminal, forall_nil]
    intro s _ u o l hgiven v hv
    obtain ⟨x, rfl, rfl⟩ := Option.map_eq_some_iff.mp hv
    obtain ⟨-, -, -, horder, -⟩ := hgiven
    refine ⟨rfl, ?_, ?_⟩
    · cases l <;> simp +contextual [SelectStatement.union, show o.isSome → Filled o from horder]
    · show Node.addrs _ + Node.addrs (x.overwritten l) = _
      cases l <;> simp [SelectStatement.union, SelectStatement.overwritten,
        -Multiset.singleton_add, add_assoc, add_comm, add_left_comm]

/-! Tables. -/

section
attribute [local simp] TableRef.Shaped TableRef.new

theorem keeps_tableRef : ∀ p ∈ tableRefRules, p.Keeps := by
  simp only [tableRefRules, List.forall_mem_cons]
  refine ⟨keeps_rule ?_, keeps_deref ?_, List.forall_mem_nil _⟩
  · simp
  · simp only [forall_terminal, forall_nonterminal, forall_nil]
    intro l _ t hgiven v hv
    obtain ⟨l', hl', rfl⟩ := Option.map_eq_some_iff.mp hv
    have hfilled := hgiven.1.pushBack hgiven.2.1 hl'
    have hlength : ∀ xs, l' = some xs → 2 ≤ xs.length := by
      obtain ⟨⟨ys, rfl, hne, -⟩, -⟩ := hgiven
      cases hl'
      simpa [Nat.succ_le_iff, List.length_pos_iff] using hne
    refine ⟨rfl, ?_, ?_⟩
    · simp +contextual [hfilled, hlength, vec_pushBack _ hl']
    · simp [vec_pushBack _ hl']

theorem keeps_tableRefAtomic : ∀ p ∈ tableRefAtomicRules, p.Keeps := by
  simp only [tableRefAtomicRules, List.forall_mem_cons]
  refine ⟨keeps_rule ?_, keeps_rule ?_, List.forall_mem_nil _⟩ <;> simp

theorem keeps_nonjoinTableRefAtomic : ∀ p ∈ nonjoinTableRefAtomicRules, p.Keeps := by
  simp only [nonjoinTableRefAtomicRules, List.forall_mem_cons]
  refine ⟨keeps_rule ?_, keeps_rule ?_, List.forall_mem_nil _⟩ <;> simp +contextual

theorem keeps_tableRefCommalist : ∀ p ∈ tableRefCommalistRules, p.Keeps := by
  simp only [tableRefCommalistRules, List.forall_mem_cons]
  refine ⟨keeps_rule ?_, keeps_deref ?_, List.forall_mem_nil _⟩
  · simp +contextual [filled_vector, vec_vector]
  · simp only [forall_terminal, forall_nonterminal, forall_nil]
    intro l _ x hgiven v hv
    refine ⟨hgiven.1.pushBack hgiven.2.1 hv, ?_, ?_⟩ <;> simp [vec_pushBack _ hv]

theorem keeps_tableRefName : ∀ p ∈ tableRefNameRules, p.Keeps := by
  simp only [tableRefNameRules, List.forall_mem_cons]
  refine ⟨keeps_rule ?_, List.forall_mem_nil _⟩
  simp +contextual

theorem keeps_tableRefNameNoAlias : ∀ p ∈ tableRefNameNoAliasRules, p.Keeps := by
  simp only [tableRefNameNoAliasRules, List.forall_mem_cons]
  refine ⟨keeps_rule ?_, List.forall_mem_nil _⟩
  simp +contextual

theorem keeps_tableName : ∀ p ∈ tableNameRules, p.Keeps := by
  simp only [tableNameRules, List.forall_mem_cons]
  refine ⟨keeps_rule ?_, keeps_rule ?_, List.forall_mem_nil _⟩ <;> simp

theorem usingColumn_eq {c e : Expr} {name : Option Str} (h : usingColumn c name = some e) :
    e.type = .kExprColumnRef ∧ e.name.isSome ∧ e.exprList = none ∧ e.addr = none ∧
      (Node.expr e).parts = [] := by
  obtain ⟨a, -, rfl⟩ := Option.map_eq_some_iff.mp h
  dsimp only
  split_ifs <;> simp [makeColumnRef, Expr.new]

theorem keeps_joinClause : ∀ p ∈ joinClauseRules, p.Keeps := by
  simp only [joinClauseRules, List.forall_mem_cons]
  refine ⟨keeps_rule ?_, keeps_rule ?_, keeps_deref ?_, List.forall_mem_nil _⟩
  · simp +contextual [JoinDefinition.new]
  · simp +contextual [Option.isSome_iff_ne_none]
  · simp only [forall_terminal, forall_nonterminal, forall_nil]
    intro l t _ r _ _ c _ hgiven v hv
    obtain ⟨-, ht, -, ⟨col, rfl, haddr, hparts⟩, -⟩ := hgiven
    obtain ⟨left, rfl, a, ha, right, rfl, b, hb, rfl⟩ : ∃ left, l = some left ∧ ∃ a,
        usingColumn col left.getName = some a ∧ ∃ right, r = some right ∧ ∃ b,
        usingColumn col right.getName = some b ∧ some { TableRef.new .kTableJoin with
          join := some { JoinDefinition.new with
            type := t, left := l, right := r
            condition := makeOpBinary (some a) .kOpEquals (some b) } } = v := by
      simpa [Option.bind_eq_some_iff] using hv
    obtain ⟨hatype, haname, halist, haaddr, haparts⟩ := usingColumn_eq ha
    obtain ⟨hbtype, hbname, hblist, hbaddr, hbparts⟩ := usingColumn_eq hb
    have ht' : t ≠ .kJoinNatural := ht
    simp only [Node.parts, List.append_eq_nil_iff] at hparts haparts hbparts
    refine ⟨rfl, ?_, ?_⟩
    · simp +contextual [ht', makeOpBinary, Expr.new, Expr.Shaped, Expr.KindShaped,
        Expr.OperatorShaped, Expr.Listed, hatype, haname, halist, haaddr, hbtype, hbname, hblist,
        hbaddr, haparts, hbparts]
    · simp [makeOpBinary, Expr.new, haaddr, hbaddr, haddr, hparts, haparts, hbparts]

theorem keeps_optJoinType : ∀ p ∈ optJoinTypeRules, p.Keeps := by
  simp only [optJoinTypeRules, List.forall_mem_cons]
  refine ⟨keeps_rule ?_, keeps_rule ?_, keeps_rule ?_, keeps_rule ?_, keeps_rule ?_,
    keeps_rule ?_, keeps_rule ?_, keeps_rule ?_, keeps_rule ?_, keeps_rule ?_,
    List.forall_mem_nil _⟩ <;> simp

theorem keeps_joinCondition : ∀ p ∈ joinConditionRules, p.Keeps := by
  simp only [joinConditionRules, List.forall_mem_cons]
  refine ⟨keeps_rule ?_, List.forall_mem_nil _⟩
  simp

end

end Hsql
