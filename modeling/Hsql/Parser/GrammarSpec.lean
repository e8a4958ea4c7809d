import Hsql.Parser.ExprSpec
import Hsql.Parser.SelectSpec
import Hsql.Parser.CreateSpec
import Hsql.Parser.StatementSpec

/-! What the actions of the whole grammar do. -/

namespace Hsql
open Bison Vals Node

attribute [local simp] forall_terminal forall_nonterminal forall_nil Vals.All Vals.sum NT.Given
  NT.Sound NT.addrs NT.nodes Member.nodes Node.parts Node.addr Node.Shaped

theorem keeps_identCommalist : ∀ p ∈ identCommalistRules, p.Keeps := by
  simp only [identCommalistRules, List.forall_mem_cons]
  refine ⟨keeps_rule ?_, keeps_deref ?_, List.forall_mem_nil _⟩
  · simp +contextual [filled_vector]
  · simp only [forall_terminal, forall_nonterminal, forall_nil]
    intro l _ x hgiven v hv
    refine ⟨hgiven.1.pushBack hgiven.2.1 hv, ?_, ?_⟩ <;> simp

theorem keeps_stringOrToken : ∀ p ∈ stringOrTokenRules, p.Keeps := by
  simp only [stringOrTokenRules, List.forall_mem_cons]
  refine ⟨keeps_rule ?_, keeps_rule ?_, keeps_rule ?_, keeps_rule ?_, keeps_rule ?_,
    keeps_rule ?_, keeps_rule ?_, keeps_rule ?_, List.forall_mem_nil _⟩ <;> simp [strdup]

theorem keeps_foreignKeyEventList : ∀ p ∈ foreignKeyEventListRules, p.Keeps := by
  simp only [foreignKeyEventListRules, List.forall_mem_cons]
  refine ⟨keeps_rule ?_, keeps_deref ?_, keeps_rule ?_, List.forall_mem_nil _⟩ <;> simp

theorem keeps_optTableConstraintList : ∀ p ∈ optTableConstraintListRules, p.Keeps := by
  simp only [optTableConstraintListRules, List.forall_mem_cons]
  refine ⟨keeps_rule ?_, keeps_deref ?_, keeps_rule ?_, List.forall_mem_nil _⟩
  · simp [vec_vector]
  · simp only [forall_terminal, forall_nonterminal, forall_nil]
    intro l _ x hgiven v hv
    refine ⟨trivial, ?_, ?_⟩ <;> simp [vec_pushBack _ hv]
  · simp

/-- What a production loses: a set operation the clauses of its left operand, a column all but its
last `DEFAULT`. The values of the whole input go to the result. -/
noncomputable def lost : (n : NT) → (r : Fin (productions n).length) →
    Vals TokenKind.Val NT.Val ((productions n).get r).rhs → Multiset Addr
  | .input => fun _ vs => vs.sum NT.addrs
  | .selectStatement => selectStatementLost
  | .columnDef => columnDefLost
  | _ => fun _ _ => 0

theorem spec (n : NT) (r : Fin (productions n).length) :
    ((productions n).get r).Spec (lost n r) := by
  cases n with
  | input => exact spec_input _ (List.get_mem _ r)
  | selectStatement => exact spec_selectStatement r
  | columnDef => exact spec_columnDef r
  | statementList => exact keeps_statementList _ (List.get_mem _ r)
  | statement => exact keeps_statement _ (List.get_mem _ r)
  | alterStatement => exact keeps_alterStatement _ (List.get_mem _ r)
  | pragmaStatement => exact keeps_pragmaStatement _ (List.get_mem _ r)
  | createStatement => exact keeps_createStatement _ (List.get_mem _ r)
  | indexedColumnList => exact keeps_indexedColumnList _ (List.get_mem _ r)
  | indexedColumn => exact keeps_indexedColumn _ (List.get_mem _ r)
  | columnDefCommalist => exact keeps_columnDefCommalist _ (List.get_mem _ r)
  | columnConstraintListNullable => exact keeps_columnConstraintListNullable _ (List.get_mem _ r)
  | columnConstraintList => exact keeps_columnConstraintList _ (List.get_mem _ r)
  | columnConstraint => exact keeps_columnConstraint _ (List.get_mem _ r)
  | foreignKeyConstraint => exact keeps_foreignKeyConstraint _ (List.get_mem _ r)
  | foreignKeyEventList => exact keeps_foreignKeyEventList _ (List.get_mem _ r)
  | foreignKeyEvent => exact keeps_foreignKeyEvent _ (List.get_mem _ r)
  | optTableConstraintList => exact keeps_optTableConstraintList _ (List.get_mem _ r)
  | tableConstraint => exact keeps_tableConstraint _ (List.get_mem _ r)
  | dropStatement => exact keeps_dropStatement _ (List.get_mem _ r)
  | deleteStatement => exact keeps_deleteStatement _ (List.get_mem _ r)
  | insertStatement => exact keeps_insertStatement _ (List.get_mem _ r)
  | optColumnList => exact keeps_optColumnList _ (List.get_mem _ r)
  | updateStatement => exact keeps_updateStatement _ (List.get_mem _ r)
  | updateClauseCommalist => exact keeps_updateClauseCommalist _ (List.get_mem _ r)
  | updateClause => exact keeps_updateClause _ (List.get_mem _ r)
  | selectWithParen => exact keeps_selectWithParen _ (List.get_mem _ r)
  | selectParenOrClause => exact keeps_selectParenOrClause _ (List.get_mem _ r)
  | selectNoParen => exact keeps_selectNoParen _ (List.get_mem _ r)
  | selectClause => exact keeps_selectClause _ (List.get_mem _ r)
  | selectList => exact keeps_selectList _ (List.get_mem _ r)
  | fromClause => exact keeps_fromClause _ (List.get_mem _ r)
  | optWhere => exact keeps_optWhere _ (List.get_mem _ r)
  | optGroup => exact keeps_optGroup _ (List.get_mem _ r)
  | optHaving => exact keeps_optHaving _ (List.get_mem _ r)
  | optOrder => exact keeps_optOrder _ (List.get_mem _ r)
  | orderList => exact keeps_orderList _ (List.get_mem _ r)
  | orderDesc => exact keeps_orderDesc _ (List.get_mem _ r)
  | optLimit => exact keeps_optLimit _ (List.get_mem _ r)
  | exprList => exact keeps_exprList _ (List.get_mem _ r)
  | exprAlias => exact keeps_exprAlias _ (List.get_mem _ r)
  | expr => exact keeps_expr _ (List.get_mem _ r)
  | operand => exact keeps_operand _ (List.get_mem _ r)
  | scalarExpr => exact keeps_scalarExpr _ (List.get_mem _ r)
  | unaryExpr => exact keeps_unaryExpr _ (List.get_mem _ r)
  | binaryExpr => exact keeps_binaryExpr _ (List.get_mem _ r)
  | logicExpr => exact keeps_logicExpr _ (List.get_mem _ r)
  | inExpr => exact keeps_inExpr _ (List.get_mem _ r)
  | caseExpr => exact keeps_caseExpr _ (List.get_mem _ r)
  | caseList => exact keeps_caseList _ (List.get_mem _ r)
  | existsExpr => exact keeps_existsExpr _ (List.get_mem _ r)
  | compExpr => exact keeps_compExpr _ (List.get_mem _ r)
  | functionExpr => exact keeps_functionExpr _ (List.get_mem _ r)
  | betweenExpr => exact keeps_betweenExpr _ (List.get_mem _ r)
  | columnName => exact keeps_columnName _ (List.get_mem _ r)
  | literal => exact keeps_literal _ (List.get_mem _ r)
  | stringLiteral => exact keeps_stringLiteral _ (List.get_mem _ r)
  | numLiteral => exact keeps_numLiteral _ (List.get_mem _ r)
  | intLiteral => exact keeps_intLiteral _ (List.get_mem _ r)
  | nullLiteral => exact keeps_nullLiteral _ (List.get_mem _ r)
  | paramExpr => exact keeps_paramExpr _ (List.get_mem _ r)
  | tableRef => exact keeps_tableRef _ (List.get_mem _ r)
  | tableRefAtomic => exact keeps_tableRefAtomic _ (List.get_mem _ r)
  | nonjoinTableRefAtomic => exact keeps_nonjoinTableRefAtomic _ (List.get_mem _ r)
  | tableRefCommalist => exact keeps_tableRefCommalist _ (List.get_mem _ r)
  | tableRefName => exact keeps_tableRefName _ (List.get_mem _ r)
  | tableRefNameNoAlias => exact keeps_tableRefNameNoAlias _ (List.get_mem _ r)
  | tableName => exact keeps_tableName _ (List.get_mem _ r)
  | joinClause => exact keeps_joinClause _ (List.get_mem _ r)
  | optJoinType => exact keeps_optJoinType _ (List.get_mem _ r)
  | joinCondition => exact keeps_joinCondition _ (List.get_mem _ r)
  | identCommalist => exact keeps_identCommalist _ (List.get_mem _ r)
  | stringOrToken => exact keeps_stringOrToken _ (List.get_mem _ r)
  | optUnique | optNotExists | optVirtual | optTemporary | optForeignKeyDeferrable
  | foreignKeyAction | columnType | triggerType | triggerEvent | optConflictClause | optExists
  | optOrReplace | setOperator | setType | optAll | optDistinct | optOrderType | indexedBy
  | optIndexedBy | «alias» | optAlias | optSemicolon | optComa =>
    refine (?_ : ∀ p ∈ productions _, p.Keeps) _ (List.get_mem _ r)
    repeat' refine List.forall_mem_cons.mpr ⟨?_, ?_⟩
    all_goals first | exact List.forall_mem_nil _ | exact keeps_rule (by simp)

end Hsql
