import Hsql.Parser.ExprRules
import Hsql.Parser.SelectRules
import Hsql.Parser.CreateRules
import Hsql.Parser.StatementRules

/-! The grammar with its semantic actions. -/

namespace Hsql
open Bison

/-- The productions of each nonterminal, in their order in the source. -/
def productions : (n : NT) → List (Production n)
  | .input => inputRules
  | .statementList => statementListRules
  | .statement => statementRules
  | .alterStatement => alterStatementRules
  | .pragmaStatement => pragmaStatementRules
  | .createStatement => createStatementRules
  | .indexedColumnList => indexedColumnListRules
  | .indexedColumn => indexedColumnRules
  | .optUnique => optUniqueRules
  | .optNotExists => optNotExistsRules
  | .optVirtual => optVirtualRules
  | .optTemporary => optTemporaryRules
  | .columnDefCommalist => columnDefCommalistRules
  | .columnDef => columnDefRules
  | .columnConstraintListNullable => columnConstraintListNullableRules
  | .columnConstraintList => columnConstraintListRules
  | .columnConstraint => columnConstraintRules
  | .foreignKeyConstraint => foreignKeyConstraintRules
  | .optForeignKeyDeferrable => optForeignKeyDeferrableRules
  | .foreignKeyEventList => foreignKeyEventListRules
  | .foreignKeyEvent => foreignKeyEventRules
  | .foreignKeyAction => foreignKeyActionRules
  | .columnType => columnTypeRules
  | .triggerType => triggerTypeRules
  | .triggerEvent => triggerEventRules
  | .optTableConstraintList => optTableConstraintListRules
  | .tableConstraint => tableConstraintRules
  | .optConflictClause => optConflictClauseRules
  | .dropStatement => dropStatementRules
  | .optExists => optExistsRules
  | .deleteStatement => deleteStatementRules
  | .insertStatement => insertStatementRules
  | .optOrReplace => optOrReplaceRules
  | .optColumnList => optColumnListRules
  | .updateStatement => updateStatementRules
  | .updateClauseCommalist => updateClauseCommalistRules
  | .updateClause => updateClauseRules
  | .selectStatement => selectStatementRules
  | .selectWithParen => selectWithParenRules
  | .selectParenOrClause => selectParenOrClauseRules
  | .selectNoParen => selectNoParenRules
  | .setOperator => setOperatorRules
  | .setType => setTypeRules
  | .optAll => optAllRules
  | .selectClause => selectClauseRules
  | .optDistinct => optDistinctRules
  | .selectList => selectListRules
  | .fromClause => fromClauseRules
  | .optWhere => optWhereRules
  | .optGroup => optGroupRules
  | .optHaving => optHavingRules
  | .optOrder => optOrderRules
  | .orderList => orderListRules
  | .orderDesc => orderDescRules
  | .optOrderType => optOrderTypeRules
  | .optLimit => optLimitRules
  | .exprList => exprListRules
  | .exprAlias => exprAliasRules
  | .expr => exprRules
  | .operand => operandRules
  | .scalarExpr => scalarExprRules
  | .unaryExpr => unaryExprRules
  | .binaryExpr => binaryExprRules
  | .logicExpr => logicExprRules
  | .inExpr => inExprRules
  | .caseExpr => caseExprRules
  | .caseList => caseListRules
  | .existsExpr => existsExprRules
  | .compExpr => compExprRules
  | .functionExpr => functionExprRules
  | .betweenExpr => betweenExprRules
  | .columnName => columnNameRules
  | .literal => literalRules
  | .stringLiteral => stringLiteralRules
  | .numLiteral => numLiteralRules
  | .intLiteral => intLiteralRules
  | .nullLiteral => nullLiteralRules
  | .paramExpr => paramExprRules
  | .tableRef => tableRefRules
  | .tableRefAtomic => tableRefAtomicRules
  | .nonjoinTableRefAtomic => nonjoinTableRefAtomicRules
  | .tableRefCommalist => tableRefCommalistRules
  | .tableRefName => tableRefNameRules
  | .indexedBy => indexedByRules
  | .optIndexedBy => optIndexedByRules
  | .tableRefNameNoAlias => tableRefNameNoAliasRules
  | .tableName => tableNameRules
  | .«alias» => aliasRules
  | .optAlias => optAliasRules
  | .joinClause => joinClauseRules
  | .optJoinType => optJoinTypeRules
  | .joinCondition => joinConditionRules
  | .optSemicolon => optSemicolonRules
  | .optComa => optComaRules
  | .identCommalist => identCommalistRules
  | .stringOrToken => stringOrTokenRules

abbrev grammar : Grammar TokenKind NT where
  Rule n := Fin (productions n).length
  rhs r := ((productions _).get r).rhs

abbrev actions : Semantics grammar TokenKind.Val Location where
  V := NT.Val
  S := ParserState
  act r := ((productions _).get r).action

abbrev Derivation (n : NT) := Tree grammar TokenKind.Val Location n

end Hsql
