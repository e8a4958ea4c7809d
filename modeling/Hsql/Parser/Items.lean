import Hsql.Parser.Tables

/-! The items behind the states of the tables: of which right-hand sides, and up to where, the
symbols below a state are read. Listed are those that a reduction comes back to. -/

namespace Hsql
open Bison

/-- A rule of a nonterminal by its number, read up to a position behind its first symbol. -/
structure DottedRule where
  n : NT
  rule : Nat
  dot : Nat
deriving DecidableEq

namespace Tables

def i (n : NT) (rule dot : Nat) : DottedRule := ⟨n, rule, dot⟩

/-- The items of the states. -/
def items : List (List DottedRule) := [
  [], [i .createStatement 0 1, i .createStatement 1 1, i .createStatement 2 1,
   i .createStatement 3 1], [i .deleteStatement 0 1], [i .insertStatement 0 1,
   i .insertStatement 1 1], [i .pragmaStatement 0 1], [i .selectClause 0 1],
  [i .updateStatement 0 1], [i .alterStatement 0 1, i .alterStatement 1 1, i .alterStatement 2 1],
  [i .dropStatement 0 1, i .dropStatement 1 1, i .dropStatement 2 1, i .dropStatement 3 1],
  [i .selectWithParen 0 1, i .selectWithParen 1 1], [], [i .input 0 1, i .statementList 1 1],
  [i .statementList 0 1], [i .statement 7 1], [i .statement 6 1], [i .statement 1 1],
  [i .statement 5 1], [i .statement 3 1], [i .statement 2 1], [i .statement 4 1],
  [i .statement 0 1], [i .selectStatement 0 1, i .selectStatement 2 1], [i .selectStatement 1 1],
  [i .selectNoParen 0 1, i .selectNoParen 1 1], [i .createStatement 3 2], [i .optVirtual 0 1],
  [i .optUnique 0 1], [i .createStatement 1 2], [i .createStatement 2 2],
  [i .createStatement 0 2], [i .deleteStatement 0 2], [i .optOrReplace 0 1],
  [i .insertStatement 0 2, i .insertStatement 1 2], [i .columnName 0 1, i .columnName 1 1,
   i .columnName 3 1, i .stringOrToken 0 1], [i .stringOrToken 1 1], [i .numLiteral 0 1],
  [i .intLiteral 0 1], [i .stringOrToken 2 1], [i .stringOrToken 7 1], [i .existsExpr 0 1],
  [i .caseExpr 0 1, i .caseExpr 1 1, i .caseExpr 2 1, i .caseExpr 3 1], [i .nullLiteral 0 1],
  [i .stringOrToken 6 1], [i .stringOrToken 3 1], [i .stringOrToken 5 1], [i .unaryExpr 1 1,
   i .existsExpr 1 1], [i .stringOrToken 4 1], [i .unaryExpr 0 1], [i .columnName 2 1],
  [i .operand 0 1, i .operand 6 1], [i .paramExpr 0 1], [i .paramExpr 1 1],
  [i .pragmaStatement 0 2, i .logicExpr 0 1, i .logicExpr 1 1], [i .expr 0 1, i .unaryExpr 2 1,
   i .unaryExpr 3 1, i .unaryExpr 4 1, i .binaryExpr 1 1, i .binaryExpr 2 1, i .binaryExpr 3 1,
   i .binaryExpr 4 1, i .binaryExpr 5 1, i .binaryExpr 6 1, i .binaryExpr 7 1, i .binaryExpr 8 1,
   i .binaryExpr 9 1, i .binaryExpr 10 1, i .binaryExpr 11 1, i .binaryExpr 12 1,
   i .binaryExpr 13 1, i .binaryExpr 14 1, i .inExpr 0 1, i .inExpr 1 1, i .inExpr 2 1,
   i .inExpr 3 1, i .inExpr 4 1, i .inExpr 5 1, i .compExpr 0 1, i .compExpr 1 1, i .compExpr 2 1,
   i .compExpr 3 1, i .compExpr 4 1, i .compExpr 5 1, i .betweenExpr 0 1], [i .operand 1 1],
  [i .operand 2 1], [i .operand 3 1], [i .expr 2 1], [i .expr 4 1], [i .operand 4 1],
  [i .expr 3 1], [i .binaryExpr 0 1], [i .operand 5 1], [i .expr 1 1], [i .scalarExpr 0 1],
  [i .scalarExpr 1 1], [i .literal 0 1], [i .literal 1 1], [i .numLiteral 1 1], [i .literal 2 1],
  [i .literal 3 1], [i .functionExpr 0 1, i .functionExpr 1 1, i .stringLiteral 0 1],
  [i .optDistinct 0 1], [i .selectClause 0 2], [i .stringOrToken 0 1], [i .updateStatement 0 2],
  [i .tableRefNameNoAlias 0 1], [i .tableName 0 1, i .tableName 1 1], [i .alterStatement 0 2,
   i .alterStatement 1 2, i .alterStatement 2 2], [i .dropStatement 2 2], [i .dropStatement 3 2],
  [i .dropStatement 0 2], [i .dropStatement 1 2], [i .selectWithParen 1 2],
  [i .selectWithParen 0 2], [], [i .statementList 1 2, i .optSemicolon 0 1], [i .input 0 2],
  [i .setType 1 1], [i .setType 2 1], [i .setType 0 1], [i .selectStatement 2 2],
  [i .setOperator 0 1], [i .optOrder 0 1], [i .selectNoParen 1 2], [i .selectNoParen 0 2],
  [i .optNotExists 0 1], [i .createStatement 3 3], [i .createStatement 1 3],
  [i .createStatement 2 3], [i .optTemporary 1 1], [i .optTemporary 0 1],
  [i .createStatement 0 3], [i .deleteStatement 0 3], [i .optOrReplace 0 2],
  [i .insertStatement 0 3, i .insertStatement 1 3], [i .columnName 1 2, i .columnName 3 2],
  [i .existsExpr 0 2], [i .caseList 0 1], [i .logicExpr 0 1, i .logicExpr 1 1, i .caseExpr 0 2,
   i .caseExpr 1 2], [i .caseExpr 2 2, i .caseExpr 3 2, i .caseList 1 1], [i .existsExpr 1 2],
  [i .unaryExpr 1 1], [i .unaryExpr 1 2, i .unaryExpr 2 1, i .unaryExpr 3 1, i .unaryExpr 4 1,
   i .binaryExpr 1 1, i .binaryExpr 2 1, i .binaryExpr 3 1, i .binaryExpr 4 1, i .binaryExpr 5 1,
   i .binaryExpr 6 1, i .binaryExpr 7 1, i .binaryExpr 8 1, i .binaryExpr 9 1, i .binaryExpr 10 1,
   i .binaryExpr 11 1, i .binaryExpr 12 1, i .binaryExpr 13 1, i .binaryExpr 14 1,
   i .compExpr 0 1, i .compExpr 1 1, i .compExpr 2 1, i .compExpr 3 1, i .compExpr 4 1,
   i .compExpr 5 1], [i .unaryExpr 0 2, i .binaryExpr 3 1, i .binaryExpr 4 1, i .binaryExpr 5 1,
   i .binaryExpr 6 1, i .binaryExpr 13 1, i .binaryExpr 14 1], [i .operand 6 2], [i .operand 0 2,
   i .logicExpr 0 1, i .logicExpr 1 1], [i .paramExpr 1 2], [i .logicExpr 0 2],
  [i .logicExpr 1 2], [i .betweenExpr 0 2], [i .unaryExpr 2 2], [i .binaryExpr 14 2],
  [i .binaryExpr 7 2, i .binaryExpr 10 2], [i .binaryExpr 8 2, i .binaryExpr 11 2, i .inExpr 1 2,
   i .inExpr 3 2, i .inExpr 5 2], [i .inExpr 0 2, i .inExpr 2 2, i .inExpr 4 2],
  [i .unaryExpr 3 2, i .unaryExpr 4 2], [i .compExpr 0 2], [i .compExpr 1 2], [i .binaryExpr 9 2,
   i .binaryExpr 12 2], [i .compExpr 2 2], [i .compExpr 3 2], [i .compExpr 4 2],
  [i .compExpr 5 2], [i .binaryExpr 2 2], [i .binaryExpr 1 2], [i .binaryExpr 4 2],
  [i .binaryExpr 3 2], [i .binaryExpr 5 2], [i .binaryExpr 6 2], [i .binaryExpr 13 2],
  [i .functionExpr 0 2, i .functionExpr 1 2], [i .selectClause 0 3], [i .selectList 0 1,
   i .exprList 1 1], [i .exprList 0 1], [i .exprAlias 0 1, i .logicExpr 0 1, i .logicExpr 1 1],
  [i .updateStatement 0 3], [i .tableName 1 2], [i .alterStatement 0 3, i .alterStatement 1 3,
   i .alterStatement 2 3], [i .optExists 0 1], [i .dropStatement 2 3], [i .dropStatement 3 3],
  [i .dropStatement 0 3], [i .dropStatement 1 3], [i .selectWithParen 1 3],
  [i .selectWithParen 0 3], [i .statementList 1 3], [i .selectParenOrClause 0 1],
  [i .selectStatement 2 3], [i .selectParenOrClause 1 1], [i .optAll 0 1], [i .setOperator 0 2],
  [i .optOrder 0 2], [i .selectNoParen 1 3], [i .optLimit 0 1, i .optLimit 1 1, i .optLimit 2 1],
  [i .selectNoParen 0 3], [i .optNotExists 0 2], [i .createStatement 3 4],
  [i .createStatement 1 4], [i .createStatement 2 4], [i .createStatement 0 4], [i .optWhere 0 1],
  [i .deleteStatement 0 4], [i .insertStatement 0 4, i .insertStatement 1 4], [i .columnName 3 3],
  [i .columnName 1 3], [i .existsExpr 0 3], [i .logicExpr 0 1, i .logicExpr 1 1, i .caseList 0 2],
  [i .caseExpr 0 3, i .caseExpr 1 3, i .caseList 1 1], [i .caseExpr 3 3], [i .caseList 1 2],
  [i .caseExpr 2 3], [i .existsExpr 1 3], [i .binaryExpr 8 2, i .binaryExpr 11 2],
  [i .operand 6 3], [i .operand 0 3], [i .logicExpr 0 3], [i .logicExpr 0 1, i .logicExpr 1 3],
  [i .unaryExpr 2 1, i .unaryExpr 3 1, i .unaryExpr 4 1, i .binaryExpr 1 1, i .binaryExpr 2 1,
   i .binaryExpr 3 1, i .binaryExpr 4 1, i .binaryExpr 5 1, i .binaryExpr 6 1, i .binaryExpr 7 1,
   i .binaryExpr 8 1, i .binaryExpr 9 1, i .binaryExpr 10 1, i .binaryExpr 11 1,
   i .binaryExpr 12 1, i .binaryExpr 13 1, i .binaryExpr 14 1, i .compExpr 0 1, i .compExpr 1 1,
   i .compExpr 2 1, i .compExpr 3 1, i .compExpr 4 1, i .compExpr 5 1, i .betweenExpr 0 3],
  [i .unaryExpr 2 1, i .unaryExpr 3 1, i .unaryExpr 4 1, i .binaryExpr 1 1, i .binaryExpr 2 1,
   i .binaryExpr 3 1, i .binaryExpr 4 1, i .binaryExpr 5 1, i .binaryExpr 6 1, i .binaryExpr 7 1,
   i .binaryExpr 8 1, i .binaryExpr 9 1, i .binaryExpr 10 1, i .binaryExpr 11 1,
   i .binaryExpr 12 1, i .binaryExpr 13 1, i .binaryExpr 14 1, i .binaryExpr 14 3,
   i .compExpr 0 1, i .compExpr 1 1, i .compExpr 2 1, i .compExpr 3 1, i .compExpr 4 1,
   i .compExpr 5 1], [i .unaryExpr 2 1, i .unaryExpr 3 1, i .unaryExpr 4 1, i .binaryExpr 1 1,
   i .binaryExpr 2 1, i .binaryExpr 3 1, i .binaryExpr 4 1, i .binaryExpr 5 1, i .binaryExpr 6 1,
   i .binaryExpr 7 3, i .binaryExpr 10 3, i .binaryExpr 13 1, i .binaryExpr 14 1, i .compExpr 2 1,
   i .compExpr 3 1, i .compExpr 4 1, i .compExpr 5 1], [i .binaryExpr 8 3, i .binaryExpr 11 3],
  [i .inExpr 1 3, i .inExpr 3 3, i .inExpr 5 3], [i .inExpr 0 3, i .inExpr 2 3, i .inExpr 4 3],
  [i .unaryExpr 3 3], [i .unaryExpr 4 3], [i .unaryExpr 2 1, i .unaryExpr 3 1, i .unaryExpr 4 1,
   i .binaryExpr 1 1, i .binaryExpr 2 1, i .binaryExpr 3 1, i .binaryExpr 4 1, i .binaryExpr 5 1,
   i .binaryExpr 6 1, i .binaryExpr 13 1, i .binaryExpr 14 1, i .compExpr 0 3, i .compExpr 2 1,
   i .compExpr 3 1, i .compExpr 4 1, i .compExpr 5 1], [i .unaryExpr 2 1, i .unaryExpr 3 1,
   i .unaryExpr 4 1, i .binaryExpr 1 1, i .binaryExpr 2 1, i .binaryExpr 3 1, i .binaryExpr 4 1,
   i .binaryExpr 5 1, i .binaryExpr 6 1, i .binaryExpr 13 1, i .binaryExpr 14 1, i .compExpr 1 3,
   i .compExpr 2 1, i .compExpr 3 1, i .compExpr 4 1, i .compExpr 5 1], [i .unaryExpr 2 1,
   i .unaryExpr 3 1, i .unaryExpr 4 1, i .binaryExpr 1 1, i .binaryExpr 2 1, i .binaryExpr 3 1,
   i .binaryExpr 4 1, i .binaryExpr 5 1, i .binaryExpr 6 1, i .binaryExpr 9 3, i .binaryExpr 12 3,
   i .binaryExpr 13 1, i .binaryExpr 14 1, i .compExpr 2 1, i .compExpr 3 1, i .compExpr 4 1,
   i .compExpr 5 1], [i .unaryExpr 2 1, i .unaryExpr 3 1, i .unaryExpr 4 1, i .binaryExpr 1 1,
   i .binaryExpr 2 1, i .binaryExpr 3 1, i .binaryExpr 4 1, i .binaryExpr 5 1, i .binaryExpr 6 1,
   i .binaryExpr 13 1, i .binaryExpr 14 1, i .compExpr 2 3], [i .unaryExpr 2 1, i .unaryExpr 3 1,
   i .unaryExpr 4 1, i .binaryExpr 1 1, i .binaryExpr 2 1, i .binaryExpr 3 1, i .binaryExpr 4 1,
   i .binaryExpr 5 1, i .binaryExpr 6 1, i .binaryExpr 13 1, i .binaryExpr 14 1, i .compExpr 3 3],
  [i .unaryExpr 2 1, i .unaryExpr 3 1, i .unaryExpr 4 1, i .binaryExpr 1 1, i .binaryExpr 2 1,
   i .binaryExpr 3 1, i .binaryExpr 4 1, i .binaryExpr 5 1, i .binaryExpr 6 1, i .binaryExpr 13 1,
   i .binaryExpr 14 1, i .compExpr 4 3], [i .unaryExpr 2 1, i .unaryExpr 3 1, i .unaryExpr 4 1,
   i .binaryExpr 1 1, i .binaryExpr 2 1, i .binaryExpr 3 1, i .binaryExpr 4 1, i .binaryExpr 5 1,
   i .binaryExpr 6 1, i .binaryExpr 13 1, i .binaryExpr 14 1, i .compExpr 5 3],
  [i .binaryExpr 2 3, i .binaryExpr 3 1, i .binaryExpr 4 1, i .binaryExpr 5 1, i .binaryExpr 6 1,
   i .binaryExpr 13 1, i .binaryExpr 14 1], [i .binaryExpr 1 3, i .binaryExpr 3 1,
   i .binaryExpr 4 1, i .binaryExpr 5 1, i .binaryExpr 6 1, i .binaryExpr 13 1,
   i .binaryExpr 14 1], [i .binaryExpr 4 3, i .binaryExpr 6 1, i .binaryExpr 13 1,
   i .binaryExpr 14 1], [i .binaryExpr 3 3, i .binaryExpr 6 1, i .binaryExpr 13 1,
   i .binaryExpr 14 1], [i .binaryExpr 5 3, i .binaryExpr 6 1, i .binaryExpr 13 1,
   i .binaryExpr 14 1], [i .binaryExpr 6 3, i .binaryExpr 13 1, i .binaryExpr 14 1],
  [i .binaryExpr 13 3, i .binaryExpr 14 1], [i .functionExpr 0 3], [i .functionExpr 1 3],
  [i .fromClause 0 1], [i .selectClause 0 4], [i .exprList 1 2], [i .«alias» 2 1],
  [i .«alias» 3 1], [i .«alias» 0 1, i .«alias» 1 1], [i .optAlias 0 1], [i .exprAlias 0 2],
  [i .updateStatement 0 4, i .updateClauseCommalist 1 1], [i .updateClauseCommalist 0 1],
  [i .updateClause 0 1], [i .tableName 1 3], [i .alterStatement 0 4, i .alterStatement 1 4],
  [i .alterStatement 2 4], [i .optExists 0 2], [i .dropStatement 2 4], [i .dropStatement 3 4],
  [i .dropStatement 0 4], [i .dropStatement 1 4], [i .selectStatement 2 4], [i .optOrder 0 3,
   i .orderList 1 1], [i .orderList 0 1], [i .orderDesc 0 1, i .orderDesc 1 1, i .logicExpr 0 1,
   i .logicExpr 1 1], [i .selectNoParen 1 4], [i .optLimit 0 2, i .optLimit 1 2, i .optLimit 2 2,
   i .logicExpr 0 1, i .logicExpr 1 1], [i .optNotExists 0 3], [i .triggerType 2 1],
  [i .triggerType 0 1], [i .triggerType 1 1], [i .createStatement 3 5], [i .optColumnList 0 1],
  [i .createStatement 1 5], [i .createStatement 2 5], [i .createStatement 0 5], [i .optWhere 0 2,
   i .logicExpr 0 1, i .logicExpr 1 1], [i .insertStatement 0 5, i .insertStatement 1 5],
  [i .existsExpr 0 4], [i .caseList 0 3], [i .caseExpr 1 4], [i .caseExpr 0 4], [i .logicExpr 0 1,
   i .logicExpr 1 1, i .caseExpr 3 4], [i .logicExpr 0 1, i .logicExpr 1 1, i .caseList 1 3],
  [i .existsExpr 1 4], [i .betweenExpr 0 4], [i .binaryExpr 10 4], [i .unaryExpr 2 1,
   i .unaryExpr 3 1, i .unaryExpr 4 1, i .binaryExpr 1 1, i .binaryExpr 2 1, i .binaryExpr 3 1,
   i .binaryExpr 4 1, i .binaryExpr 5 1, i .binaryExpr 6 1, i .binaryExpr 8 4, i .binaryExpr 11 4,
   i .binaryExpr 13 1, i .binaryExpr 14 1, i .compExpr 2 1, i .compExpr 3 1, i .compExpr 4 1,
   i .compExpr 5 1], [i .inExpr 1 4, i .inExpr 3 4, i .inExpr 5 4], [i .inExpr 4 4],
  [i .inExpr 2 4], [i .exprList 1 1, i .inExpr 0 4], [i .unaryExpr 4 4], [i .binaryExpr 12 4],
  [i .exprList 1 1, i .functionExpr 1 4], [i .nonjoinTableRefAtomic 1 1], [i .fromClause 0 2],
  [i .tableRef 0 1, i .tableRefCommalist 0 1, i .joinClause 0 1, i .joinClause 1 1,
   i .joinClause 2 1], [i .tableRefAtomic 0 1], [i .tableRef 1 1, i .tableRefCommalist 1 1],
  [i .nonjoinTableRefAtomic 0 1], [i .tableRefName 0 1], [i .tableRefAtomic 1 1],
  [i .selectClause 0 5], [i .exprList 1 3], [i .«alias» 0 2], [i .«alias» 1 2],
  [i .updateClauseCommalist 1 2], [i .updateStatement 0 5], [i .updateClause 0 2],
  [i .alterStatement 1 5], [i .alterStatement 0 5], [i .alterStatement 2 5], [i .columnDef 0 1,
   i .columnDef 1 1], [i .selectStatement 2 5], [i .orderList 1 2], [i .orderDesc 0 2],
  [i .optOrderType 1 1], [i .optOrderType 0 1], [i .orderDesc 1 2], [i .selectNoParen 1 5],
  [i .optLimit 1 3], [i .optLimit 2 3], [i .triggerType 2 2], [i .triggerEvent 0 1],
  [i .triggerEvent 1 1], [i .triggerEvent 2 1], [i .createStatement 3 6], [i .optColumnList 0 2,
   i .identCommalist 1 1], [i .identCommalist 0 1], [i .createStatement 1 6],
  [i .createStatement 2 6], [i .createStatement 0 6], [i .insertStatement 0 6],
  [i .insertStatement 1 6], [i .logicExpr 0 1, i .logicExpr 1 1, i .caseList 0 4],
  [i .logicExpr 0 1, i .logicExpr 1 1, i .caseExpr 1 5], [i .caseExpr 3 5], [i .caseList 1 4],
  [i .existsExpr 1 5], [i .unaryExpr 2 1, i .unaryExpr 3 1, i .unaryExpr 4 1, i .binaryExpr 1 1,
   i .binaryExpr 2 1, i .binaryExpr 3 1, i .binaryExpr 4 1, i .binaryExpr 5 1, i .binaryExpr 6 1,
   i .binaryExpr 7 1, i .binaryExpr 8 1, i .binaryExpr 9 1, i .binaryExpr 10 1,
   i .binaryExpr 11 1, i .binaryExpr 12 1, i .binaryExpr 13 1, i .binaryExpr 14 1,
   i .compExpr 0 1, i .compExpr 1 1, i .compExpr 2 1, i .compExpr 3 1, i .compExpr 4 1,
   i .compExpr 5 1, i .betweenExpr 0 5], [i .unaryExpr 2 1, i .unaryExpr 3 1, i .unaryExpr 4 1,
   i .binaryExpr 1 1, i .binaryExpr 2 1, i .binaryExpr 3 1, i .binaryExpr 4 1, i .binaryExpr 5 1,
   i .binaryExpr 6 1, i .binaryExpr 7 1, i .binaryExpr 8 1, i .binaryExpr 9 1, i .binaryExpr 10 1,
   i .binaryExpr 10 5, i .binaryExpr 11 1, i .binaryExpr 12 1, i .binaryExpr 13 1,
   i .binaryExpr 14 1, i .compExpr 0 1, i .compExpr 1 1, i .compExpr 2 1, i .compExpr 3 1,
   i .compExpr 4 1, i .compExpr 5 1], [i .binaryExpr 11 5], [i .inExpr 5 5], [i .inExpr 3 5],
  [i .exprList 1 1, i .inExpr 1 5], [i .inExpr 2 5], [i .inExpr 0 5], [i .unaryExpr 2 1,
   i .unaryExpr 3 1, i .unaryExpr 4 1, i .binaryExpr 1 1, i .binaryExpr 2 1, i .binaryExpr 3 1,
   i .binaryExpr 4 1, i .binaryExpr 5 1, i .binaryExpr 6 1, i .binaryExpr 7 1, i .binaryExpr 8 1,
   i .binaryExpr 9 1, i .binaryExpr 10 1, i .binaryExpr 11 1, i .binaryExpr 12 1,
   i .binaryExpr 12 5, i .binaryExpr 13 1, i .binaryExpr 14 1, i .compExpr 0 1, i .compExpr 1 1,
   i .compExpr 2 1, i .compExpr 3 1, i .compExpr 4 1, i .compExpr 5 1], [i .functionExpr 1 5],
  [i .nonjoinTableRefAtomic 1 2], [i .joinClause 0 2], [i .optJoinType 8 1], [i .optJoinType 0 1],
  [i .optJoinType 6 1], [i .optJoinType 3 1, i .optJoinType 4 1], [i .optJoinType 5 1,
   i .optJoinType 7 1], [i .optJoinType 1 1, i .optJoinType 2 1], [i .joinClause 1 2,
   i .joinClause 2 2], [i .tableRef 1 2, i .tableRefCommalist 1 2], [i .indexedBy 0 1,
   i .indexedBy 1 1], [i .optIndexedBy 0 1], [i .tableRefName 0 2], [i .optGroup 0 1],
  [i .selectClause 0 6], [i .updateClauseCommalist 1 3], [i .updateClause 0 3, i .logicExpr 0 1,
   i .logicExpr 1 1], [i .alterStatement 1 6], [i .alterStatement 0 6], [i .columnType 10 1],
  [i .columnType 3 1], [i .columnType 9 1], [i .columnType 1 1], [i .columnType 7 1],
  [i .columnType 8 1], [i .columnType 5 1], [i .columnType 2 1], [i .columnType 6 1],
  [i .columnType 4 1], [i .columnType 0 1], [i .columnDef 0 2, i .columnDef 1 2],
  [i .orderList 1 3], [i .orderDesc 0 3], [i .optLimit 1 4, i .logicExpr 0 1, i .logicExpr 1 1],
  [i .optLimit 2 4, i .logicExpr 0 1, i .logicExpr 1 1], [i .createStatement 3 7],
  [i .optColumnList 0 3], [i .identCommalist 1 2], [i .createStatement 1 7],
  [i .createStatement 2 7], [i .createStatement 0 7], [i .insertStatement 0 7], [i .caseExpr 1 6],
  [i .logicExpr 0 1, i .logicExpr 1 1, i .caseList 1 5], [i .unaryExpr 2 1, i .unaryExpr 3 1,
   i .unaryExpr 4 1, i .binaryExpr 1 1, i .binaryExpr 2 1, i .binaryExpr 3 1, i .binaryExpr 4 1,
   i .binaryExpr 5 1, i .binaryExpr 6 1, i .binaryExpr 7 1, i .binaryExpr 8 1, i .binaryExpr 9 1,
   i .binaryExpr 10 1, i .binaryExpr 11 1, i .binaryExpr 11 6, i .binaryExpr 12 1,
   i .binaryExpr 13 1, i .binaryExpr 14 1, i .compExpr 0 1, i .compExpr 1 1, i .compExpr 2 1,
   i .compExpr 3 1, i .compExpr 4 1, i .compExpr 5 1], [i .inExpr 3 6], [i .inExpr 1 6],
  [i .nonjoinTableRefAtomic 1 3], [i .joinClause 0 3], [i .optJoinType 3 2], [i .optJoinType 5 2],
  [i .optJoinType 1 2], [i .joinClause 1 3, i .joinClause 2 3], [i .tableRef 1 3,
   i .tableRefCommalist 1 3, i .joinClause 0 1, i .joinClause 1 1, i .joinClause 2 1],
  [i .indexedBy 0 2, i .indexedBy 1 2], [i .tableRefName 0 3], [i .optGroup 0 2],
  [i .alterStatement 1 7], [i .columnConstraint 5 1], [i .foreignKeyConstraint 0 1],
  [i .columnConstraint 4 1], [i .columnConstraint 2 1], [i .columnConstraint 0 1],
  [i .columnConstraint 3 1], [i .columnConstraint 1 1], [i .columnDef 1 3], [i .columnDef 0 3],
  [i .columnConstraintListNullable 0 1, i .columnConstraintList 1 1],
  [i .columnConstraintList 0 1], [i .columnConstraint 6 1], [i .orderDesc 0 4],
  [i .createStatement 3 8], [i .identCommalist 1 3], [i .createStatement 2 8],
  [i .createStatement 0 8, i .columnDefCommalist 1 1], [i .columnDefCommalist 0 1],
  [i .insertStatement 0 8, i .exprList 1 1], [i .nonjoinTableRefAtomic 1 4], [i .joinClause 0 4],
  [i .joinClause 0 1, i .joinClause 1 1, i .joinClause 1 4, i .joinClause 2 1, i .joinClause 2 4],
  [i .indexedBy 0 3], [i .indexedBy 1 3], [i .optGroup 0 3, i .exprList 1 1],
  [i .alterStatement 1 8], [i .foreignKeyConstraint 0 2], [i .columnConstraint 4 2,
   i .logicExpr 0 1, i .logicExpr 1 1], [i .columnConstraint 0 2], [i .columnConstraint 1 2],
  [i .columnDef 1 4], [i .columnConstraintList 1 2], [i .createStatement 3 9],
  [i .createStatement 2 9, i .indexedColumnList 1 1], [i .indexedColumnList 0 1],
  [i .indexedColumn 0 1, i .indexedColumn 1 1], [i .columnDefCommalist 1 2, i .optComa 0 1],
  [i .createStatement 0 9], [i .insertStatement 0 9], [i .joinClause 2 5], [i .joinClause 1 5],
  [i .optHaving 0 1], [i .optGroup 0 4], [i .foreignKeyConstraint 0 3], [i .columnDef 1 5],
  [i .statementList 1 1, i .createStatement 3 10], [i .createStatement 2 10],
  [i .indexedColumnList 1 2], [i .indexedColumn 1 2], [i .indexedColumn 0 2],
  [i .columnDefCommalist 1 3], [i .tableConstraint 0 1], [i .tableConstraint 1 1],
  [i .tableConstraint 2 1], [i .tableConstraint 3 1], [i .createStatement 0 10,
   i .optTableConstraintList 1 1], [i .optTableConstraintList 0 1], [i .joinClause 2 6],
  [i .logicExpr 0 1, i .logicExpr 1 1, i .joinCondition 0 1], [i .joinClause 1 6],
  [i .optHaving 0 2, i .logicExpr 0 1, i .logicExpr 1 1], [i .foreignKeyEvent 2 1],
  [i .foreignKeyEvent 0 1, i .foreignKeyEvent 1 1], [i .foreignKeyConstraint 0 4,
   i .foreignKeyEventList 1 1], [i .foreignKeyEventList 0 1], [i .columnDef 1 6],
  [i .createStatement 3 11], [i .indexedColumnList 1 3], [i .indexedColumn 1 3],
  [i .tableConstraint 0 2], [i .tableConstraint 1 2], [i .tableConstraint 2 2],
  [i .tableConstraint 3 2], [i .createStatement 0 11], [i .optTableConstraintList 1 2],
  [i .columnName 0 1, i .columnName 1 1, i .columnName 3 1], [i .joinClause 2 7],
  [i .foreignKeyEvent 2 2], [i .foreignKeyEvent 0 2], [i .foreignKeyEvent 1 2],
  [i .optForeignKeyDeferrable 0 1, i .optForeignKeyDeferrable 4 1,
   i .optForeignKeyDeferrable 5 1], [i .optForeignKeyDeferrable 1 1,
   i .optForeignKeyDeferrable 2 1, i .optForeignKeyDeferrable 3 1], [i .foreignKeyConstraint 0 5],
  [i .foreignKeyEventList 1 2], [i .createStatement 3 12], [i .indexedColumn 1 4],
  [i .tableConstraint 0 3], [i .tableConstraint 1 3], [i .tableConstraint 2 3,
   i .identCommalist 1 1], [i .tableConstraint 3 3, i .logicExpr 0 1, i .logicExpr 1 1],
  [i .optTableConstraintList 1 3], [i .joinClause 2 8], [i .foreignKeyAction 3 1],
  [i .foreignKeyAction 2 1], [i .foreignKeyAction 0 1, i .foreignKeyAction 1 1],
  [i .foreignKeyAction 4 1], [i .foreignKeyEvent 0 3], [i .foreignKeyEvent 1 3],
  [i .optForeignKeyDeferrable 0 2, i .optForeignKeyDeferrable 4 2],
  [i .optForeignKeyDeferrable 1 2, i .optForeignKeyDeferrable 2 2,
   i .optForeignKeyDeferrable 3 2], [i .tableConstraint 0 4, i .identCommalist 1 1],
  [i .tableConstraint 1 4, i .identCommalist 1 1], [i .tableConstraint 2 4],
  [i .tableConstraint 3 4], [i .foreignKeyAction 1 2], [i .foreignKeyAction 0 2],
  [i .foreignKeyAction 4 2], [i .optForeignKeyDeferrable 4 3], [i .optForeignKeyDeferrable 0 3],
  [i .optForeignKeyDeferrable 1 3, i .optForeignKeyDeferrable 2 3], [i .tableConstraint 0 5],
  [i .tableConstraint 1 5], [i .optConflictClause 0 1, i .optConflictClause 1 1,
   i .optConflictClause 2 1, i .optConflictClause 3 1, i .optConflictClause 4 1],
  [i .tableConstraint 2 5], [i .optForeignKeyDeferrable 2 4], [i .optForeignKeyDeferrable 1 4],
  [i .tableConstraint 0 6], [i .tableConstraint 1 6], [i .optConflictClause 0 2,
   i .optConflictClause 1 2, i .optConflictClause 2 2, i .optConflictClause 3 2,
   i .optConflictClause 4 2], [i .optConflictClause 0 3], [i .optConflictClause 4 3],
  [i .optConflictClause 3 3], [i .optConflictClause 1 3], [i .optConflictClause 2 3]]
def itemsAt (q : Nat) : List DottedRule := items.getD q []

end Tables

end Hsql
