import Hsql.Bison.Driver
import Hsql.Sql.Statement

/-! The symbols of the grammar and the values they carry. -/

namespace Hsql

/-- Members of the value union. One for each enumeration that the source keeps in `uval`, and one
for the symbols without a type. -/
inductive Member where
  | none | statement | selectStmt | createStmt | insertStmt | deleteStmt | updateStmt | dropStmt
  | pragmaStmt | alterStmt | sval | bval | tableName | table | expr | order | orderType | limit
  | columnT | cconstraintT | groupT | updateT | fkconstraintT | fkeventT | tconstraintT | indexedcT
  | stmtVec | strVec | tableVec | columnVec | cconstraintVec | updateVec | exprVec | orderVec
  | fkeventVec | tconstraintVec | indexedcVec
  | joinType | columnType | triggerType | triggerEvent | foreignKeyAction | foreignKeyDeferrable
  | conflictClause

abbrev Member.Val : Member → Type
  | none => Unit
  | statement => Option SQLStatement
  | selectStmt => Option SelectStatement
  | createStmt => Option CreateStatement
  | insertStmt => Option InsertStatement
  | deleteStmt => Option DeleteStatement
  | updateStmt => Option UpdateStatement
  | dropStmt => Option DropStatement
  | pragmaStmt => Option PragmaStatement
  | alterStmt => Option AlterStatement
  | sval => Option Str
  | bval => Bool
  | tableName => TableName
  | table => Option TableRef
  | expr => Option Expr
  | order => Option OrderDescription
  | orderType => OrderType
  | limit => Option LimitDescription
  | columnT => Option ColumnDefinition
  | cconstraintT => Option ColumnConstraint
  | groupT => Option GroupByDescription
  | updateT => Option UpdateClause
  | fkconstraintT => Option ForeignKeyConstraint
  | fkeventT => Option ForeignKeyEvent
  | tconstraintT => Option TableConstraint
  | indexedcT => Option IndexedColumn
  | stmtVec => Option (List (Option SQLStatement))
  | strVec => Option (List (Option Str))
  | tableVec => Option (List (Option TableRef))
  | columnVec => Option (List (Option ColumnDefinition))
  | cconstraintVec => Option (List (Option ColumnConstraint))
  | updateVec => Option (List (Option UpdateClause))
  | exprVec => Option (List (Option Expr))
  | orderVec => Option (List (Option OrderDescription))
  | fkeventVec => Option (List (Option ForeignKeyEvent))
  | tconstraintVec => Option (List (Option TableConstraint))
  | indexedcVec => Option (List (Option IndexedColumn))
  | joinType => JoinType
  | columnType => DataType
  | triggerType => TriggerType
  | triggerEvent => TriggerEvent
  | foreignKeyAction => ForeignKeyEventAction
  | foreignKeyDeferrable => ForeignKeyDeferred
  | conflictClause => ConflictClause

inductive NT where
  | input | statementList | statement | alterStatement | pragmaStatement | createStatement
  | indexedColumnList | indexedColumn | optUnique | optNotExists | optVirtual | optTemporary
  | columnDefCommalist | columnDef | columnConstraintListNullable | columnConstraintList
  | columnConstraint | foreignKeyConstraint | optForeignKeyDeferrable | foreignKeyEventList
  | foreignKeyEvent | foreignKeyAction | columnType | triggerType | triggerEvent
  | optTableConstraintList | tableConstraint | optConflictClause | dropStatement | optExists
  | deleteStatement | insertStatement | optOrReplace | optColumnList | updateStatement
  | updateClauseCommalist | updateClause | selectStatement | selectWithParen
  | selectParenOrClause | selectNoParen | setOperator | setType | optAll | selectClause
  | optDistinct | selectList | fromClause | optWhere | optGroup | optHaving | optOrder
  | orderList | orderDesc | optOrderType | optLimit | exprList | exprAlias | expr | operand
  | scalarExpr | unaryExpr | binaryExpr | logicExpr | inExpr | caseExpr | caseList | existsExpr
  | compExpr | functionExpr | betweenExpr | columnName | literal | stringLiteral | numLiteral
  | intLiteral | nullLiteral | paramExpr | tableRef | tableRefAtomic | nonjoinTableRefAtomic
  | tableRefCommalist | tableRefName | indexedBy | optIndexedBy | tableRefNameNoAlias | tableName
  | «alias» | optAlias | joinClause | optJoinType | joinCondition | optSemicolon | optComa
  | identCommalist | stringOrToken
deriving DecidableEq

abbrev NT.member : NT → Member
  | .input | .setOperator | .setType | .optAll | .optSemicolon | .optComa => .none
  | .statementList => .stmtVec
  | .statement => .statement
  | .alterStatement => .alterStmt
  | .pragmaStatement => .pragmaStmt
  | .createStatement => .createStmt
  | .indexedColumnList => .indexedcVec
  | .indexedColumn => .indexedcT
  | .optUnique | .optNotExists | .optVirtual | .optTemporary | .optExists | .optOrReplace
  | .optDistinct => .bval
  | .columnDefCommalist => .columnVec
  | .columnDef => .columnT
  | .columnConstraintListNullable | .columnConstraintList => .cconstraintVec
  | .columnConstraint => .cconstraintT
  | .foreignKeyConstraint => .fkconstraintT
  | .optForeignKeyDeferrable => .foreignKeyDeferrable
  | .foreignKeyEventList => .fkeventVec
  | .foreignKeyEvent => .fkeventT
  | .foreignKeyAction => .foreignKeyAction
  | .columnType => .columnType
  | .triggerType => .triggerType
  | .triggerEvent => .triggerEvent
  | .optTableConstraintList => .tconstraintVec
  | .tableConstraint => .tconstraintT
  | .optConflictClause => .conflictClause
  | .dropStatement => .dropStmt
  | .deleteStatement => .deleteStmt
  | .insertStatement => .insertStmt
  | .optColumnList | .identCommalist => .strVec
  | .updateStatement => .updateStmt
  | .updateClauseCommalist => .updateVec
  | .updateClause => .updateT
  | .selectStatement | .selectWithParen | .selectParenOrClause | .selectNoParen | .selectClause =>
    .selectStmt
  | .selectList | .exprList => .exprVec
  | .fromClause | .tableRef | .tableRefAtomic | .nonjoinTableRefAtomic | .tableRefName
  | .tableRefNameNoAlias | .joinClause => .table
  | .optWhere | .optHaving | .exprAlias | .expr | .operand | .scalarExpr | .unaryExpr
  | .binaryExpr | .logicExpr | .inExpr | .caseExpr | .caseList | .existsExpr | .compExpr
  | .functionExpr | .betweenExpr | .columnName | .literal | .stringLiteral | .numLiteral
  | .intLiteral | .nullLiteral | .paramExpr | .joinCondition => .expr
  | .optGroup => .groupT
  | .optOrder | .orderList => .orderVec
  | .orderDesc => .order
  | .optOrderType => .orderType
  | .optLimit => .limit
  | .tableRefCommalist => .tableVec
  | .indexedBy | .optIndexedBy | .«alias» | .optAlias | .stringOrToken => .sval
  | .tableName => .tableName
  | .optJoinType => .joinType

abbrev NT.Val (n : NT) : Type := n.member.Val

abbrev Sym := Symbol TokenKind NT

instance : Coe NT Sym := ⟨.nonterminal⟩

instance : Coe TokenKind Sym := ⟨.terminal⟩

instance : Coe Keyword TokenKind := ⟨.kw⟩

instance : Coe Char TokenKind := ⟨.ch⟩

end Hsql
