import Hsql.Parser.Production

/-! Productions of `CREATE` statements and of column definitions. -/

namespace Hsql
open NT Keyword TokenKind

def createStatementRules : List (Production createStatement) := [
  rule [CREATE, optVirtual, optTemporary, TABLE, optNotExists, tableName, '(', columnDefCommalist,
      optComa, optTableConstraintList, ')'] fun (_, v, t, _, i, n, _, c, _, l, _) =>
    some { CreateStatement.new .kCreateTable with
      isVirtual := some v, isTemporary := some t, ifNotExists := i, schema := n.schema
      tableName := n.name, columns := c, tableConstraints := l },
  rule [CREATE, VIEW, optNotExists, tableName, optColumnList, AS, selectStatement]
    fun (_, _, i, n, c, _, s, _) =>
      some { CreateStatement.new .kCreateView with
        ifNotExists := i, schema := n.schema, tableName := n.name, viewColumns := c, select := s },
  rule [CREATE, optUnique, INDEX, optNotExists, stringOrToken, ON, tableName, '(',
      indexedColumnList, ')'] fun (_, u, _, i, x, _, n, _, l, _) =>
    some { CreateStatement.new .kCreateIndex with
      isUnique := u, ifNotExists := i, indexName := x, schema := n.schema, tableName := n.name
      indexedColumns := l },
  rule [CREATE, TRIGGER, optNotExists, stringOrToken, triggerType, triggerEvent, ON, tableName,
      BEGIN, statementList, optSemicolon, END] fun (_, _, i, x, t, e, _, n, _, l, _) =>
    some { CreateStatement.new .kCreateTrigger with
      ifNotExists := i, triggerName := x, triggerType := some t, triggerEvent := some e
      schema := n.schema, tableName := n.name, triggerStatementList := l }]

def indexedColumnListRules : List (Production indexedColumnList) := [
  rule [indexedColumn] fun (c, _) => vector c,
  deref [indexedColumnList, ',', indexedColumn] fun (l, _, c, _) => pushBack l c]

def indexedColumnRules : List (Production indexedColumn) := [
  rule [stringOrToken, optOrderType] fun (a, o, _) => IndexedColumn.new a o,
  rule [stringOrToken, COLLATE, stringOrToken, optOrderType] fun (a, _, c, o, _) =>
    some { IndexedColumn.new a o with collation := c }]

def optUniqueRules : List (Production optUnique) := [
  rule [UNIQUE] fun _ => true,
  rule [] fun _ => false]

def optNotExistsRules : List (Production optNotExists) := [
  rule [IF, NOT, EXISTS] fun _ => true,
  rule [] fun _ => false]

def optVirtualRules : List (Production optVirtual) := [
  rule [VIRTUAL] fun _ => true,
  rule [] fun _ => false]

def optTemporaryRules : List (Production optTemporary) := [
  rule [TEMP] fun _ => true,
  rule [TEMPORARY] fun _ => true,
  rule [] fun _ => false]

def columnDefCommalistRules : List (Production columnDefCommalist) := [
  rule [columnDef] fun (c, _) => vector c,
  deref [columnDefCommalist, ',', columnDef] fun (l, _, c, _) => pushBack l c]

/-- Conversion to a 32-bit `int`. -/
def toInt (i : Int) : Int := i.bmod (2 ^ 32)

def columnDefRules : List (Production columnDef) := [
  deref [stringOrToken, columnType, columnConstraintListNullable] fun (a, t, l, _) =>
    (ColumnDefinition.new a t l).map some,
  deref [stringOrToken, columnType, '(', INTVAL, ')', columnConstraintListNullable]
    fun (a, t, _, i, _, l, _) => (ColumnDefinition.new a t l).map fun c =>
      some { c with hasTypemod := true, typemod := some (toInt i) }]

def columnConstraintListNullableRules : List (Production columnConstraintListNullable) := [
  rule [columnConstraintList] fun (l, _) => l,
  rule [] fun _ => some []]

def columnConstraintListRules : List (Production columnConstraintList) := [
  rule [columnConstraint] fun (c, _) => vector c,
  deref [columnConstraintList, columnConstraint] fun (l, c, _) => pushBack l c]

def columnConstraintRules : List (Production columnConstraint) := [
  rule [PRIMARY, KEY] fun _ => ColumnConstraint.new .PRIMARYKEY,
  rule [NOT, NULL] fun _ => ColumnConstraint.new .NOTNULL,
  rule [NOTNULL] fun _ => ColumnConstraint.new .NOTNULL,
  rule [UNIQUE] fun _ => ColumnConstraint.new .UNIQUE,
  rule [DEFAULT, expr] fun (_, e, _) => ColumnConstraint.withExpr .DEFAULT e,
  rule [AUTOINCREMENT] fun _ => ColumnConstraint.new .AUTOINCREMENT,
  rule [foreignKeyConstraint] fun (c, _) => ColumnConstraint.withConstraint .FOREIGNKEY c]

def foreignKeyConstraintRules : List (Production foreignKeyConstraint) := [
  rule [REFERENCES, stringOrToken, optColumnList, foreignKeyEventList, optForeignKeyDeferrable]
    fun (_, a, c, e, d, _) =>
      some { ForeignKeyConstraint.new a with columns := c, events := e, deferred := d }]

def optForeignKeyDeferrableRules : List (Production optForeignKeyDeferrable) := [
  rule [DEFERRABLE, INITIALLY, DEFERRED] fun _ => .kDeferred,
  rule [NOT, DEFERRABLE, INITIALLY, DEFERRED] fun _ => .kNotDeferred,
  rule [NOT, DEFERRABLE, INITIALLY, IMMEDIATE] fun _ => .kNotDeferred,
  rule [NOT, DEFERRABLE] fun _ => .kNotDeferred,
  rule [DEFERRABLE, INITIALLY, IMMEDIATE] fun _ => .kNotDeferred,
  rule [DEFERRABLE] fun _ => .kNotDeferred,
  rule [] fun _ => .kUndefined]

def foreignKeyEventListRules : List (Production foreignKeyEventList) := [
  rule [foreignKeyEvent] fun (e, _) => vector e,
  deref [foreignKeyEventList, foreignKeyEvent] fun (l, e, _) => pushBack l e,
  rule [] fun _ => none]

def foreignKeyEventRules : List (Production foreignKeyEvent) := [
  rule [ON, DELETE, foreignKeyAction] fun (_, _, a, _) =>
    some { ForeignKeyEvent.new .kFKDelete with action := some a },
  rule [ON, UPDATE, foreignKeyAction] fun (_, _, a, _) =>
    some { ForeignKeyEvent.new .kFKUpdate with action := some a },
  rule [MATCH, stringOrToken] fun (_, m, _) =>
    some { ForeignKeyEvent.new .kFKMatch with «match» := m }]

def foreignKeyActionRules : List (Production foreignKeyAction) := [
  rule [SET, NULL] fun _ => .kFKSetNull,
  rule [SET, DEFAULT] fun _ => .kFKSetDefault,
  rule [CASCADE] fun _ => .kFKCascade,
  rule [RESTRICT] fun _ => .kFKRestrict,
  rule [NO, ACTION] fun _ => .kFKNoAction]

def columnTypeRules : List (Production columnType) := [
  rule [INT] fun _ => .INTEGER,
  rule [INTEGER] fun _ => .INTEGER,
  rule [LONG] fun _ => .INTEGER,
  rule [BOOLEAN] fun _ => .INTEGER,
  rule [TEXT] fun _ => .TEXT,
  rule [BLOB] fun _ => .BLOB,
  rule [REAL] fun _ => .REAL,
  rule [DOUBLE] fun _ => .REAL,
  rule [FLOAT] fun _ => .REAL,
  rule [VARCHAR] fun _ => .TEXT,
  rule [DATETIME] fun _ => .DATETIME]

def triggerTypeRules : List (Production triggerType) := [
  rule [BEFORE] fun _ => .kTriggerBefore,
  rule [AFTER] fun _ => .kTriggerAfter,
  rule [INSTEAD, OF] fun _ => .kTriggerInsteadOf]

def triggerEventRules : List (Production triggerEvent) := [
  rule [DELETE] fun _ => .kTriggerEventDelete,
  rule [INSERT] fun _ => .kTriggerEventInsert,
  rule [UPDATE] fun _ => .kTriggerEventUpdate]

def optTableConstraintListRules : List (Production optTableConstraintList) := [
  rule [tableConstraint] fun (c, _) => vector c,
  deref [optTableConstraintList, ',', tableConstraint] fun (l, _, c, _) => pushBack l c,
  rule [] fun _ => none]

def tableConstraintRules : List (Production tableConstraint) := [
  rule [FOREIGN, KEY, '(', identCommalist, ')', foreignKeyConstraint] fun (_, _, _, l, _, f, _) =>
    some { TableConstraint.new .kForeignKey with columns := l, foreignKeyConstraint := f },
  rule [PRIMARY, KEY, '(', identCommalist, ')', optConflictClause] fun (_, _, _, l, _, c, _) =>
    some { TableConstraint.new .kPrimaryKey with columns := l, onConflict := some c },
  rule [UNIQUE, '(', identCommalist, ')', optConflictClause] fun (_, _, l, _, c, _) =>
    some { TableConstraint.new .kUnique with columns := l, onConflict := some c },
  rule [CHECK, '(', expr, ')'] fun (_, _, e, _) =>
    some { TableConstraint.new .kCheck with expr := e }]

def optConflictClauseRules : List (Production optConflictClause) := [
  rule [ON, CONFLICT, ROLLBACK] fun _ => .kConflictRollback,
  rule [ON, CONFLICT, ABORT] fun _ => .kConflictAbort,
  rule [ON, CONFLICT, FAIL] fun _ => .kConflictFail,
  rule [ON, CONFLICT, IGNORE] fun _ => .kConflictIgnore,
  rule [ON, CONFLICT, REPLACE] fun _ => .kConflictReplace,
  rule [] fun _ => .kConflictUndefined]

def optComaRules : List (Production optComa) := [
  rule [','] fun _ => (),
  rule [] fun _ => ()]

end Hsql
