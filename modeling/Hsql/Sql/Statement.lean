import Hsql.Sql.Expr

/-! Statements and their parts. The pointer `hints` of the base class stays null and is left out. -/

namespace Hsql

inductive ForeignKeyEventType where
  | kFKDelete | kFKUpdate | kFKMatch
deriving DecidableEq

inductive ForeignKeyEventAction where
  | kFKSetNull | kFKSetDefault | kFKCascade | kFKRestrict | kFKNoAction
deriving DecidableEq

inductive ForeignKeyDeferred where
  | kDeferred | kNotDeferred | kUndefined
deriving DecidableEq

inductive ConstraintType where
  | PRIMARYKEY | NOTNULL | UNIQUE | DEFAULT | AUTOINCREMENT | FOREIGNKEY
deriving DecidableEq

inductive ConflictClause where
  | kConflictUndefined | kConflictRollback | kConflictAbort | kConflictFail | kConflictIgnore
  | kConflictReplace
deriving DecidableEq

inductive TableConstraintType where
  | kPrimaryKey | kForeignKey | kUnique | kCheck
deriving DecidableEq

inductive DataType where
  | UNKNOWN | TEXT | INTEGER | REAL | BLOB | DATETIME
deriving DecidableEq

inductive CreateType where
  | kCreateTable | kCreateView | kCreateIndex | kCreateTrigger
deriving DecidableEq

inductive TriggerType where
  | kTriggerBefore | kTriggerAfter | kTriggerInsteadOf
deriving DecidableEq

inductive TriggerEvent where
  | kTriggerEventDelete | kTriggerEventInsert | kTriggerEventUpdate
deriving DecidableEq

inductive InsertType where
  | kInsertValues | kInsertSelect
deriving DecidableEq

inductive DropType where
  | kDropTable | kDropSchema | kDropIndex | kDropView | kDropPreparedStatement | kDropTrigger
deriving DecidableEq

inductive PragmaType where
  | kPragmaFunction | kPragmaSetValue
deriving DecidableEq

inductive AlterType where
  | kAlterRenameTable | kAlterRenameColumn | kAlterAddColumn
deriving DecidableEq

structure ForeignKeyEvent where
  type : ForeignKeyEventType
  «match» : Option Str
  action : Option ForeignKeyEventAction

def ForeignKeyEvent.new (type : ForeignKeyEventType) : ForeignKeyEvent where
  type := type
  «match» := none
  action := none

structure ForeignKeyConstraint where
  table : Option Str
  columns : Option (List (Option Str))
  events : Option (List (Option ForeignKeyEvent))
  deferred : ForeignKeyDeferred

def ForeignKeyConstraint.new (table : Option Str) : ForeignKeyConstraint where
  table := table
  columns := none
  events := none
  deferred := .kUndefined

structure ColumnConstraint where
  type : ConstraintType
  expr : Option Expr
  fk : Option ForeignKeyConstraint

namespace ColumnConstraint

def new (type : ConstraintType) : ColumnConstraint where
  type := type
  expr := none
  fk := none

def withExpr (type : ConstraintType) (expr : Option Expr) : ColumnConstraint :=
  { new type with expr := expr }

def withConstraint (type : ConstraintType) (fk : Option ForeignKeyConstraint) :
    ColumnConstraint :=
  { new type with fk := fk }

end ColumnConstraint

structure TableConstraint where
  type : TableConstraintType
  columns : Option (List (Option Str))
  expr : Option Expr
  foreignKeyConstraint : Option ForeignKeyConstraint
  onConflict : Option ConflictClause

def TableConstraint.new (type : TableConstraintType) : TableConstraint where
  type := type
  columns := none
  expr := none
  foreignKeyConstraint := none
  onConflict := none

structure ColumnDefinition where
  name : Option Str
  type : DataType
  isPrimaryKey : Bool
  isUnique : Bool
  nullable : Bool
  defaultVal : Option Expr
  isAutoIncrement : Bool
  hasTypemod : Bool
  typemod : Option Int
  isForeignKey : Bool
  foreignKeyConstraint : Option ForeignKeyConstraint

namespace ColumnDefinition

/-- One round of the constructor's loop. What `defaultVal` or `foreignKeyConstraint` held before
is deleted. -/
def constrain (column : ColumnDefinition) (c : ColumnConstraint) : ColumnDefinition :=
  match c.type with
  | .PRIMARYKEY => { column with isPrimaryKey := true, isUnique := true, nullable := false }
  | .NOTNULL => { column with nullable := false }
  | .UNIQUE => { column with isUnique := true }
  | .DEFAULT => { column with defaultVal := c.expr }
  | .AUTOINCREMENT => { column with isAutoIncrement := true }
  | .FOREIGNKEY => { column with isForeignKey := true, foreignKeyConstraint := c.fk }

/-- The constructor fails where the source dereferences a null pointer. -/
def new (name : Option Str) (type : DataType)
    (constraints : Option (List (Option ColumnConstraint))) : Option ColumnDefinition := do
  let l ← constraints
  l.foldlM (fun column c => c.map column.constrain)
    { name := name
      type := type
      isPrimaryKey := false
      isUnique := false
      nullable := true
      defaultVal := none
      isAutoIncrement := false
      hasTypemod := false
      typemod := none
      isForeignKey := false
      foreignKeyConstraint := none }

end ColumnDefinition

structure IndexedColumn where
  name : Option Str
  collation : Option Str
  order : OrderType

def IndexedColumn.new (name : Option Str) (order : OrderType) : IndexedColumn where
  name := name
  collation := none
  order := order

structure InsertStatement where
  type : InsertType
  schema : Option Str
  tableName : Option Str
  columns : Option (List (Option Str))
  values : Option (List (Option Expr))
  select : Option SelectStatement
  orReplace : Option Bool

def InsertStatement.new (type : InsertType) : InsertStatement where
  type := type
  schema := none
  tableName := none
  columns := none
  values := none
  select := none
  orReplace := none

structure UpdateClause where
  column : Option Str
  value : Option Expr

structure UpdateStatement where
  table : Option TableRef
  updates : Option (List (Option UpdateClause))
  «where» : Option Expr

structure DeleteStatement where
  schema : Option Str
  tableName : Option Str
  expr : Option Expr

structure DropStatement where
  type : DropType
  ifExists : Option Bool
  schema : Option Str
  name : Option Str

def DropStatement.new (type : DropType) : DropStatement where
  type := type
  ifExists := none
  schema := none
  name := none

structure PragmaStatement where
  type : Option PragmaType
  expr : Option Expr

structure AlterStatement where
  alterType : AlterType
  schema : Option Str
  tableName : Option Str
  columnName : Option Str
  newName : Option Str
  columnDefinition : Option ColumnDefinition

def AlterStatement.new (type : AlterType) : AlterStatement where
  alterType := type
  schema := none
  tableName := none
  columnName := none
  newName := none
  columnDefinition := none

mutual

structure CreateStatement where
  type : CreateType
  isUnique : Bool
  isVirtual : Option Bool
  isTemporary : Option Bool
  ifNotExists : Bool
  schema : Option Str
  tableName : Option Str
  indexName : Option Str
  indexedColumns : Option (List (Option IndexedColumn))
  columns : Option (List (Option ColumnDefinition))
  tableConstraints : Option (List (Option TableConstraint))
  viewColumns : Option (List (Option Str))
  select : Option SelectStatement
  triggerName : Option Str
  triggerType : Option TriggerType
  triggerEvent : Option TriggerEvent
  triggerStatementList : Option (List (Option SQLStatement))

/-- A statement with the field of the base class that the parser sets. -/
structure SQLStatement where
  stringLength : Option Nat
  derived : Statement

inductive Statement where
  | select (s : SelectStatement)
  | create (s : CreateStatement)
  | insert (s : InsertStatement)
  | delete (s : DeleteStatement)
  | update (s : UpdateStatement)
  | drop (s : DropStatement)
  | pragma (s : PragmaStatement)
  | alter (s : AlterStatement)

end

def CreateStatement.new (type : CreateType) : CreateStatement where
  type := type
  isUnique := false
  isVirtual := none
  isTemporary := none
  ifNotExists := false
  schema := none
  tableName := none
  indexName := none
  indexedColumns := none
  columns := none
  tableConstraints := none
  viewColumns := none
  select := none
  triggerName := none
  triggerType := none
  triggerEvent := none
  triggerStatementList := none

/-- A statement as its own rule leaves it: the length of its text is not known yet. -/
def SQLStatement.new (s : Statement) : SQLStatement where
  stringLength := none
  derived := s

end Hsql
