import Hsql.Sql.Statement

/-! Syntax trees with other names, strings and lengths in them. -/

namespace Hsql

/-- A function run on what the pointers of a vector point to. -/
def mapVec {α : Type} (f : α → α) : Option (List (Option α)) → Option (List (Option α)) :=
  Option.map (List.map (Option.map f))

@[simp] theorem mapVec_none {α : Type} (f : α → α) : mapVec f none = none := rfl

@[simp] theorem mapVec_some {α : Type} (f : α → α) (l : List (Option α)) :
    mapVec f (some l) = some (l.map (Option.map f)) := rfl

section
variable (f : Str → Str)

mutual

/-- The tree with a function run on each name and string. -/
def Expr.rename : Expr → Expr
  | ⟨type, expr, expr2, exprList, select, name, table, «alias», fval, ival, ival2, opType, distinct,
      escape, addr⟩ =>
    ⟨type, Expr.renamePtr expr, Expr.renamePtr expr2, Expr.renameVec exprList,
      SelectStatement.renamePtr select, name.map f, table.map f, «alias».map f, fval, ival, ival2,
      opType, distinct, Expr.renamePtr escape, addr⟩

def Expr.renamePtr : Option Expr → Option Expr
  | none => none
  | some x => some x.rename

def Expr.renameList : List (Option Expr) → List (Option Expr)
  | [] => []
  | x :: l => Expr.renamePtr x :: Expr.renameList l

def Expr.renameVec : Option (List (Option Expr)) → Option (List (Option Expr))
  | none => none
  | some l => some (Expr.renameList l)

def SelectStatement.rename : SelectStatement → SelectStatement
  | ⟨fromTable, selectDistinct, selectList, whereClause, groupBy, unionSelect, order, limit,
      addr⟩ =>
    ⟨TableRef.renamePtr fromTable, selectDistinct, Expr.renameVec selectList,
      Expr.renamePtr whereClause, GroupByDescription.renamePtr groupBy,
      SelectStatement.renamePtr unionSelect, OrderDescription.renameVec order,
      LimitDescription.renamePtr limit, addr⟩

def SelectStatement.renamePtr : Option SelectStatement → Option SelectStatement
  | none => none
  | some x => some x.rename

def GroupByDescription.rename : GroupByDescription → GroupByDescription
  | ⟨columns, having⟩ =>
    ⟨Expr.renameVec columns, Expr.renamePtr having⟩

def GroupByDescription.renamePtr : Option GroupByDescription → Option GroupByDescription
  | none => none
  | some x => some x.rename

def OrderDescription.rename : OrderDescription → OrderDescription
  | ⟨type, expr, collation, addr⟩ =>
    ⟨type, Expr.renamePtr expr, collation.map f, addr⟩

def OrderDescription.renamePtr : Option OrderDescription → Option OrderDescription
  | none => none
  | some x => some x.rename

def OrderDescription.renameList : List (Option OrderDescription) → List (Option OrderDescription)
  | [] => []
  | x :: l => OrderDescription.renamePtr x :: OrderDescription.renameList l

def OrderDescription.renameVec :
    Option (List (Option OrderDescription)) → Option (List (Option OrderDescription))
  | none => none
  | some l => some (OrderDescription.renameList l)

def LimitDescription.rename : LimitDescription → LimitDescription
  | ⟨limit, offset, addr⟩ =>
    ⟨Expr.renamePtr limit, Expr.renamePtr offset, addr⟩

def LimitDescription.renamePtr : Option LimitDescription → Option LimitDescription
  | none => none
  | some x => some x.rename

def TableRef.rename : TableRef → TableRef
  | ⟨type, schema, name, indexedBy, «alias», select, list, join⟩ =>
    ⟨type, schema.map f, name.map f, (indexedBy.map fun a => a.map f), «alias».map f,
      SelectStatement.renamePtr select, TableRef.renameVec list, JoinDefinition.renamePtr join⟩

def TableRef.renamePtr : Option TableRef → Option TableRef
  | none => none
  | some x => some x.rename

def TableRef.renameList : List (Option TableRef) → List (Option TableRef)
  | [] => []
  | x :: l => TableRef.renamePtr x :: TableRef.renameList l

def TableRef.renameVec : Option (List (Option TableRef)) → Option (List (Option TableRef))
  | none => none
  | some l => some (TableRef.renameList l)

def JoinDefinition.rename : JoinDefinition → JoinDefinition
  | ⟨left, right, condition, type⟩ =>
    ⟨TableRef.renamePtr left, TableRef.renamePtr right, Expr.renamePtr condition, type⟩

def JoinDefinition.renamePtr : Option JoinDefinition → Option JoinDefinition
  | none => none
  | some x => some x.rename

end

@[simp] theorem Expr.renamePtr_eq (x : Option Expr) :
    Expr.renamePtr f x = x.map (Expr.rename f) := by
  cases x <;> rw [Expr.renamePtr] <;> rfl

@[simp] theorem SelectStatement.renamePtr_eq (x : Option SelectStatement) :
    SelectStatement.renamePtr f x = x.map (SelectStatement.rename f) := by
  cases x <;> rw [SelectStatement.renamePtr] <;> rfl

@[simp] theorem GroupByDescription.renamePtr_eq (x : Option GroupByDescription) :
    GroupByDescription.renamePtr f x = x.map (GroupByDescription.rename f) := by
  cases x <;> rw [GroupByDescription.renamePtr] <;> rfl

@[simp] theorem OrderDescription.renamePtr_eq (x : Option OrderDescription) :
    OrderDescription.renamePtr f x = x.map (OrderDescription.rename f) := by
  cases x <;> rw [OrderDescription.renamePtr] <;> rfl

@[simp] theorem LimitDescription.renamePtr_eq (x : Option LimitDescription) :
    LimitDescription.renamePtr f x = x.map (LimitDescription.rename f) := by
  cases x <;> rw [LimitDescription.renamePtr] <;> rfl

@[simp] theorem TableRef.renamePtr_eq (x : Option TableRef) :
    TableRef.renamePtr f x = x.map (TableRef.rename f) := by
  cases x <;> rw [TableRef.renamePtr] <;> rfl

@[simp] theorem JoinDefinition.renamePtr_eq (x : Option JoinDefinition) :
    JoinDefinition.renamePtr f x = x.map (JoinDefinition.rename f) := by
  cases x <;> rw [JoinDefinition.renamePtr] <;> rfl

@[simp] theorem Expr.renameVec_eq (v : Option (List (Option Expr))) :
    Expr.renameVec f v = mapVec (Expr.rename f) v := by
  have hlist (l : List (Option Expr)) : Expr.renameList f l = l.map (Option.map (Expr.rename f)) := by
    induction l with
    | nil => rw [Expr.renameList, List.map_nil]
    | cons x l ih => rw [Expr.renameList, ih, Expr.renamePtr_eq, List.map_cons]
  cases v with
  | none => rw [Expr.renameVec, mapVec, Option.map_none]
  | some l => rw [Expr.renameVec, hlist, mapVec, Option.map_some]

@[simp] theorem OrderDescription.renameVec_eq (v : Option (List (Option OrderDescription))) :
    OrderDescription.renameVec f v = mapVec (OrderDescription.rename f) v := by
  have hlist (l : List (Option OrderDescription)) : OrderDescription.renameList f l = l.map (Option.map (OrderDescription.rename f)) := by
    induction l with
    | nil => rw [OrderDescription.renameList, List.map_nil]
    | cons x l ih => rw [OrderDescription.renameList, ih, OrderDescription.renamePtr_eq, List.map_cons]
  cases v with
  | none => rw [OrderDescription.renameVec, mapVec, Option.map_none]
  | some l => rw [OrderDescription.renameVec, hlist, mapVec, Option.map_some]

@[simp] theorem TableRef.renameVec_eq (v : Option (List (Option TableRef))) :
    TableRef.renameVec f v = mapVec (TableRef.rename f) v := by
  have hlist (l : List (Option TableRef)) : TableRef.renameList f l = l.map (Option.map (TableRef.rename f)) := by
    induction l with
    | nil => rw [TableRef.renameList, List.map_nil]
    | cons x l ih => rw [TableRef.renameList, ih, TableRef.renamePtr_eq, List.map_cons]
  cases v with
  | none => rw [TableRef.renameVec, mapVec, Option.map_none]
  | some l => rw [TableRef.renameVec, hlist, mapVec, Option.map_some]

theorem Expr.rename_eq (e : Expr) : e.rename f =
    { e with
      expr := e.expr.map (Expr.rename f), expr2 := e.expr2.map (Expr.rename f)
      exprList := mapVec (Expr.rename f) e.exprList
      select := e.select.map (SelectStatement.rename f), name := e.name.map f
      table := e.table.map f, «alias» := e.alias.map f
      escape := e.escape.map (Expr.rename f) } := by
  cases e
  simp [Expr.rename]

theorem SelectStatement.rename_eq (s : SelectStatement) : s.rename f =
    { s with
      fromTable := s.fromTable.map (TableRef.rename f)
      selectList := mapVec (Expr.rename f) s.selectList
      whereClause := s.whereClause.map (Expr.rename f)
      groupBy := s.groupBy.map (GroupByDescription.rename f)
      unionSelect := s.unionSelect.map (SelectStatement.rename f)
      order := mapVec (OrderDescription.rename f) s.order
      limit := s.limit.map (LimitDescription.rename f) } := by
  cases s
  simp [SelectStatement.rename]

theorem TableRef.getName_rename (t : TableRef) : (t.rename f).getName = t.getName.map f := by
  obtain ⟨type, schema, name, indexedBy, _ | a, select, list, join⟩ := t <;>
    simp [TableRef.rename, TableRef.getName]

/-! Statements. -/

def TableName.rename (n : TableName) : TableName := ⟨n.schema.map f, n.name.map f⟩

def ForeignKeyEvent.rename (e : ForeignKeyEvent) : ForeignKeyEvent :=
  { e with «match» := e.match.map f }

def ForeignKeyConstraint.rename (c : ForeignKeyConstraint) : ForeignKeyConstraint :=
  { c with
    table := c.table.map f, columns := mapVec f c.columns
    events := mapVec (ForeignKeyEvent.rename f) c.events }

def ColumnConstraint.rename (c : ColumnConstraint) : ColumnConstraint :=
  { c with expr := c.expr.map (Expr.rename f), fk := c.fk.map (ForeignKeyConstraint.rename f) }

def TableConstraint.rename (c : TableConstraint) : TableConstraint :=
  { c with
    columns := mapVec f c.columns, expr := c.expr.map (Expr.rename f)
    foreignKeyConstraint := c.foreignKeyConstraint.map (ForeignKeyConstraint.rename f) }

def ColumnDefinition.rename (c : ColumnDefinition) : ColumnDefinition :=
  { c with
    name := c.name.map f, defaultVal := c.defaultVal.map (Expr.rename f)
    foreignKeyConstraint := c.foreignKeyConstraint.map (ForeignKeyConstraint.rename f) }

def IndexedColumn.rename (c : IndexedColumn) : IndexedColumn :=
  { c with name := c.name.map f, collation := c.collation.map f }

def UpdateClause.rename (u : UpdateClause) : UpdateClause :=
  ⟨u.column.map f, u.value.map (Expr.rename f)⟩

def InsertStatement.rename (s : InsertStatement) : InsertStatement :=
  { s with
    schema := s.schema.map f, tableName := s.tableName.map f, columns := mapVec f s.columns
    values := mapVec (Expr.rename f) s.values, select := s.select.map (SelectStatement.rename f) }

def UpdateStatement.rename (s : UpdateStatement) : UpdateStatement :=
  ⟨s.table.map (TableRef.rename f), mapVec (UpdateClause.rename f) s.updates,
    s.where.map (Expr.rename f)⟩

def DeleteStatement.rename (s : DeleteStatement) : DeleteStatement :=
  ⟨s.schema.map f, s.tableName.map f, s.expr.map (Expr.rename f)⟩

def DropStatement.rename (s : DropStatement) : DropStatement :=
  { s with schema := s.schema.map f, name := s.name.map f }

def PragmaStatement.rename (s : PragmaStatement) : PragmaStatement :=
  { s with expr := s.expr.map (Expr.rename f) }

def AlterStatement.rename (s : AlterStatement) : AlterStatement :=
  { s with
    schema := s.schema.map f, tableName := s.tableName.map f, columnName := s.columnName.map f
    newName := s.newName.map f
    columnDefinition := s.columnDefinition.map (ColumnDefinition.rename f) }

variable (g : Option Nat → Option Nat)

mutual

def CreateStatement.rename : CreateStatement → CreateStatement
  | ⟨type, isUnique, isVirtual, isTemporary, ifNotExists, schema, tableName, indexName,
      indexedColumns, columns, tableConstraints, viewColumns, select, triggerName, triggerType,
      triggerEvent, triggerStatementList⟩ =>
    ⟨type, isUnique, isVirtual, isTemporary, ifNotExists, schema.map f, tableName.map f,
      indexName.map f, mapVec (IndexedColumn.rename f) indexedColumns,
      mapVec (ColumnDefinition.rename f) columns,
      mapVec (TableConstraint.rename f) tableConstraints, mapVec f viewColumns,
      select.map (SelectStatement.rename f), triggerName.map f, triggerType, triggerEvent,
      SQLStatement.renameVec triggerStatementList⟩

/-- The statement with other names, and with another function run on each length. -/
def SQLStatement.rename : SQLStatement → SQLStatement
  | ⟨stringLength, derived⟩ => ⟨g stringLength, derived.rename⟩

def Statement.rename : Statement → Statement
  | .select s => .select (s.rename f)
  | .create s => .create s.rename
  | .insert s => .insert (s.rename f)
  | .delete s => .delete (s.rename f)
  | .update s => .update (s.rename f)
  | .drop s => .drop (s.rename f)
  | .pragma s => .pragma (s.rename f)
  | .alter s => .alter (s.rename f)

def SQLStatement.renamePtr : Option SQLStatement → Option SQLStatement
  | none => none
  | some x => some x.rename

def SQLStatement.renameList : List (Option SQLStatement) → List (Option SQLStatement)
  | [] => []
  | x :: l => SQLStatement.renamePtr x :: SQLStatement.renameList l

def SQLStatement.renameVec :
    Option (List (Option SQLStatement)) → Option (List (Option SQLStatement))
  | none => none
  | some l => some (SQLStatement.renameList l)

end

theorem SQLStatement.rename_eq (x : SQLStatement) :
    x.rename f g = ⟨g x.stringLength, x.derived.rename f g⟩ := by
  cases x
  rw [SQLStatement.rename]

theorem SQLStatement.renamePtr_eq (x : Option SQLStatement) :
    SQLStatement.renamePtr f g x = x.map (SQLStatement.rename f g) := by
  cases x <;> rw [SQLStatement.renamePtr] <;> rfl

theorem SQLStatement.renameList_eq (l : List (Option SQLStatement)) :
    SQLStatement.renameList f g l = l.map (Option.map (SQLStatement.rename f g)) := by
  induction l with
  | nil => rw [SQLStatement.renameList, List.map_nil]
  | cons x l ih => rw [SQLStatement.renameList, ih, SQLStatement.renamePtr_eq, List.map_cons]

@[simp] theorem SQLStatement.renameVec_eq (v : Option (List (Option SQLStatement))) :
    SQLStatement.renameVec f g v = mapVec (SQLStatement.rename f g) v := by
  cases v with
  | none => rw [SQLStatement.renameVec, mapVec, Option.map_none]
  | some l => rw [SQLStatement.renameVec, renameList_eq, mapVec, Option.map_some]

end
end Hsql
