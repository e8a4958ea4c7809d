import Hsql.Sql.Node
import Mathlib.Tactic.MkIffOfInductiveProp

/-! The shape that each kind of node has: which of its fields are set. -/

namespace Hsql

/-- A vector with an element, none of them null. -/
def Filled {α : Type} (v : Option (List (Option α))) : Prop :=
  ∃ l, v = some l ∧ l ≠ [] ∧ ∀ x ∈ l, x.isSome

namespace Expr

def IsCaseListElement (e : Expr) : Prop :=
  e.type = .kExprOperator ∧ e.opType = .kOpCaseListElement ∧ e.expr.isSome ∧ e.expr2.isSome

def OperatorShaped (e : Expr) : Prop :=
  match e.opType with
  | .kOpNone => False
  | .kOpBetween => e.expr.isSome ∧ ∃ a b, e.exprList = some [some a, some b]
  | .kOpCase => ∃ l, e.exprList = some l ∧ l ≠ [] ∧ ∀ x ∈ l, ∃ c, x = some c ∧ c.IsCaseListElement
  | .kOpCaseList => False
  | .kOpCaseListElement => e.expr.isSome ∧ e.expr2.isSome
  | .kOpNot | .kOpUnaryMinus | .kOpIsNull => e.expr.isSome ∧ e.expr2 = none
  | .kOpExists => e.expr = none ∧ e.select.isSome
  | .kOpIn => e.expr.isSome ∧ (e.exprList = none ∨ e.select = none)
  | _ => e.expr.isSome ∧ e.expr2.isSome

def KindShaped (e : Expr) : Prop :=
  match e.type with
  | .kExprOperator => e.OperatorShaped
  | .kExprSelect => e.select.isSome
  | .kExprColumnRef | .kExprLiteralString => e.name.isSome
  | .kExprFunctionRef => e.name.isSome ∧ e.exprList.isSome
  | .kExprArray | .kExprArrayIndex => False
  | _ => True

/-- No null pointer is listed. -/
def Listed (e : Expr) : Prop := ∀ l, e.exprList = some l → ∀ x ∈ l, x.isSome

/-- The nodes with an address are those of `?`. -/
def Shaped (e : Expr) : Prop :=
  e.KindShaped ∧ e.Listed ∧ (e.addr.isSome ↔ e.type = .kExprParameter)

end Expr

def TableRef.Shaped (t : TableRef) : Prop :=
  match t.type with
  | .kTableName => t.name.isSome
  | .kTableSelect => t.select.isSome
  | .kTableJoin => ∃ j, t.join = some j ∧ j.left.isSome ∧ j.right.isSome ∧
      (j.condition = none ↔ j.type = .kJoinNatural)
  | .kTableCrossProduct => Filled t.list ∧ ∀ l, t.list = some l → 2 ≤ l.length

@[mk_iff]
structure SelectStatement.Shaped (s : SelectStatement) : Prop where
  selectList : Filled s.selectList
  fromTable : s.fromTable.isSome
  order : s.order.isSome → Filled s.order

@[mk_iff]
structure InsertStatement.Shaped (s : InsertStatement) : Prop where
  values : s.values.isSome ↔ s.type = .kInsertValues
  select : s.select.isSome ↔ s.type = .kInsertSelect

@[mk_iff]
structure UpdateStatement.Shaped (s : UpdateStatement) : Prop where
  table : s.table.isSome
  updates : Filled s.updates

namespace Node

def Shaped : Node → Prop
  | expr e => e.Shaped
  | select s => s.Shaped
  | groupBy g => Filled g.columns
  | order o => o.expr.isSome
  | limit l => l.limit.isSome
  | table t => t.Shaped
  | update u => u.column.isSome ∧ u.value.isSome
  | statement s =>
    match s.derived with
    | .insert s => s.Shaped
    | .update s => s.Shaped
    | _ => True
  | _ => True

/-- Every node reachable from this one has its shape. -/
def Sound : Node → Prop := ast.Everywhere Shaped

theorem sound_iff (a : Node) : a.Sound ↔ a.Shaped ∧ ∀ b ∈ a.parts, b.Sound :=
  ast.everywhere_iff _ _

end Node

end Hsql
