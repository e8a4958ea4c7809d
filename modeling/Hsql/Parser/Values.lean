import Hsql.Parser.Grammar
import Hsql.Sql.Shape

/-! What the values of the symbols hold: which pointers are set, the nodes they lead to, and the
addresses among these. -/

namespace Hsql
open Bison

/-- Addresses of the four kinds of node that are counted. -/
inductive Addr where
  | select (a : Nat)
  | order (a : Nat)
  | limit (a : Nat)
  | param (a : Nat)
deriving DecidableEq

namespace Node

/-- A node's own address. -/
def addr : Node → Multiset Addr
  | expr e => (e.addr.map Addr.param).elim 0 fun a => {a}
  | select s => {.select s.addr}
  | order o => {.order o.addr}
  | limit l => {.limit l.addr}
  | _ => 0

/-- The addresses reachable from nodes, each as often as it is reached. -/
noncomputable def addrs : List Node → Multiset Addr := ast.totals addr

def Sounds (l : List Node) : Prop := ∀ b ∈ l, b.Sound

variable {α : Type} (f : α → Node)

@[simp] theorem ptr_none : ptr f none = [] := rfl

@[simp] theorem vec_none : vec f none = [] := rfl

@[simp] theorem vec_nil : vec f (some []) = [] := rfl

@[simp] theorem vec_cons (x : Option α) (l : List (Option α)) :
    vec f (some (x :: l)) = ptr f x ++ vec f (some l) := by
  simp [vec]

@[simp] theorem vec_append (l l' : List (Option α)) :
    vec f (some (l ++ l')) = vec f (some l) ++ vec f (some l') := by
  simp [vec]

@[simp] theorem sounds_nil : Sounds [] := by
  simp [Sounds]

@[simp] theorem sounds_append (l l' : List Node) :
    Sounds (l ++ l') ↔ Sounds l ∧ Sounds l' := List.forall_mem_append

@[simp] theorem sounds_ptr_some (x : α) :
    Sounds (ptr f (some x)) ↔ (f x).Shaped ∧ Sounds (f x).parts := by
  rw [Sounds, ptr, List.forall_mem_singleton, sound_iff]
  rfl

@[simp] theorem addrs_nil : addrs [] = 0 := rfl

@[simp] theorem addrs_append (l l' : List Node) : addrs (l ++ l') = addrs l + addrs l' :=
  ast.totals_append _ l l'

@[simp] theorem addrs_ptr_some (x : α) :
    addrs (ptr f (some x)) = (f x).addr + addrs (f x).parts := by
  have htotal := ast.total_eq addr (f x)
  rw [addrs, ptr, Nested.totals, List.map_singleton, List.sum_singleton, htotal]
  rfl

end Node

open Node

def Member.nodes : (m : Member) → m.Val → List Node
  | .statement => ptr .statement
  | .selectStmt => ptr .select
  | .createStmt => fun v => ptr .statement (v.map fun s => .new (.create s))
  | .insertStmt => fun v => ptr .statement (v.map fun s => .new (.insert s))
  | .deleteStmt => fun v => ptr .statement (v.map fun s => .new (.delete s))
  | .updateStmt => fun v => ptr .statement (v.map fun s => .new (.update s))
  | .dropStmt => fun v => ptr .statement (v.map fun s => .new (.drop s))
  | .pragmaStmt => fun v => ptr .statement (v.map fun s => .new (.pragma s))
  | .alterStmt => fun v => ptr .statement (v.map fun s => .new (.alter s))
  | .table => ptr .table
  | .expr => ptr .expr
  | .order => ptr .order
  | .limit => ptr .limit
  | .columnT => ptr .column
  | .cconstraintT => ptr .constraint
  | .groupT => ptr .groupBy
  | .updateT => ptr .update
  | .tconstraintT => ptr .tableConstraint
  | .stmtVec => vec .statement
  | .tableVec => vec .table
  | .columnVec => vec .column
  | .cconstraintVec => vec .constraint
  | .updateVec => vec .update
  | .exprVec => vec .expr
  | .orderVec => vec .order
  | .tconstraintVec => vec .tableConstraint
  | _ => fun _ => []

/-- Only a `DEFAULT` has an expression. -/
def ColumnConstraint.Given (c : Option ColumnConstraint) : Prop :=
  ∃ x, c = some x ∧ (x.type ≠ .DEFAULT → x.expr = none)

namespace NT

/-- The nodes that a value points to. A case list gives its elements away and is deleted. -/
def nodes : (n : NT) → n.Val → List Node
  | .caseList => fun v => vec .expr (v.bind Expr.exprList)
  | n => n.member.nodes

/-- What holds of the pointers in a value, beyond the nodes they lead to. -/
def Given : (n : NT) → n.Val → Prop
  | .statement | .selectStatement | .selectWithParen | .selectParenOrClause | .selectNoParen
  | .createStatement | .insertStatement | .deleteStatement | .updateStatement | .dropStatement
  | .pragmaStatement | .alterStatement | .stringOrToken | .fromClause | .tableRef | .tableRefAtomic
  | .nonjoinTableRefAtomic | .tableRefName | .tableRefNameNoAlias | .joinClause | .exprAlias
  | .expr | .operand | .scalarExpr | .unaryExpr | .binaryExpr | .logicExpr | .inExpr | .caseExpr
  | .existsExpr | .compExpr | .functionExpr | .betweenExpr | .literal | .stringLiteral
  | .numLiteral | .intLiteral | .nullLiteral | .paramExpr | .joinCondition | .orderDesc
  | .columnDef | .foreignKeyConstraint | .foreignKeyEvent | .tableConstraint | .indexedColumn
  | .updateClause => fun v => v.isSome
  | .statementList | .identCommalist | .selectList | .exprList | .tableRefCommalist | .orderList
  | .updateClauseCommalist | .columnDefCommalist | .indexedColumnList => Filled
  | .columnName => fun v => ∃ e, v = some e ∧ e.addr = none ∧ (Node.expr e).parts = []
  | .optOrder => fun v => v.isSome → Filled v
  | .columnConstraint => ColumnConstraint.Given
  | .columnConstraintList | .columnConstraintListNullable => fun v =>
    ∃ l, v = some l ∧ ∀ c ∈ l, ColumnConstraint.Given c
  | .tableName => fun v => v.name.isSome
  | .optJoinType => fun v => v ≠ .kJoinNatural
  | .selectClause => fun v =>
    ∃ s, v = some s ∧ s.unionSelect = none ∧ s.order = none ∧ s.limit = none
  | .caseList => fun v => ∃ e l, v = some e ∧ e.exprList = some l ∧ l ≠ [] ∧
      ∀ x ∈ l, ∃ c, x = some c ∧ c.IsCaseListElement
  | _ => fun _ => True

def Sound (n : NT) (v : n.Val) : Prop := Sounds (n.nodes v)

noncomputable def addrs (n : NT) (v : n.Val) : Multiset Addr := Node.addrs (n.nodes v)

end NT

/-- The addresses of the nodes made so far. -/
def Heap.made (h : Heap) : Multiset Addr :=
  (Multiset.range h.selects).map .select + (Multiset.range h.orders).map .order +
    (Multiset.range h.limits).map .limit + (Multiset.range h.params).map .param

end Hsql
