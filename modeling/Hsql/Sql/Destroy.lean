import Hsql.Data.Disposal
import Hsql.Sql.Statement
import Mathlib.Tactic.Abel

/-! What the objects of a syntax tree own, and what their destructors delete or free. A vector goes
with the object that it is a member of. Two kinds of member are left behind: the text behind
`INDEXED BY`, and the statements of a trigger, of which only the vector is deleted. -/

namespace Hsql

/-- An object on the heap, or a text. -/
inductive Cell where
  | text (s : Str)
  | expr (e : Expr)
  | select (s : SelectStatement)
  | groupBy (g : GroupByDescription)
  | order (o : OrderDescription)
  | limit (l : LimitDescription)
  | table (t : TableRef)
  | join (j : JoinDefinition)
  | event (e : ForeignKeyEvent)
  | foreignKey (c : ForeignKeyConstraint)
  | tableConstraint (c : TableConstraint)
  | column (c : ColumnDefinition)
  | indexedColumn (c : IndexedColumn)
  | update (u : UpdateClause)
  | statement (s : SQLStatement)

namespace Cell
variable {α : Type}

def ptr (f : α → Cell) : Option α → List Cell
  | none => []
  | some x => [f x]

def vec (f : α → Cell) : Option (List (Option α)) → List Cell
  | none => []
  | some l => l.flatMap (ptr f)

/-- The members that own something, in the order in which the structure declares them. -/
def ofSelect (s : SelectStatement) : List Cell :=
  ptr table s.fromTable ++ vec expr s.selectList ++ ptr expr s.whereClause ++
    ptr groupBy s.groupBy ++ ptr select s.unionSelect ++ vec order s.order ++ ptr limit s.limit

def owns : Cell → List Cell
  | text _ => []
  | expr e => ptr expr e.expr ++ ptr expr e.expr2 ++ vec expr e.exprList ++ ptr select e.select ++
      ptr text e.name ++ ptr text e.table ++ ptr text e.alias ++ ptr expr e.escape
  | select s => ofSelect s
  | groupBy g => vec expr g.columns ++ ptr expr g.having
  | order o => ptr expr o.expr ++ ptr text o.collation
  | limit l => ptr expr l.limit ++ ptr expr l.offset
  | table t => ptr text t.schema ++ ptr text t.name ++ ptr text (t.indexedBy.getD none) ++
      ptr text t.alias ++ ptr select t.select ++ vec table t.list ++ ptr join t.join
  | join j => ptr table j.left ++ ptr table j.right ++ ptr expr j.condition
  | event e => ptr text e.match
  | foreignKey c => ptr text c.table ++ vec text c.columns ++ vec event c.events
  | tableConstraint c => vec text c.columns ++ ptr expr c.expr ++
      ptr foreignKey c.foreignKeyConstraint
  | column c => ptr text c.name ++ ptr expr c.defaultVal ++ ptr foreignKey c.foreignKeyConstraint
  | indexedColumn c => ptr text c.name ++ ptr text c.collation
  | update u => ptr text u.column ++ ptr expr u.value
  | statement s =>
    match s.derived with
    | .select s => ofSelect s
    | .create s => ptr text s.schema ++ ptr text s.tableName ++ ptr text s.indexName ++
        vec indexedColumn s.indexedColumns ++ vec column s.columns ++
        vec tableConstraint s.tableConstraints ++ vec text s.viewColumns ++ ptr select s.select ++
        ptr text s.triggerName ++ vec statement s.triggerStatementList
    | .insert s => ptr text s.schema ++ ptr text s.tableName ++ vec text s.columns ++
        vec expr s.values ++ ptr select s.select
    | .delete s => ptr text s.schema ++ ptr text s.tableName ++ ptr expr s.expr
    | .update s => ptr table s.table ++ vec update s.updates ++ ptr expr s.where
    | .drop s => ptr text s.schema ++ ptr text s.name
    | .pragma s => ptr expr s.expr
    | .alter s => ptr text s.schema ++ ptr text s.tableName ++ ptr text s.columnName ++
        ptr text s.newName ++ ptr column s.columnDefinition

/-- The destructor of a query. -/
def deletesOfSelect (s : SelectStatement) : List Cell :=
  ptr table s.fromTable ++ ptr expr s.whereClause ++ ptr groupBy s.groupBy ++
    ptr select s.unionSelect ++ ptr limit s.limit ++ vec expr s.selectList ++ vec order s.order

/-- The destructors, each in its own order. An update clause has none: the statement takes it
apart. -/
def deletes : Cell → List Cell
  | text _ => []
  | expr e => ptr expr e.expr ++ ptr expr e.expr2 ++ ptr select e.select ++ ptr text e.name ++
      ptr text e.table ++ ptr text e.alias ++ vec expr e.exprList ++ ptr expr e.escape
  | select s => deletesOfSelect s
  | groupBy g => ptr expr g.having ++ vec expr g.columns
  | order o => ptr expr o.expr ++ ptr text o.collation
  | limit l => ptr expr l.limit ++ ptr expr l.offset
  | table t => ptr text t.schema ++ ptr text t.name ++ ptr text t.alias ++ ptr select t.select ++
      ptr join t.join ++ vec table t.list
  | join j => ptr table j.left ++ ptr table j.right ++ ptr expr j.condition
  | event e => ptr text e.match
  | foreignKey c => ptr text c.table ++ vec text c.columns ++ vec event c.events
  | tableConstraint c => vec text c.columns ++ ptr expr c.expr ++
      ptr foreignKey c.foreignKeyConstraint
  | column c => ptr text c.name ++ ptr expr c.defaultVal ++ ptr foreignKey c.foreignKeyConstraint
  | indexedColumn c => ptr text c.name ++ ptr text c.collation
  | update u => ptr text u.column ++ ptr expr u.value
  | statement s =>
    match s.derived with
    | .select s => deletesOfSelect s
    | .create s => ptr text s.schema ++ ptr text s.tableName ++ ptr select s.select ++
        ptr text s.indexName ++ ptr text s.triggerName ++ vec column s.columns ++
        vec tableConstraint s.tableConstraints ++ vec text s.viewColumns ++
        vec indexedColumn s.indexedColumns
    | .insert s => ptr text s.schema ++ ptr text s.tableName ++ ptr select s.select ++
        vec text s.columns ++ vec expr s.values
    | .delete s => ptr text s.schema ++ ptr text s.tableName ++ ptr expr s.expr
    | .update s => ptr table s.table ++ ptr expr s.where ++ vec update s.updates
    | .drop s => ptr text s.schema ++ ptr text s.name
    | .pragma s => ptr expr s.expr
    | .alter s => ptr text s.schema ++ ptr text s.tableName ++ ptr text s.columnName ++
        ptr text s.newName ++ ptr column s.columnDefinition

/-- The members that no destructor deletes. -/
def leaks : Cell → List Cell
  | table t => ptr text (t.indexedBy.getD none)
  | statement s =>
    match s.derived with
    | .create s => vec statement s.triggerStatementList
    | _ => []
  | _ => []

/-- Each member is deleted once or left behind. -/
theorem deletes_perm (c : Cell) : (c.deletes ++ c.leaks).Perm c.owns := by
  rw [← Multiset.coe_eq_coe]
  cases c with
  | statement s =>
    obtain ⟨len, d⟩ := s
    cases d <;>
      simp only [deletes, leaks, owns, ofSelect, deletesOfSelect, List.append_nil,
        ← Multiset.coe_add] <;>
      abel
  | _ =>
    simp only [deletes, leaks, owns, ofSelect, deletesOfSelect, List.append_nil, ← Multiset.coe_add]
    try abel

noncomputable def rank : Cell → Nat
  | text s => sizeOf s
  | expr e => sizeOf e
  | select s => sizeOf s
  | groupBy g => sizeOf g
  | order o => sizeOf o
  | limit l => sizeOf l
  | table t => sizeOf t
  | join j => sizeOf j
  | event e => sizeOf e
  | foreignKey c => sizeOf c
  | tableConstraint c => sizeOf c
  | column c => sizeOf c
  | indexedColumn c => sizeOf c
  | update u => sizeOf u
  | statement s => sizeOf s

section
variable [SizeOf α] {f : α → Cell} (hf : ∀ x, rank (f x) = sizeOf x)
include hf

theorem rank_ptr {p : Option α} {n : Nat} (h : sizeOf p ≤ n) : ∀ b ∈ ptr f p, b.rank < n := by
  intro b hb
  cases p with
  | none => cases hb
  | some x =>
    obtain rfl := List.mem_singleton.mp hb
    rw [hf]
    simp only [Option.some.sizeOf_spec] at h
    omega

theorem rank_vec {p : Option (List (Option α))} {n : Nat} (h : sizeOf p ≤ n) :
    ∀ b ∈ vec f p, b.rank < n := by
  intro b hb
  cases p with
  | none => cases hb
  | some l =>
    obtain ⟨x, hx, hb⟩ := List.mem_flatMap.mp hb
    have hlt := List.sizeOf_lt_of_mem hx
    simp only [Option.some.sizeOf_spec] at h
    exact rank_ptr hf (by omega) b hb

end

theorem sizeOf_getD_le {p : Option (Option α)} [SizeOf α] : sizeOf (p.getD none) ≤ sizeOf p := by
  cases p with
  | none => exact le_rfl
  | some x =>
    rw [Option.getD_some, Option.some.sizeOf_spec]
    omega

theorem rank_ofSelect (s : SelectStatement) : ∀ b ∈ ofSelect s, b.rank < sizeOf s := by
  cases s
  rw [SelectStatement.mk.sizeOf_spec]
  simp only [ofSelect, List.forall_mem_append]
  and_intros <;>
    first | exact rank_ptr (fun _ => rfl) (by omega) | exact rank_vec (fun _ => rfl) (by omega)

theorem rank_lt (a : Cell) : ∀ b ∈ a.owns, b.rank < a.rank := by
  cases a with
  | select s => exact rank_ofSelect s
  | table t =>
    have hindexed := sizeOf_getD_le (p := t.indexedBy)
    cases t
    simp only [rank, owns, TableRef.mk.sizeOf_spec, List.forall_mem_append]
    dsimp only at hindexed
    and_intros <;>
      first | exact rank_ptr (fun _ => rfl) (by omega) | exact rank_vec (fun _ => rfl) (by omega)
  | statement s =>
    obtain ⟨len, d⟩ := s
    cases d with
    | select s =>
      have hsize : sizeOf s ≤ sizeOf (SQLStatement.mk len (.select s)) := by
        rw [SQLStatement.mk.sizeOf_spec, Statement.select.sizeOf_spec]
        omega
      exact fun b hb => (rank_ofSelect s b hb).trans_le hsize
    | create s | insert s | delete s | update s | drop s | pragma s | alter s =>
      cases s
      simp only [rank, owns, SQLStatement.mk.sizeOf_spec, Statement.create.sizeOf_spec,
        Statement.insert.sizeOf_spec, Statement.delete.sizeOf_spec, Statement.update.sizeOf_spec,
        Statement.drop.sizeOf_spec, Statement.pragma.sizeOf_spec, Statement.alter.sizeOf_spec,
        CreateStatement.mk.sizeOf_spec, InsertStatement.mk.sizeOf_spec,
        DeleteStatement.mk.sizeOf_spec, UpdateStatement.mk.sizeOf_spec,
        DropStatement.mk.sizeOf_spec, PragmaStatement.mk.sizeOf_spec,
        AlterStatement.mk.sizeOf_spec, List.forall_mem_append]
      and_intros <;>
        first | exact rank_ptr (fun _ => rfl) (by omega) | exact rank_vec (fun _ => rfl) (by omega)
  | text s => exact List.forall_mem_nil _
  | expr s | groupBy s | order s | limit s | join s | event s | foreignKey s | tableConstraint s
  | column s | indexedColumn s | update s =>
    cases s
    simp only [rank, owns, Expr.mk.sizeOf_spec, GroupByDescription.mk.sizeOf_spec,
      OrderDescription.mk.sizeOf_spec, LimitDescription.mk.sizeOf_spec,
      JoinDefinition.mk.sizeOf_spec, ForeignKeyEvent.mk.sizeOf_spec,
      ForeignKeyConstraint.mk.sizeOf_spec, TableConstraint.mk.sizeOf_spec,
      ColumnDefinition.mk.sizeOf_spec, IndexedColumn.mk.sizeOf_spec, UpdateClause.mk.sizeOf_spec,
      List.forall_mem_append]
    and_intros <;>
      first | exact rank_ptr (fun _ => rfl) (by omega) | exact rank_vec (fun _ => rfl) (by omega)

end Cell

/-- The objects of a syntax tree with their destructors. -/
noncomputable def destructors : Disposal Cell where
  parts := Cell.owns
  rank := Cell.rank
  rank_lt := Cell.rank_lt
  disposed := Cell.deletes
  left := Cell.leaks
  perm := Cell.deletes_perm

/-- The objects that a destructor deletes in the end, each as often as it is deleted. -/
noncomputable def Cell.destroy (c : Cell) : List Cell := destructors.destroy c

/-- All objects within, each as often as it is owned. -/
noncomputable def Cell.owned (c : Cell) : Multiset Cell := destructors.total (fun b => {b}) c

/-- What is within the parts left behind by the objects that are deleted. -/
noncomputable def Cell.leaked (c : Cell) : Multiset Cell := destructors.leftBehind (fun b => {b}) c

/-- **Every destructor deletes what its object owns**, each part once, but for what is left behind:
the text behind `INDEXED BY` and the statements of a trigger, with all within these. -/
theorem destroy_exact (c : Cell) : (c.destroy : Multiset Cell) + c.leaked = c.owned ∧
    ((c.destroy : Multiset Cell) = c.owned ↔ ∀ b, destructors.Within c b → b.leaks = []) := by
  have haccounts : (c.destroy : Multiset Cell) + c.leaked = c.owned := by
    rw [Cell.destroy, Disposal.coe_destroy]
    exact destructors.total_accounts _ c
  refine ⟨haccounts, ?_⟩
  have hzero : c.leaked = 0 ↔ ∀ b, destructors.Within c b → b.leaks = [] :=
    destructors.leftBehind_eq_zero_iff.trans
      (forall₂_congr fun b _ => destructors.totals_singleton_eq_zero_iff b.leaks)
  rw [← hzero, ← haccounts]
  exact ⟨fun h => left_eq_add.mp h, fun h => left_eq_add.mpr h⟩

end Hsql
