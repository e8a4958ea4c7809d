import Hsql.Data.Nested
import Hsql.Sql.Statement

/-! The nodes of a syntax tree that can hold expressions, and what each points to. -/

namespace Hsql

inductive Node where
  | expr (e : Expr)
  | select (s : SelectStatement)
  | groupBy (g : GroupByDescription)
  | order (o : OrderDescription)
  | limit (l : LimitDescription)
  | table (t : TableRef)
  | join (j : JoinDefinition)
  | constraint (c : ColumnConstraint)
  | column (c : ColumnDefinition)
  | tableConstraint (c : TableConstraint)
  | update (u : UpdateClause)
  | statement (s : SQLStatement)

namespace Node
variable {α : Type}

/-- The node behind a pointer. -/
def ptr (f : α → Node) : Option α → List Node
  | none => []
  | some x => [f x]

/-- The nodes behind the pointers of a vector. -/
def vec (f : α → Node) : Option (List (Option α)) → List Node
  | none => []
  | some l => l.flatMap (ptr f)

def parts : Node → List Node
  | expr e => ptr expr e.expr ++ ptr expr e.expr2 ++ vec expr e.exprList ++ ptr select e.select ++
      ptr expr e.escape
  | select s => vec expr s.selectList ++ ptr table s.fromTable ++ ptr expr s.whereClause ++
      ptr groupBy s.groupBy ++ ptr select s.unionSelect ++ vec order s.order ++ ptr limit s.limit
  | groupBy g => vec expr g.columns ++ ptr expr g.having
  | order o => ptr expr o.expr
  | limit l => ptr expr l.limit ++ ptr expr l.offset
  | table t => ptr select t.select ++ vec table t.list ++ ptr join t.join
  | join j => ptr table j.left ++ ptr table j.right ++ ptr expr j.condition
  | constraint c => ptr expr c.expr
  | column c => ptr expr c.defaultVal
  | tableConstraint c => ptr expr c.expr
  | update u => ptr expr u.value
  | statement s =>
    match s.derived with
    | .select s => ptr select (some s)
    | .create s => vec column s.columns ++ vec tableConstraint s.tableConstraints ++
        ptr select s.select ++ vec statement s.triggerStatementList
    | .insert s => vec expr s.values ++ ptr select s.select
    | .delete s => ptr expr s.expr
    | .update s => ptr table s.table ++ vec update s.updates ++ ptr expr s.where
    | .drop _ => []
    | .pragma s => ptr expr s.expr
    | .alter s => ptr column s.columnDefinition

noncomputable def rank : Node → Nat
  | expr e => sizeOf e
  | select s => sizeOf s
  | groupBy g => sizeOf g
  | order o => sizeOf o
  | limit l => sizeOf l
  | table t => sizeOf t
  | join j => sizeOf j
  | constraint c => sizeOf c
  | column c => sizeOf c
  | tableConstraint c => sizeOf c
  | update u => sizeOf u
  | statement s => sizeOf s

variable [SizeOf α] {f : α → Node} (hf : ∀ x, rank (f x) = sizeOf x)
include hf

theorem rank_ptr {p : Option α} {n : Nat} (h : sizeOf p ≤ n) : ∀ b ∈ ptr f p, b.rank < n := by
  intro b hb
  cases p with
  | none => cases hb
  | some x =>
    obtain rfl := List.mem_singleton.mp hb
    rw [hf]
    simp only [Option.some.sizeOf_spec] at h
    omega

theorem rank_vec {p : Option (List (Option α))} {n : Nat} (h : sizeOf p ≤ n) :
    ∀ b ∈ vec f p, b.rank < n := by
  intro b hb
  cases p with
  | none => cases hb
  | some l =>
    obtain ⟨x, hx, hb⟩ := List.mem_flatMap.mp hb
    have hlt := List.sizeOf_lt_of_mem hx
    simp only [Option.some.sizeOf_spec] at h
    exact rank_ptr hf (by omega) b hb

omit hf

theorem rank_lt_append {l l' : List Node} {n : Nat} :
    (∀ b ∈ l ++ l', b.rank < n) ↔ (∀ b ∈ l, b.rank < n) ∧ ∀ b ∈ l', b.rank < n :=
  List.forall_mem_append

theorem rank_lt_of_le {a : Node} {n : Nat} (h : a.rank ≤ n) : ∀ b ∈ a.parts, b.rank < n := by
  cases a with
  | statement s =>
    obtain ⟨len, d⟩ := s
    cases d with
    | select s =>
      intro b hb
      obtain rfl := List.mem_singleton.mp hb
      simp only [rank, SQLStatement.mk.sizeOf_spec, Statement.select.sizeOf_spec] at h ⊢
      omega
    | drop s => simp [parts]
    | create s =>
      cases s
      simp only [rank, SQLStatement.mk.sizeOf_spec, Statement.create.sizeOf_spec,
        CreateStatement.mk.sizeOf_spec] at h
      simp only [parts, rank_lt_append]
      refine ⟨⟨⟨?_, ?_⟩, ?_⟩, ?_⟩ <;>
        first | exact rank_ptr (fun _ => rfl) (by omega) | exact rank_vec (fun _ => rfl) (by omega)
    | insert s =>
      cases s
      simp only [rank, SQLStatement.mk.sizeOf_spec, Statement.insert.sizeOf_spec,
        InsertStatement.mk.sizeOf_spec] at h
      simp only [parts, rank_lt_append]
      exact ⟨rank_vec (fun _ => rfl) (by omega), rank_ptr (fun _ => rfl) (by omega)⟩
    | delete s =>
      cases s
      simp only [rank, SQLStatement.mk.sizeOf_spec, Statement.delete.sizeOf_spec,
        DeleteStatement.mk.sizeOf_spec] at h
      simp only [parts]
      exact rank_ptr (fun _ => rfl) (by omega)
    | update s =>
      cases s
      simp only [rank, SQLStatement.mk.sizeOf_spec, Statement.update.sizeOf_spec,
        UpdateStatement.mk.sizeOf_spec] at h
      simp only [parts, rank_lt_append]
      exact ⟨⟨rank_ptr (fun _ => rfl) (by omega), rank_vec (fun _ => rfl) (by omega)⟩,
        rank_ptr (fun _ => rfl) (by omega)⟩
    | pragma s =>
      cases s
      simp only [rank, SQLStatement.mk.sizeOf_spec, Statement.pragma.sizeOf_spec,
        PragmaStatement.mk.sizeOf_spec] at h
      simp only [parts]
      exact rank_ptr (fun _ => rfl) (by omega)
    | alter s =>
      cases s
      simp only [rank, SQLStatement.mk.sizeOf_spec, Statement.alter.sizeOf_spec,
        AlterStatement.mk.sizeOf_spec] at h
      simp only [parts]
      exact rank_ptr (fun _ => rfl) (by omega)
  | expr e =>
    cases e
    simp only [rank, Expr.mk.sizeOf_spec] at h
    simp only [parts, rank_lt_append]
    refine ⟨⟨⟨⟨?_, ?_⟩, ?_⟩, ?_⟩, ?_⟩ <;>
      first | exact rank_ptr (fun _ => rfl) (by omega) | exact rank_vec (fun _ => rfl) (by omega)
  | select s =>
    cases s
    simp only [rank, SelectStatement.mk.sizeOf_spec] at h
    simp only [parts, rank_lt_append]
    refine ⟨⟨⟨⟨⟨⟨?_, ?_⟩, ?_⟩, ?_⟩, ?_⟩, ?_⟩, ?_⟩ <;>
      first | exact rank_ptr (fun _ => rfl) (by omega) | exact rank_vec (fun _ => rfl) (by omega)
  | groupBy g =>
    cases g
    simp only [rank, GroupByDescription.mk.sizeOf_spec] at h
    simp only [parts, rank_lt_append]
    exact ⟨rank_vec (fun _ => rfl) (by omega), rank_ptr (fun _ => rfl) (by omega)⟩
  | order o =>
    cases o
    simp only [rank, OrderDescription.mk.sizeOf_spec] at h
    simp only [parts]
    exact rank_ptr (fun _ => rfl) (by omega)
  | limit l =>
    cases l
    simp only [rank, LimitDescription.mk.sizeOf_spec] at h
    simp only [parts, rank_lt_append]
    exact ⟨rank_ptr (fun _ => rfl) (by omega), rank_ptr (fun _ => rfl) (by omega)⟩
  | table t =>
    cases t
    simp only [rank, TableRef.mk.sizeOf_spec] at h
    simp only [parts, rank_lt_append]
    exact ⟨⟨rank_ptr (fun _ => rfl) (by omega), rank_vec (fun _ => rfl) (by omega)⟩,
      rank_ptr (fun _ => rfl) (by omega)⟩
  | join j =>
    cases j
    simp only [rank, JoinDefinition.mk.sizeOf_spec] at h
    simp only [parts, rank_lt_append]
    exact ⟨⟨rank_ptr (fun _ => rfl) (by omega), rank_ptr (fun _ => rfl) (by omega)⟩,
      rank_ptr (fun _ => rfl) (by omega)⟩
  | constraint c =>
    cases c
    simp only [rank, ColumnConstraint.mk.sizeOf_spec] at h
    simp only [parts]
    exact rank_ptr (fun _ => rfl) (by omega)
  | column c =>
    cases c
    simp only [rank, ColumnDefinition.mk.sizeOf_spec] at h
    simp only [parts]
    exact rank_ptr (fun _ => rfl) (by omega)
  | tableConstraint c =>
    cases c
    simp only [rank, TableConstraint.mk.sizeOf_spec] at h
    simp only [parts]
    exact rank_ptr (fun _ => rfl) (by omega)
  | update u =>
    cases u
    simp only [rank, UpdateClause.mk.sizeOf_spec] at h
    simp only [parts]
    exact rank_ptr (fun _ => rfl) (by omega)

theorem rank_lt (a : Node) : ∀ b ∈ a.parts, b.rank < a.rank := rank_lt_of_le le_rfl

end Node

/-- Syntax trees: the nodes within a node are those reachable through its pointers. -/
noncomputable def ast : Nested Node where
  parts := Node.parts
  rank := Node.rank
  rank_lt := Node.rank_lt

end Hsql
