import Hsql.Parser.WellFormed
import Hsql.Util.SqlHelper

/-! Which statements the printers go through on, among those that the parser builds. -/

namespace Hsql
open Bison

namespace Node

/-- The nodes that a node's printer goes on to: the rest of a syntax tree is not printed. -/
def printed : Node → List Node
  | expr e =>
    match e.type with
    | .kExprFunctionRef | .kExprArray => vec expr e.exprList
    | .kExprOperator => ptr expr e.expr ++
        (if e.expr2.isSome then ptr expr e.expr2 else vec expr e.exprList)
    | .kExprSelect => ptr select e.select
    | .kExprArrayIndex => ptr expr e.expr
    | _ => []
  | select s => vec expr s.selectList ++ ptr table s.fromTable ++ ptr expr s.whereClause ++
      ptr groupBy s.groupBy ++ ptr select s.unionSelect ++ (vec order s.order).take 1 ++
      ptr limit s.limit
  | groupBy g => vec expr g.columns ++ ptr expr g.having
  | order o => ptr expr o.expr
  | limit l => ptr expr l.limit
  | table t =>
    match t.type with
    | .kTableName => []
    | .kTableSelect => ptr select t.select
    | .kTableJoin => ptr join t.join
    | .kTableCrossProduct => vec table t.list
  | join j => ptr table j.left ++ ptr table j.right ++ ptr expr j.condition
  | column c => ptr expr c.defaultVal
  | statement s =>
    match s.derived with
    | .select s => [select s]
    | .create s => vec column s.columns
    | .insert s => if s.type = .kInsertValues then vec expr s.values else ptr select s.select
    | _ => []
  | _ => []

theorem mem_parts_of_printed (a : Node) : ∀ b ∈ a.printed, b ∈ a.parts := by
  intro b hb
  cases a with
  | statement s =>
    obtain ⟨len, d⟩ := s
    cases d with
    | insert s =>
      simp only [printed] at hb
      split_ifs at hb
      · exact List.mem_append_left _ hb
      · exact List.mem_append_right _ hb
    | _ => simp_all [printed, parts, ptr]
  | select s =>
    have htake : ∀ b ∈ (vec order s.order).take 1, b ∈ vec order s.order :=
      fun b hb => (List.take_sublist 1 _).subset hb
    simp only [printed, parts, List.mem_append] at hb ⊢
    tauto
  | expr e =>
    simp only [printed] at hb
    split at hb <;> simp only [parts, List.mem_append] at hb ⊢
    all_goals try split_ifs at hb
    all_goals tauto
  | table t =>
    simp only [printed] at hb
    split at hb <;> simp only [parts, List.mem_append] at hb ⊢ <;> tauto
  | groupBy | order | limit | join | column => simp_all [printed, parts]
  | _ => cases hb

end Node

/-- What the printers take for granted about a node: an operator has a first operand, which an
`EXISTS` has not and a `CASE` need not have, a join has a condition, and what is created is a
table. -/
def Node.Plain : Node → Prop
  | expr e => e.type = .kExprOperator → e.opType ≠ .kOpExists ∧ (e.opType = .kOpCase → e.expr.isSome)
  | join j => j.type ≠ .kJoinNatural
  | statement s => ∀ c, s.derived = .create c → c.type = .kCreateTable
  | _ => True

/-- Syntax trees as the printers walk them. -/
noncomputable def walk : Nested Node where
  parts := Node.printed
  rank := Node.rank
  rank_lt a b hb := Node.rank_lt a b (Node.mem_parts_of_printed a b hb)

namespace Node

/-- Nothing that a printer comes to behind this node stops it. -/
def Printable : Node → Prop := walk.Everywhere Plain

theorem printable_iff (a : Node) :
    a.Printable ↔ a.Plain ∧ ∀ b ∈ a.printed, b.Printable := walk.everywhere_iff _ _

end Node

open Node

theorem isSome_bind_iff {α β : Type} {x : Option α} {f : α → Option β} {p q : Prop}
    (hx : x.isSome ↔ p) (hf : ∀ a, (f a).isSome ↔ q) : (x.bind f).isSome ↔ p ∧ q := by
  rw [← hx]
  cases x with
  | none => simp
  | some a => simpa using hf a

theorem isSome_bind_some {α β : Type} {x : Option α} {f : α → β} {p : Prop} (hx : x.isSome ↔ p) :
    (x.bind fun a => some (f a)).isSome ↔ p := by
  rw [← hx]
  cases x <;> simp

theorem isSome_map_bind {α β γ : Type} {x : Option α} {g : α → β} {f : β → Option γ} {p : Prop}
    (hx : x.isSome ↔ p) (hf : ∀ a, (f (g a)).isSome) : ((x.map g).bind f).isSome ↔ p := by
  rw [← hx]
  cases x with
  | none => simp
  | some a => simpa using hf a

/-- The printers of nodes up to a rank go through exactly on printable ones. -/
structure Prints (k : Nat) : Prop where
  expr : ∀ e, (expr e).rank < k → (Node.expr e).Sound → ∀ numIndent out,
    (printExpression (some e) numIndent out).isSome ↔ (Node.expr e).Printable
  select : ∀ s, (select s).rank < k → (Node.select s).Sound → ∀ numIndent out,
    (printSelectStatementInfo (some s) numIndent out).isSome ↔ (Node.select s).Printable
  table : ∀ t, (table t).rank < k → (Node.table t).Sound → ∀ numIndent out,
    (printTableRefInfo (some t) numIndent out).isSome ↔ (Node.table t).Printable

/-- Sound nodes below a rank. -/
def Below (k : Nat) (l : List Node) : Prop := ∀ b ∈ l, b.rank < k ∧ b.Sound

theorem below_append {k : Nat} {l l' : List Node} :
    Below k (l ++ l') ↔ Below k l ∧ Below k l' := List.forall_mem_append

theorem below_parts {k : Nat} {a : Node} (hk : a.rank ≤ k) (h : a.Sound) : Below k a.parts := by
  intro b hb
  have hlt := Node.rank_lt a b hb
  exact ⟨by omega, ((sound_iff a).mp h).2 b hb⟩

section
variable {k : Nat} (hk : Prints k)
include hk

theorem printExpression_ptr {x : Option Expr} (hx : x.isSome) (hb : Below k (ptr .expr x))
    (numIndent : Nat) (out : Out) :
    (printExpression x numIndent out).isSome ↔ ∀ b ∈ ptr .expr x, b.Printable := by
  obtain ⟨e, rfl⟩ := Option.isSome_iff_exists.mp hx
  obtain ⟨hrank, hsound⟩ := hb _ (List.mem_singleton_self _)
  rw [hk.expr e hrank hsound]
  exact List.forall_mem_singleton.symm

theorem printExpressions_vec {l : List (Option Expr)} (hl : ∀ x ∈ l, x.isSome)
    (hb : Below k (vec .expr (some l))) (numIndent : Nat) (out : Out) :
    (printExpressions l numIndent out).isSome ↔ ∀ b ∈ vec .expr (some l), b.Printable := by
  induction l generalizing out with
  | nil => simp [printExpressions]
  | cons x l ih =>
    obtain ⟨hx, hl⟩ := List.forall_mem_cons.mp hl
    rw [vec_cons, below_append] at hb
    rw [vec_cons, List.forall_mem_append, printExpressions]
    exact isSome_bind_iff (printExpression_ptr hk hx hb.1 numIndent out) fun out => ih hl hb.2 out

theorem printTableRefInfo_ptr {x : Option TableRef} (hx : x.isSome) (hb : Below k (ptr .table x))
    (numIndent : Nat) (out : Out) :
    (printTableRefInfo x numIndent out).isSome ↔ ∀ b ∈ ptr .table x, b.Printable := by
  obtain ⟨t, rfl⟩ := Option.isSome_iff_exists.mp hx
  obtain ⟨hrank, hsound⟩ := hb _ (List.mem_singleton_self _)
  rw [hk.table t hrank hsound]
  exact List.forall_mem_singleton.symm

theorem printTableRefs_vec {l : List (Option TableRef)} (hl : ∀ x ∈ l, x.isSome)
    (hb : Below k (vec .table (some l))) (numIndent : Nat) (out : Out) :
    (printTableRefs l numIndent out).isSome ↔ ∀ b ∈ vec .table (some l), b.Printable := by
  induction l generalizing out with
  | nil => simp [printTableRefs]
  | cons x l ih =>
    obtain ⟨hx, hl⟩ := List.forall_mem_cons.mp hl
    rw [vec_cons, below_append] at hb
    rw [vec_cons, List.forall_mem_append, printTableRefs]
    exact isSome_bind_iff (printTableRefInfo_ptr hk hx hb.1 numIndent out) fun out => ih hl hb.2 out

theorem printSelectStatementInfo_ptr {x : Option SelectStatement} (hx : x.isSome)
    (hb : Below k (ptr .select x)) (numIndent : Nat) (out : Out) :
    (printSelectStatementInfo x numIndent out).isSome ↔ ∀ b ∈ ptr .select x, b.Printable := by
  obtain ⟨s, rfl⟩ := Option.isSome_iff_exists.mp hx
  obtain ⟨hrank, hsound⟩ := hb _ (List.mem_singleton_self _)
  rw [hk.select s hrank hsound]
  exact List.forall_mem_singleton.symm

theorem printTableRefInfo_isSome {t : TableRef} (hrank : (Node.table t).rank ≤ k)
    (hsound : (Node.table t).Sound) (numIndent : Nat) (out : Out) :
    (printTableRefInfo (some t) numIndent out).isSome ↔ (Node.table t).Printable := by
  have hshape : t.Shaped := ((sound_iff _).mp hsound).1
  have hbelow := below_parts hrank hsound
  rw [printable_iff]
  obtain ⟨type, schema, name, indexedBy, «alias», select, list, join⟩ := t
  simp only [parts, below_append] at hbelow
  unfold printTableRefInfo
  cases type with
  | kTableName =>
    obtain ⟨a, rfl⟩ : ∃ a, name = some a := Option.isSome_iff_exists.mp hshape
    simp [inprint, Plain, printed]
  | kTableSelect =>
    have hselect : select.isSome := hshape
    have hprint := printSelectStatementInfo_ptr hk hselect hbelow.1.1 numIndent out
    refine (isSome_bind_some hprint).trans ?_
    simp [Plain, printed]
  | kTableJoin =>
    obtain ⟨⟨left, right, condition, type⟩, rfl, hleft, hright, hcondition⟩ := hshape
    have hnatural : type ≠ .kJoinNatural ↔ condition.isSome := by
      rw [← Option.ne_none_iff_isSome]
      exact not_congr hcondition.symm
    have hjoin := hbelow.2 _ (List.mem_singleton_self _)
    have hparts := below_parts hjoin.1.le hjoin.2
    simp only [parts, below_append] at hparts
    obtain ⟨⟨hl, hr⟩, hc⟩ := hparts
    have hprinted : (∀ b ∈ ptr .join (some ⟨left, right, condition, type⟩), b.Printable) ↔
        type ≠ .kJoinNatural ∧ (∀ b ∈ ptr table left, b.Printable) ∧
          (∀ b ∈ ptr table right, b.Printable) ∧ ∀ b ∈ ptr .expr condition, b.Printable := by
      rw [ptr, List.forall_mem_singleton, printable_iff]
      simp only [Plain, printed, List.forall_mem_append, and_assoc]
    have hprint : ∀ out, (printExpression condition (numIndent + 2) out).isSome ↔
        type ≠ .kJoinNatural ∧ ∀ b ∈ ptr .expr condition, b.Printable := by
      intro out
      rw [hnatural]
      by_cases hsome : condition.isSome
      · rw [printExpression_ptr hk hsome hc]
        exact (and_iff_right hsome).symm
      · obtain rfl := Option.not_isSome_iff_eq_none.mp hsome
        simp [printExpression]
    refine (isSome_bind_iff (printTableRefInfo_ptr hk hleft hl (numIndent + 2) _) fun out =>
      isSome_bind_iff (printTableRefInfo_ptr hk hright hr (numIndent + 2) _) fun out =>
        isSome_bind_some (hprint _)).trans ?_
    simp only [printed, hprinted, Plain]
    tauto
  | kTableCrossProduct =>
    obtain ⟨⟨l, rfl, -, hl⟩, -⟩ := hshape
    have hprint := printTableRefs_vec hk hl hbelow.1.2 numIndent out
    refine (isSome_bind_some hprint).trans ?_
    simp [Plain, printed]

omit hk in
theorem operand_isSome_iff {e : Expr} (h : e.OperatorShaped) :
    e.expr.isSome ↔ e.opType ≠ .kOpExists ∧ (e.opType = .kOpCase → e.expr.isSome) := by
  unfold Expr.OperatorShaped at h
  split at h <;> simp_all

theorem printExpression_isSome {e : Expr} (hrank : (Node.expr e).rank ≤ k)
    (hsound : (Node.expr e).Sound) (numIndent : Nat) (out : Out) :
    (printExpression (some e) numIndent out).isSome ↔ (Node.expr e).Printable := by
  obtain ⟨hshape, hlist, -⟩ := ((sound_iff _).mp hsound).1
  have hbelow := below_parts hrank hsound
  rw [printable_iff]
  obtain ⟨type, expr, expr2, exprList, select, name, table, «alias», fval, ival, ival2, opType,
    distinct, escape, addr⟩ := e
  simp only [parts, below_append] at hbelow
  obtain ⟨⟨⟨⟨hexpr, hexpr2⟩, hvec⟩, hselect⟩, -⟩ := hbelow
  unfold printExpression
  cases type with
  | kExprOperator =>
    simp only [Plain, printed, forall_const, List.forall_mem_append]
    rw [← operand_isSome_iff hshape]
    cases expr with
    | none => simp [printExpression]
    | some x =>
      refine (isSome_bind_iff (printExpression_ptr hk rfl hexpr (numIndent + 1) _) fun out => ?_).trans
        (and_iff_right rfl).symm
      cases expr2 with
      | some y => exact isSome_map_bind (printExpression_ptr hk rfl hexpr2 _ out) fun _ => rfl
      | none =>
        cases exprList with
        | none => simp
        | some l => exact isSome_map_bind (printExpressions_vec hk (hlist l rfl) hvec _ out) fun _ => rfl
  | kExprSelect =>
    have hprint := printSelectStatementInfo_ptr hk (show select.isSome from hshape) hselect numIndent out
    refine (isSome_map_bind hprint fun _ => rfl).trans ?_
    simp [Plain, printed]
  | kExprFunctionRef =>
    obtain ⟨hname, hsome⟩ : name.isSome ∧ exprList.isSome := hshape
    obtain ⟨a, rfl⟩ := Option.isSome_iff_exists.mp hname
    obtain ⟨l, rfl⟩ := Option.isSome_iff_exists.mp hsome
    have hprint (out : Out) := printExpressions_vec hk (hlist l rfl) hvec (numIndent + 1) out
    refine (isSome_map_bind (hprint _) fun _ => rfl).trans ?_
    simp [Plain, printed]
  | kExprColumnRef | kExprLiteralString =>
    obtain ⟨a, rfl⟩ : ∃ a, name = some a := Option.isSome_iff_exists.mp hshape
    simp [inprint, Plain, printed]
  | kExprArray | kExprArrayIndex => exact hshape.elim
  | _ => simp [Plain, printed]

theorem printSelectStatementInfo_isSome {s : SelectStatement} (hrank : (Node.select s).rank ≤ k)
    (hsound : (Node.select s).Sound) (numIndent : Nat) (out : Out) :
    (printSelectStatementInfo (some s) numIndent out).isSome ↔ (Node.select s).Printable := by
  obtain ⟨hlist, hfrom, horder⟩ : s.Shaped := ((sound_iff _).mp hsound).1
  have hbelow := below_parts hrank hsound
  rw [printable_iff]
  obtain ⟨fromTable, selectDistinct, selectList, whereClause, groupBy, unionSelect, order, limit,
    addr⟩ := s
  obtain ⟨l, rfl, -, hl⟩ : Filled selectList := hlist
  obtain ⟨t, rfl⟩ : ∃ t, fromTable = some t := Option.isSome_iff_exists.mp hfrom
  simp only [parts, below_append] at hbelow
  obtain ⟨⟨⟨⟨⟨⟨hlistBelow, hfromBelow⟩, hwhereBelow⟩, hgroupBelow⟩, hunionBelow⟩, horderBelow⟩, hlimitBelow⟩ := hbelow
  simp only [Plain, printed, true_and, List.forall_mem_append, and_assoc]
  unfold printSelectStatementInfo
  refine isSome_bind_iff (printExpressions_vec hk hl hlistBelow _ _) fun out => ?_
  refine isSome_bind_iff (printTableRefInfo_ptr hk rfl hfromBelow _ _) fun out => ?_
  refine isSome_bind_iff ?_ fun out => isSome_bind_iff ?_ fun out => isSome_bind_iff ?_ fun out =>
    isSome_bind_iff ?_ fun out => ?_
  · cases whereClause with
    | none => simp
    | some e => exact printExpression_ptr hk rfl hwhereBelow _ _
  · cases groupBy with
    | none => simp
    | some g =>
      obtain ⟨hrank, hsound⟩ := hgroupBelow _ (List.mem_singleton_self _)
      obtain ⟨l, hcolumns, -, hl⟩ : Filled g.columns := ((sound_iff _).mp hsound).1
      have hparts := below_parts hrank.le hsound
      rw [ptr, List.forall_mem_singleton, printable_iff]
      obtain ⟨columns, having⟩ := g
      cases hcolumns
      simp only [parts, below_append] at hparts
      simp only [Plain, printed, true_and, List.forall_mem_append]
      refine isSome_bind_iff (printExpressions_vec hk hl hparts.1 _ _) fun out => ?_
      cases having with
      | none => simp
      | some e => exact printExpression_ptr hk rfl hparts.2 _ _
  · cases unionSelect with
    | none => simp
    | some s => exact printSelectStatementInfo_ptr hk rfl hunionBelow _ _
  · cases order with
    | none => simp
    | some l =>
      obtain ⟨l', heq, hne, hl⟩ : Filled (some l) := horder rfl
      cases heq
      obtain ⟨x, l, rfl⟩ := List.exists_cons_of_ne_nil hne
      obtain ⟨o, rfl⟩ := Option.isSome_iff_exists.mp (List.forall_mem_cons.mp hl).1
      rw [vec_cons, below_append] at horderBelow
      obtain ⟨hrank, hsound⟩ := horderBelow.1 _ (List.mem_singleton_self _)
      have hexpr : o.expr.isSome := ((sound_iff _).mp hsound).1
      have hparts : Below k (ptr .expr o.expr) := below_parts hrank.le hsound
      have hprint (out : Out) := printExpression_ptr hk hexpr hparts (numIndent + 2) out
      rw [vec_cons, ptr, List.singleton_append, List.take_succ_cons, List.take_zero,
        List.forall_mem_singleton, printable_iff]
      simp only [Plain, printed, true_and]
      obtain ⟨type, expr, collation, addr⟩ := o
      exact isSome_bind_some (hprint _)
  · cases limit with
    | none => simp
    | some x =>
      obtain ⟨hrank, hsound⟩ := hlimitBelow _ (List.mem_singleton_self _)
      have hlimit : x.limit.isSome := ((sound_iff _).mp hsound).1
      have hparts := below_parts hrank.le hsound
      simp only [parts, below_append] at hparts
      rw [ptr, List.forall_mem_singleton, printable_iff]
      have hprint (out : Out) := printExpression_ptr hk hlimit hparts.1 (numIndent + 2) out
      simp only [Plain, printed, true_and]
      obtain ⟨limit, offset, addr⟩ := x
      exact hprint _

end

theorem prints (k : Nat) : Prints k := by
  induction k with
  | zero => constructor <;> exact fun _ h => absurd h (Nat.not_lt_zero _)
  | succ k ih =>
    constructor
    · exact fun e h hsound => printExpression_isSome ih (Nat.le_of_lt_succ h) hsound
    · exact fun s h hsound => printSelectStatementInfo_isSome ih (Nat.le_of_lt_succ h) hsound
    · exact fun t h hsound => printTableRefInfo_isSome ih (Nat.le_of_lt_succ h) hsound

/-! Statements. What their printers read besides nodes is set in every tree of the parser. -/

def ColumnDefinition.Named (c : Option ColumnDefinition) : Prop := ∃ x, c = some x ∧ x.name.isSome

/-- Only the rule of tables writes the two flags. -/
structure CreateStatement.Named (s : CreateStatement) : Prop where
  tableName : s.tableName.isSome
  isVirtual : s.isVirtual.isSome ↔ s.type = .kCreateTable
  isTemporary : s.isTemporary.isSome ↔ s.type = .kCreateTable
  columns : ∀ l, s.columns = some l → ∀ c ∈ l, ColumnDefinition.Named c

structure InsertStatement.Named (s : InsertStatement) : Prop where
  tableName : s.tableName.isSome
  columns : ∀ l, s.columns = some l → ∀ x ∈ l, x.isSome
  values : ∀ l, s.values = some l → ∀ x ∈ l, x.isSome

def SQLStatement.Named (s : SQLStatement) : Prop :=
  match s.derived with
  | .create s => s.Named
  | .insert s => s.Named
  | _ => True

/-- What holds of statements and their columns beyond nodes and pointers. -/
def NT.Named : (n : NT) → n.Val → Prop
  | .columnDef => ColumnDefinition.Named
  | .columnDefCommalist => fun v => ∃ l, v = some l ∧ ∀ c ∈ l, ColumnDefinition.Named c
  | .optColumnList => fun v => ∀ l, v = some l → ∀ x ∈ l, x.isSome
  | .createStatement => fun v => ∃ s, v = some s ∧ s.Named
  | .insertStatement => fun v => ∃ s, v = some s ∧ s.Named
  | .statement => fun v => ∃ s, v = some s ∧ s.Named
  | .statementList => fun v => ∃ l, v = some l ∧ ∀ x ∈ l, ∃ s, x = some s ∧ s.Named
  | _ => fun _ => True

theorem isSome_foldlM {α β : Type} {f : β → α → Option β} {p : α → Prop} {l : List α}
    (h : ∀ x ∈ l, ∀ b, (f b x).isSome ↔ p x) (b : β) : (l.foldlM f b).isSome ↔ ∀ x ∈ l, p x := by
  induction l generalizing b with
  | nil => simp
  | cons x l ih =>
    obtain ⟨hx, hl⟩ := List.forall_mem_cons.mp h
    rw [List.foldlM_cons, List.forall_mem_cons]
    exact isSome_bind_iff (hx b) fun b => ih hl b

theorem printColumn_isSome {c : ColumnDefinition} (hname : c.name.isSome)
    (hsound : (Node.column c).Sound) (numIndent : Nat) (out : Out) :
    (printColumn c numIndent out).isSome ↔ (Node.column c).Printable := by
  have hbelow := below_parts le_rfl hsound
  obtain ⟨a, ha⟩ := Option.isSome_iff_exists.mp hname
  rw [printable_iff]
  simp only [Plain, printed, true_and]
  unfold printColumn
  rw [ha]
  cases hdefault : c.defaultVal with
  | none => simp [inprint]
  | some e =>
    simp only [parts, hdefault] at hbelow
    exact printExpression_ptr (prints _) rfl hbelow _ _

theorem printCreateStatementInfo_isSome {s : CreateStatement} (hnamed : s.Named)
    (hsound : ∀ b ∈ vec .column s.columns, b.Sound) (numIndent : Nat) (out : Out) :
    (printCreateStatementInfo s numIndent out).isSome ↔
      s.type = .kCreateTable ∧ ∀ b ∈ vec .column s.columns, b.Printable := by
  obtain ⟨a, ha⟩ := Option.isSome_iff_exists.mp hnamed.tableName
  unfold printCreateStatementInfo
  rw [ha]
  by_cases htype : s.type = .kCreateTable
  · obtain ⟨v, hv⟩ := Option.isSome_iff_exists.mp (hnamed.isVirtual.mpr htype)
    obtain ⟨t, ht⟩ := Option.isSome_iff_exists.mp (hnamed.isTemporary.mpr htype)
    rw [hv, ht, and_iff_right htype]
    cases hcolumns : s.columns with
    | none => simp [inprint]
    | some l =>
      rw [hcolumns] at hsound
      have hall : (∀ b ∈ vec .column (some l), b.Printable) ↔
          ∀ c ∈ l, ∀ b ∈ ptr .column c, b.Printable := by
        simp only [vec, List.mem_flatMap]
        constructor
        · exact fun h c hc b hb => h b ⟨c, hc, hb⟩
        · rintro h b ⟨c, hc, hb⟩
          exact h c hc b hb
      rw [hall]
      refine isSome_foldlM (fun c hc out => ?_) _
      obtain ⟨c, rfl, hname⟩ := hnamed.columns l hcolumns c hc
      have hcolumn : (Node.column c).Sound :=
        hsound _ (List.mem_flatMap.mpr ⟨some c, hc, List.mem_singleton_self _⟩)
      rw [ptr, List.forall_mem_singleton]
      exact printColumn_isSome hname hcolumn numIndent out
  · have hvirtual : s.isVirtual = none := by
      rw [← Option.not_isSome_iff_eq_none, hnamed.isVirtual]
      exact htype
    rw [hvirtual]
    exact iff_of_false (by simp [inprint]) fun h => htype h.1

theorem printInsertStatementInfo_isSome {s : InsertStatement} (hnamed : s.Named) (hshape : s.Shaped)
    {k : Nat} (hbelow : Below k (vec .expr s.values ++ ptr .select s.select)) (numIndent : Nat)
    (out : Out) : (printInsertStatementInfo s numIndent out).isSome ↔
      ∀ b ∈ if s.type = .kInsertValues then vec .expr s.values else ptr .select s.select,
        b.Printable := by
  obtain ⟨a, ha⟩ := Option.isSome_iff_exists.mp hnamed.tableName
  rw [below_append] at hbelow
  unfold printInsertStatementInfo
  simp only [ha, inprint, Option.map_some, Option.bind_eq_bind, Option.bind_some]
  refine (isSome_bind_iff (p := True) ?_ fun out => ?_).trans (iff_of_eq (true_and _))
  · refine iff_true_intro ?_
    cases hlist : s.columns with
    | none => rfl
    | some l =>
      refine (isSome_foldlM (p := fun _ => True) (fun x hx out => ?_) _).mpr fun _ _ => trivial
      obtain ⟨b, rfl⟩ := Option.isSome_iff_exists.mp (hnamed.columns l hlist x hx)
      simp
  · cases htype : s.type with
    | kInsertValues =>
      obtain ⟨l, hl⟩ := Option.isSome_iff_exists.mp (hshape.values.mpr htype)
      rw [hl] at hbelow ⊢
      rw [if_pos rfl]
      exact printExpressions_vec (prints k) (hnamed.values l hl) hbelow.1 _ _
    | kInsertSelect =>
      rw [if_neg (by decide)]
      exact printSelectStatementInfo_ptr (prints k) (hshape.select.mpr htype) hbelow.2 _ _

theorem printStatementInfo_isSome {stmt : SQLStatement} (hnamed : stmt.Named)
    (hsound : (Node.statement stmt).Sound) :
    (printStatementInfo stmt).isSome ↔ (Node.statement stmt).Printable := by
  obtain ⟨hshape, hparts⟩ := (sound_iff _).mp hsound
  have hbelow := below_parts le_rfl hsound
  rw [printable_iff]
  obtain ⟨stringLength, derived⟩ := stmt
  unfold printStatementInfo
  cases derived with
  | select s =>
    have hselect : Below _ (ptr .select (some s)) := hbelow
    have hprint := printSelectStatementInfo_ptr (prints _) rfl hselect 0 []
    simpa [Plain, printed, ptr] using hprint
  | create s =>
    have hcolumns : ∀ b ∈ vec .column s.columns, b.Sound := by
      intro b hb
      refine hparts b ?_
      simp only [parts, List.mem_append]
      exact .inl (.inl (.inl hb))
    have hprint := printCreateStatementInfo_isSome hnamed hcolumns 0 []
    simpa [Plain, printed] using hprint
  | insert s =>
    have hprint := printInsertStatementInfo_isSome hnamed hshape hbelow 0 []
    simpa [Plain, printed] using hprint
  | delete | update | drop | pragma | alter => simp [Plain, printed]

/-! The rules that build what is named. -/

theorem name_constrain (column : ColumnDefinition) (c : ColumnConstraint) :
    (column.constrain c).name = column.name := by
  unfold ColumnDefinition.constrain
  split <;> rfl

theorem name_foldlM {l : List (Option ColumnConstraint)} {column column' : ColumnDefinition}
    (h : l.foldlM (fun column (c : Option ColumnConstraint) => c.map column.constrain) column =
      some column') : column'.name = column.name := by
  induction l generalizing column with
  | nil =>
    cases h
    rfl
  | cons x l ih =>
    obtain ⟨y, hy, h⟩ := Option.bind_eq_some_iff.mp h
    obtain ⟨c, -, rfl⟩ := Option.map_eq_some_iff.mp hy
    rw [ih h, name_constrain]

theorem name_new {name : Option Str} {type : DataType} {l : Option (List (Option ColumnConstraint))}
    {column : ColumnDefinition} (h : ColumnDefinition.new name type l = some column) :
    column.name = name := by
  obtain ⟨l, -, h⟩ := Option.bind_eq_some_iff.mp h
  rw [name_foldlM h]

theorem named_measure {s s' : ParserState} {l : Location} {x y : Option SQLStatement}
    (h : s.measure l x = some (y, s')) (hx : NT.statement.Named x) : NT.statement.Named y := by
  obtain ⟨stmt, rfl, hstmt⟩ := hx
  cases h
  exact ⟨_, rfl, hstmt⟩

theorem Filled.forall {α : Type} {v : Option (List (Option α))} (h : Filled v) :
    ∀ l, v = some l → ∀ x ∈ l, x.isSome := by
  obtain ⟨l, rfl, -, hl⟩ := h
  rintro l' heq
  cases heq
  exact hl

/-- The action names what it makes. -/
def Production.Names {n : NT} (p : Production n) : Prop :=
  ∀ vs : Vals TokenKind.Val NT.Val p.rhs, vs.All NT.Given → vs.All NT.Named → ∀ l s v s',
    p.action vs l s = some (v, s') → n.Named v

section
variable {n : NT} {rhs : List Sym}

theorem names_rule {f : Vals TokenKind.Val NT.Val rhs → n.Val}
    (h : ∀ vs, vs.All NT.Given → vs.All NT.Named → n.Named (f vs)) : (rule rhs f).Names := by
  intro vs hgiven hnamed l s v s' heq
  cases heq
  exact h vs hgiven hnamed

theorem names_deref {f : Vals TokenKind.Val NT.Val rhs → Option n.Val}
    (h : ∀ vs, vs.All NT.Given → vs.All NT.Named → ∀ v, f vs = some v → n.Named v) :
    (deref rhs f).Names := by
  intro vs hgiven hnamed l s v s' heq
  obtain ⟨u, hu, hpair⟩ := Option.map_eq_some_iff.mp heq
  cases hpair
  exact h vs hgiven hnamed v hu

end

theorem names {n : NT} : ∀ p ∈ productions n, p.Names := by
  cases n with
  | columnDef =>
    simp only [productions, columnDefRules, List.forall_mem_cons]
    refine ⟨names_deref fun vs hgiven _ v hv => ?_, names_deref fun vs hgiven _ v hv => ?_,
      List.forall_mem_nil _⟩
    · obtain ⟨c, hc, rfl⟩ := Option.map_eq_some_iff.mp hv
      exact ⟨c, rfl, by rw [name_new hc]; exact hgiven.1⟩
    · obtain ⟨c, hc, rfl⟩ := Option.map_eq_some_iff.mp hv
      exact ⟨_, rfl, by rw [name_new hc]; exact hgiven.1⟩
  | columnDefCommalist =>
    simp only [productions, columnDefCommalistRules, List.forall_mem_cons]
    refine ⟨names_rule fun vs _ hnamed => ⟨_, rfl, List.forall_mem_singleton.mpr hnamed.1⟩,
      names_deref fun vs _ hnamed v hv => ?_, List.forall_mem_nil _⟩
    obtain ⟨⟨l, hl, hcolumns⟩, hcolumn, -⟩ := hnamed
    obtain ⟨l', hl', rfl⟩ := Option.map_eq_some_iff.mp hv
    cases hl.symm.trans hl'
    exact ⟨_, rfl, List.forall_mem_append.mpr ⟨hcolumns, List.forall_mem_singleton.mpr hcolumn⟩⟩
  | optColumnList =>
    simp only [productions, optColumnListRules, List.forall_mem_cons]
    refine ⟨names_rule fun vs hgiven _ => Filled.forall hgiven.1,
      names_rule fun _ _ _ => ?_, List.forall_mem_nil _⟩
    rintro l ⟨⟩
  | createStatement =>
    simp only [productions, createStatementRules, List.forall_mem_cons]
    refine ⟨names_rule fun vs hgiven hnamed => ?_, names_rule fun vs hgiven _ => ?_,
      names_rule fun vs hgiven _ => ?_, names_rule fun vs hgiven _ => ?_, List.forall_mem_nil _⟩
    · obtain ⟨-, -, -, hname, -⟩ := hgiven
      obtain ⟨-, -, -, -, ⟨l, hl, hcolumns⟩, -⟩ := hnamed
      refine ⟨_, rfl, hname, by simp [CreateStatement.new], by simp [CreateStatement.new], ?_⟩
      intro l' hl'
      cases hl.symm.trans hl'
      exact hcolumns
    · obtain ⟨-, hname, -⟩ := hgiven
      refine ⟨_, rfl, hname, by simp [CreateStatement.new], by simp [CreateStatement.new], ?_⟩
      rintro l ⟨⟩
    · obtain ⟨-, -, -, hname, -⟩ := hgiven
      refine ⟨_, rfl, hname, by simp [CreateStatement.new], by simp [CreateStatement.new], ?_⟩
      rintro l ⟨⟩
    · obtain ⟨-, -, -, -, hname, -⟩ := hgiven
      refine ⟨_, rfl, hname, by simp [CreateStatement.new], by simp [CreateStatement.new], ?_⟩
      rintro l ⟨⟩
  | insertStatement =>
    simp only [productions, insertStatementRules, List.forall_mem_cons]
    refine ⟨names_rule fun vs hgiven hnamed => ?_, names_rule fun vs hgiven hnamed => ?_,
      List.forall_mem_nil _⟩
    · obtain ⟨-, hname, -, hvalues, -⟩ := hgiven
      obtain ⟨-, -, hcolumns, -⟩ := hnamed
      exact ⟨_, rfl, hname, hcolumns, Filled.forall hvalues⟩
    · obtain ⟨-, hname, -⟩ := hgiven
      obtain ⟨-, -, hcolumns, -⟩ := hnamed
      refine ⟨_, rfl, hname, hcolumns, ?_⟩
      rintro l ⟨⟩
  | statement =>
    simp only [productions, statementRules, List.forall_mem_cons]
    refine ⟨names_rule fun vs hgiven hnamed => ?_, names_rule fun vs hgiven hnamed => ?_,
      names_rule fun vs hgiven hnamed => ?_, names_rule fun vs hgiven hnamed => ?_,
      names_rule fun vs hgiven hnamed => ?_, names_rule fun vs hgiven hnamed => ?_,
      names_rule fun vs hgiven hnamed => ?_, names_rule fun vs hgiven hnamed => ?_,
      List.forall_mem_nil _⟩
    case refine_2 | refine_3 =>
      obtain ⟨⟨s, hs, hnamed⟩, -⟩ := hnamed
      exact ⟨_, congrArg (Option.map _) hs, hnamed⟩
    all_goals
      obtain ⟨s, hs⟩ := Option.isSome_iff_exists.mp hgiven.1
      exact ⟨_, congrArg (Option.map _) hs, trivial⟩
  | statementList =>
    simp only [productions, statementListRules, List.forall_mem_cons]
    refine ⟨fun vs _ hnamed l s v s' h => ?_, fun vs _ hnamed l s v s' h => ?_,
      List.forall_mem_nil _⟩
    · obtain ⟨⟨x, t⟩, hx, heq⟩ := Option.map_eq_some_iff.mp h
      cases heq
      exact ⟨_, rfl, List.forall_mem_singleton.mpr (named_measure hx hnamed.1)⟩
    · obtain ⟨⟨x, t⟩, hx, h⟩ := Option.bind_eq_some_iff.mp h
      obtain ⟨w, hw, heq⟩ := Option.bind_eq_some_iff.mp h
      cases heq
      obtain ⟨⟨l, hl, hlist⟩, hstmt, -⟩ := hnamed
      obtain ⟨l', hl', rfl⟩ := Option.map_eq_some_iff.mp hw
      cases hl.symm.trans hl'
      have hlast := named_measure hx hstmt
      exact ⟨_, rfl, List.forall_mem_append.mpr ⟨hlist, List.forall_mem_singleton.mpr hlast⟩⟩
  | _ => exact fun _ _ _ _ _ _ _ _ _ _ => trivial

theorem preserves_named : actions.Preserves fun n v => n.Given v ∧ n.Named v := by
  intro n r p vs s v s' hvs h
  have hgiven : vs.All NT.Given := Vals.all_imp (fun _ _ h => h.1) hvs
  have hnamed : vs.All NT.Named := Vals.all_imp (fun _ _ h => h.2) hvs
  exact ⟨preserves_given r p vs s v s' hgiven h,
    names _ (List.get_mem _ r) vs hgiven hnamed p s v s' h⟩

/-- A statement of an accepted text is printed without going wrong exactly if the printer comes to
no `EXISTS`, to no `CASE` without an operand and to no natural join, and it is no `CREATE` but of a
table. -/
theorem printStatementInfo_iff {heap heap' : Heap} {result' : SQLParserResult} {sql : Str}
    (hparse : Parses heap .new sql heap' result') (hvalid : result'.isValid = true) :
    ∀ x ∈ result'.statements, ∃ stmt, x = some stmt ∧
      ((printStatementInfo stmt).isSome ↔ ∀ a, walk.Within (.statement stmt) a → a.Plain) := by
  obtain ⟨d, s', -, heval, -, rfl⟩ := parses_valid_iff.mp ⟨hparse, hvalid⟩
  obtain ⟨p, list, semicolon, stmts, s₁, s₂, rfl, hlist, hsemi, rfl⟩ := Derivation.eval_input heval
  have hgood := list.eval_all preserves_sound hlist
  have hnamed := list.eval_all preserves_named hlist
  obtain ⟨l, heq, hl⟩ := hnamed.2
  obtain rfl := Option.some.inj heq
  have hstatements : (s₂.finish stmts).result.statements = stmts := by
    rw [ParserState.statements_finish, Derivation.result_eq (by decide) semicolon hsemi,
      Derivation.result_eq (by decide) list hlist]
    rfl
  intro x hx
  have hx : x ∈ stmts := hstatements ▸ hx
  obtain ⟨stmt, rfl, hstmt⟩ := hl x hx
  exact ⟨stmt, rfl, printStatementInfo_isSome hstmt ((sounds_vec_iff _).mp hgood.2 stmt hx)⟩

theorem printStatementInfo_iff_join : ∃ heap' result',
    Parses ⟨0, 0, 0, 0⟩ .new "SELECT a FROM t JOIN u ON b = c".toList heap' result' ∧
      result'.isValid = true ∧ ∀ x ∈ result'.statements, ∃ stmt, x = some stmt ∧
        ((printStatementInfo stmt).isSome ↔ ∀ a, walk.Within (.statement stmt) a → a.Plain) := by
  have hrun : ((parse 100 ⟨0, 0, 0, 0⟩ .new "SELECT a FROM t JOIN u ON b = c".toList).map fun x =>
      x.2.isValid) = some true := by
    rw [parse_rowwise]
    decide +kernel
  obtain ⟨x, hx, hvalid⟩ := Option.map_eq_some_iff.mp hrun
  have hparse := Parses.of_parse hx
  exact ⟨x.1, x.2, hparse, hvalid, printStatementInfo_iff hparse hvalid⟩

/-- The condition of a natural join is a null pointer. -/
theorem print_natural : ∃ heap' result',
    Parses ⟨0, 0, 0, 0⟩ .new "SELECT a FROM t NATURAL JOIN u".toList heap' result' ∧
      result'.isValid = true ∧ ∃ stmt, some stmt ∈ result'.statements ∧
        printStatementInfo stmt = none := by
  have hrun : ((parse 100 ⟨0, 0, 0, 0⟩ .new "SELECT a FROM t NATURAL JOIN u".toList).map fun x =>
      (x.2.isValid, x.2.statements.map fun x => x.map fun stmt => (printStatementInfo stmt).isNone)) =
        some (true, [some true]) := by
    rw [parse_rowwise]
    decide +kernel
  obtain ⟨x, hx, heq⟩ := Option.map_eq_some_iff.mp hrun
  obtain ⟨hvalid, hprint⟩ := Prod.mk.inj heq
  obtain ⟨y, hy, hnone⟩ := List.mem_map.mp (hprint ▸ List.mem_singleton_self (some true))
  obtain ⟨stmt, rfl, hstmt⟩ := Option.map_eq_some_iff.mp hnone
  exact ⟨x.1, x.2, Parses.of_parse hx, hvalid, stmt, hy, Option.isNone_iff_eq_none.mp hstmt⟩

end Hsql
