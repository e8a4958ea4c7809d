import Hsql.Parser.Spec

/-! What the actions of `CREATE` statements and column definitions do: one lemma for each
nonterminal. -/

namespace Hsql
open Bison Vals Node

/-! The constructor of a column keeps the last `DEFAULT` and deletes the ones before it. -/

/-- The expressions of the `DEFAULT`s of a list of constraints. -/
def defaults (l : List (Option ColumnConstraint)) : List (Option Expr) :=
  l.filterMap fun c => c.bind fun c => if c.type = .DEFAULT then some c.expr else none

/-- The nodes that the constructor deletes. -/
def superseded (l : Option (List (Option ColumnConstraint))) : List Node :=
  l.elim [] fun l => (defaults l).dropLast.flatMap (ptr .expr)

theorem defaults_cons (y : ColumnConstraint) (l : List (Option ColumnConstraint)) :
    defaults (some y :: l) = if y.type = .DEFAULT then y.expr :: defaults l else defaults l := by
  by_cases hy : y.type = .DEFAULT <;> simp [defaults, hy]

theorem defaultVal_constrain (column : ColumnDefinition) (c : ColumnConstraint) :
    (column.constrain c).defaultVal = if c.type = .DEFAULT then c.expr else column.defaultVal := by
  unfold ColumnDefinition.constrain
  cases c.type <;> rfl

theorem defaultVal_foldlM {l : List (Option ColumnConstraint)} {column c : ColumnDefinition}
    (h : l.foldlM (fun column c => c.map column.constrain) column = some c) :
    c.defaultVal = (defaults l).getLast?.getD column.defaultVal := by
  induction l generalizing column with
  | nil =>
    cases h
    rfl
  | cons x l ih =>
    rw [List.foldlM_cons] at h
    obtain ⟨column', hx, h⟩ := Option.bind_eq_some_iff.mp h
    obtain ⟨y, rfl, rfl⟩ := Option.map_eq_some_iff.mp hx
    rw [ih h, defaultVal_constrain, defaults_cons]
    by_cases hy : y.type = .DEFAULT
    · rw [if_pos hy, if_pos hy, List.getLast?_cons]
      rfl
    · rw [if_neg hy, if_neg hy]

theorem defaultVal_new {name : Option Str} {type : DataType}
    {l : List (Option ColumnConstraint)} {c : ColumnDefinition}
    (h : ColumnDefinition.new name type (some l) = some c) :
    c.defaultVal = (defaults l).getLast?.join := by
  rw [defaultVal_foldlM h]
  cases (defaults l).getLast? <;> rfl

theorem vec_constraint {l : List (Option ColumnConstraint)}
    (h : ∀ c ∈ l, ColumnConstraint.Given c) :
    (Sounds (vec .constraint (some l)) ↔ Sounds ((defaults l).flatMap (ptr .expr))) ∧
      Node.addrs (vec .constraint (some l)) = Node.addrs ((defaults l).flatMap (ptr .expr)) := by
  induction l with
  | nil => simp [defaults]
  | cons x l ih =>
    obtain ⟨⟨c, rfl, hc⟩, hl⟩ := List.forall_mem_cons.mp h
    obtain ⟨hsound, haddrs⟩ := ih hl
    by_cases hd : c.type = .DEFAULT
    · simp [defaults_cons, hd, hsound, haddrs, Node.Shaped, Node.parts, Node.addr]
    · simp [defaults_cons, hd, hc hd, hsound, haddrs, Node.Shaped, Node.parts, Node.addr]

theorem flatMap_defaults (l : List (Option Expr)) :
    l.flatMap (ptr .expr) = l.dropLast.flatMap (ptr .expr) ++ ptr .expr l.getLast?.join := by
  rcases List.eq_nil_or_concat l with rfl | ⟨l, x, rfl⟩
  · rfl
  · simp

attribute [local simp] forall_terminal forall_nonterminal forall_nil Vals.All Vals.sum NT.Given
  NT.Sound NT.addrs NT.nodes Member.nodes Node.parts Node.addr Node.Shaped

/-- What each production of `columnDef` loses. -/
noncomputable def columnDefLost : (i : Fin columnDefRules.length) →
    Vals TokenKind.Val NT.Val (columnDefRules.get i).rhs → Multiset Addr
  | ⟨0, _⟩, (_, _, l, _) => Node.addrs (superseded l)
  | ⟨1, _⟩, (_, _, _, _, _, l, _) => Node.addrs (superseded l)

theorem column_new {name : Option Str} {type : DataType}
    {v : Option (List (Option ColumnConstraint))} {c : ColumnDefinition}
    (hv : NT.columnConstraintListNullable.Given v) (h : ColumnDefinition.new name type v = some c) :
    (NT.columnConstraintListNullable.Sound v → Sounds (ptr .expr c.defaultVal)) ∧
      Node.addrs (ptr .expr c.defaultVal) + Node.addrs (superseded v) =
        NT.columnConstraintListNullable.addrs v := by
  obtain ⟨l, rfl, hl⟩ := hv
  obtain ⟨hsound, haddrs⟩ := vec_constraint hl
  have hlast := defaultVal_new h
  have hsplit := flatMap_defaults (defaults l)
  simp only [NT.Sound, NT.addrs, NT.nodes, Member.nodes, hsound, haddrs, hsplit, hlast,
    sounds_append, addrs_append]
  exact ⟨fun h => h.2, add_comm _ _⟩

theorem spec_columnDef (i : Fin columnDefRules.length) :
    (columnDefRules.get i).Spec (columnDefLost i) := by
  match i with
  | ⟨0, _⟩ =>
    refine spec_deref ?_
    simp only [forall_nonterminal, forall_nil]
    intro a t l hgiven v hv
    obtain ⟨c, hc, rfl⟩ := Option.map_eq_some_iff.mp hv
    obtain ⟨hsound, haddrs⟩ := column_new hgiven.2.2.1 hc
    refine ⟨rfl, fun h => ?_, ?_⟩
    · simpa using hsound h.2.2.1
    · show Node.addrs _ + Node.addrs (superseded l) = _
      simpa using haddrs
  | ⟨1, _⟩ =>
    refine spec_deref ?_
    simp only [forall_terminal, forall_nonterminal, forall_nil]
    intro a t _ i _ l hgiven v hv
    obtain ⟨c, hc, rfl⟩ := Option.map_eq_some_iff.mp hv
    obtain ⟨hsound, haddrs⟩ := column_new hgiven.2.2.1 hc
    refine ⟨rfl, fun h => ?_, ?_⟩
    · simpa using hsound h.2.2.1
    · show Node.addrs _ + Node.addrs (superseded l) = _
      simpa using haddrs

theorem keeps_createStatement : ∀ p ∈ createStatementRules, p.Keeps := by
  simp only [createStatementRules, List.forall_mem_cons]
  refine ⟨keeps_rule ?_, keeps_rule ?_, keeps_rule ?_, keeps_rule ?_, List.forall_mem_nil _⟩ <;>
    simp +contextual [CreateStatement.new, SQLStatement.new]

theorem keeps_indexedColumnList : ∀ p ∈ indexedColumnListRules, p.Keeps := by
  simp only [indexedColumnListRules, List.forall_mem_cons]
  refine ⟨keeps_rule ?_, keeps_deref ?_, List.forall_mem_nil _⟩
  · simp +contextual [filled_vector]
  · simp only [forall_terminal, forall_nonterminal, forall_nil]
    intro l _ x hgiven v hv
    refine ⟨hgiven.1.pushBack hgiven.2.1 hv, ?_, ?_⟩ <;> simp

theorem keeps_indexedColumn : ∀ p ∈ indexedColumnRules, p.Keeps := by
  simp only [indexedColumnRules, List.forall_mem_cons]
  refine ⟨keeps_rule ?_, keeps_rule ?_, List.forall_mem_nil _⟩ <;> simp [IndexedColumn.new]

theorem keeps_columnDefCommalist : ∀ p ∈ columnDefCommalistRules, p.Keeps := by
  simp only [columnDefCommalistRules, List.forall_mem_cons]
  refine ⟨keeps_rule ?_, keeps_deref ?_, List.forall_mem_nil _⟩
  · simp +contextual [filled_vector, vec_vector]
  · simp only [forall_terminal, forall_nonterminal, forall_nil]
    intro l _ x hgiven v hv
    refine ⟨hgiven.1.pushBack hgiven.2.1 hv, ?_, ?_⟩ <;> simp [vec_pushBack _ hv]

theorem keeps_columnConstraintListNullable : ∀ p ∈ columnConstraintListNullableRules, p.Keeps := by
  simp only [columnConstraintListNullableRules, List.forall_mem_cons]
  refine ⟨keeps_rule ?_, keeps_rule ?_, List.forall_mem_nil _⟩ <;> simp

theorem keeps_columnConstraintList : ∀ p ∈ columnConstraintListRules, p.Keeps := by
  simp only [columnConstraintListRules, List.forall_mem_cons]
  refine ⟨keeps_rule ?_, keeps_deref ?_, List.forall_mem_nil _⟩
  · simp +contextual [vector]
  · simp only [forall_nonterminal, forall_nil]
    intro l x hgiven v hv
    obtain ⟨⟨xs, rfl, hxs⟩, hx, -⟩ := hgiven
    cases hv
    refine ⟨⟨_, rfl, ?_⟩, ?_, ?_⟩
    · simpa [or_imp, forall_and] using ⟨hxs, hx⟩
    · simp +contextual
    · simp

theorem keeps_columnConstraint : ∀ p ∈ columnConstraintRules, p.Keeps := by
  simp only [columnConstraintRules, List.forall_mem_cons]
  refine ⟨keeps_rule ?_, keeps_rule ?_, keeps_rule ?_, keeps_rule ?_, keeps_rule ?_,
    keeps_rule ?_, keeps_rule ?_, List.forall_mem_nil _⟩ <;>
    simp [ColumnConstraint.Given, ColumnConstraint.new, ColumnConstraint.withExpr, ColumnConstraint.withConstraint]

theorem keeps_foreignKeyConstraint : ∀ p ∈ foreignKeyConstraintRules, p.Keeps := by
  simp only [foreignKeyConstraintRules, List.forall_mem_cons]
  refine ⟨keeps_rule ?_, List.forall_mem_nil _⟩
  simp

theorem keeps_foreignKeyEvent : ∀ p ∈ foreignKeyEventRules, p.Keeps := by
  simp only [foreignKeyEventRules, List.forall_mem_cons]
  refine ⟨keeps_rule ?_, keeps_rule ?_, keeps_rule ?_, List.forall_mem_nil _⟩ <;> simp

theorem keeps_tableConstraint : ∀ p ∈ tableConstraintRules, p.Keeps := by
  simp only [tableConstraintRules, List.forall_mem_cons]
  refine ⟨keeps_rule ?_, keeps_rule ?_, keeps_rule ?_, keeps_rule ?_, List.forall_mem_nil _⟩ <;>
    simp [TableConstraint.new]

end Hsql
