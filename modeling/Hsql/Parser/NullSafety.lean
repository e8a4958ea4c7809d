import Hsql.Parser.WellFormed

/-! Which derivations the semantic actions can run on without dereferencing a null pointer. -/

namespace Hsql
open Bison Vals Expr

/-- The action goes through on values with their pointers set. -/
def Production.Total {n : NT} (p : Production n) : Prop :=
  ∀ vs, vs.All NT.Given → ∀ l s, (p.action vs l s).isSome

section
variable {n : NT} {rhs : List Sym}

theorem total_rule (f : Vals TokenKind.Val NT.Val rhs → n.Val) : (rule rhs f).Total :=
  fun _ _ _ _ => rfl

theorem total_deref {f : Vals TokenKind.Val NT.Val rhs → Option n.Val}
    (h : ∀ vs, vs.All NT.Given → (f vs).isSome) : (deref rhs f).Total := by
  intro vs hvs l s
  show ((f vs).map fun v => (v, s)).isSome
  rw [Option.isSome_map]
  exact h vs hvs

theorem isSome_map {α β : Type} {f : α → β} {x : Option α} (h : x.isSome) : (x.map f).isSome := by
  rwa [Option.isSome_map]

theorem isSome_pushBack {α : Type} {l : Option (List (Option α))} {x : Option α} (h : Filled l) :
    (pushBack l x).isSome := by
  obtain ⟨xs, rfl, -, -⟩ := h
  rfl

theorem isSome_pushBack_iff {α : Type} {l : Option (List α)} {x : α} :
    (pushBack l x).isSome ↔ l.isSome := by
  rw [pushBack, Option.isSome_map]

theorem isSome_measure {s : ParserState} {l : Location} {x : Option SQLStatement}
    (h : x.isSome) : (s.measure l x).isSome := by
  obtain ⟨y, rfl⟩ := Option.isSome_iff_exists.mp h
  rfl

theorem foldlM_constrain_isSome {l : List (Option ColumnConstraint)}
    (h : ∀ c ∈ l, ColumnConstraint.Given c) (column : ColumnDefinition) :
    (l.foldlM (fun column (c : Option ColumnConstraint) => c.map column.constrain) column).isSome := by
  induction l generalizing column with
  | nil => rfl
  | cons x l ih =>
    obtain ⟨⟨c, rfl, -⟩, hl⟩ := List.forall_mem_cons.mp h
    exact ih hl _

theorem isSome_new {name : Option Str} {type : DataType} {v : Option (List (Option ColumnConstraint))}
    (h : NT.columnConstraintListNullable.Given v) : (ColumnDefinition.new name type v).isSome := by
  obtain ⟨l, rfl, hl⟩ := h
  exact foldlM_constrain_isSome hl _

theorem isSome_makeCase {e b : Option Expr} {v : NT.caseList.Val} (h : NT.caseList.Given v) :
    ((makeCase e v b).map some).isSome := by
  obtain ⟨x, l, rfl, -⟩ := h
  rfl

end

/-- All nonterminals but three only have actions that go through. -/
theorem total {n : NT} (hn : n ∉ [.foreignKeyEventList, .optTableConstraintList, .joinClause]) :
    ∀ p ∈ productions n, p.Total := by
  cases n with
  | foreignKeyEventList | optTableConstraintList | joinClause => exact absurd (by decide) hn
  | input =>
    refine List.forall_mem_singleton.mpr fun vs hvs l s => ?_
    obtain ⟨stmts, hstmts, -⟩ : Filled vs.1 := hvs.1
    show (Option.map _ vs.1).isSome
    rw [hstmts]
    rfl
  | statementList =>
    simp only [productions, statementListRules, List.forall_mem_cons]
    refine ⟨fun vs hvs l s => ?_, fun vs hvs l s => ?_, List.forall_mem_nil _⟩
    · obtain ⟨⟨y, t⟩, hy⟩ := Option.isSome_iff_exists.mp (isSome_measure (s := s) (l := l) hvs.1)
      show ((s.measure l vs.1).map _).isSome
      rw [hy]
      rfl
    · obtain ⟨hlist, hx, -⟩ := hvs
      obtain ⟨⟨y, t⟩, hy⟩ := Option.isSome_iff_exists.mp (isSome_measure (s := s) (l := l) hx)
      obtain ⟨z, hz⟩ := Option.isSome_iff_exists.mp (isSome_pushBack (x := y) hlist)
      show ((s.measure l vs.2.2.1).bind _).isSome
      rw [hy, Option.bind_some]
      show ((pushBack vs.1 y).bind _).isSome
      rw [hz]
      rfl
  | columnConstraintList =>
    simp only [productions, columnConstraintListRules, List.forall_mem_cons]
    refine ⟨total_rule _, total_deref fun vs hvs => ?_, List.forall_mem_nil _⟩
    obtain ⟨⟨l, hl, -⟩, -⟩ := hvs
    show (pushBack vs.1 vs.2.1).isSome
    rw [hl]
    rfl
  | columnDef =>
    simp only [productions, columnDefRules, List.forall_mem_cons]
    refine ⟨total_deref fun vs hvs => ?_, total_deref fun vs hvs => ?_, List.forall_mem_nil _⟩
    · exact isSome_map (isSome_new hvs.2.2.1)
    · exact isSome_map (isSome_new hvs.2.2.1)
  | selectStatement =>
    simp only [productions, selectStatementRules, List.forall_mem_cons]
    refine ⟨total_rule _, total_rule _, total_deref fun vs hvs => ?_, List.forall_mem_nil _⟩
    exact isSome_map hvs.1
  | selectNoParen =>
    simp only [productions, selectNoParenRules, List.forall_mem_cons]
    refine ⟨total_deref fun vs hvs => ?_, total_deref fun vs hvs => ?_, List.forall_mem_nil _⟩ <;>
    · obtain ⟨⟨s, hs, -⟩, -⟩ := hvs
      exact isSome_map (Option.isSome_iff_exists.mpr ⟨s, hs⟩)
  | selectClause | orderDesc | optLimit | paramExpr =>
    repeat' refine List.forall_mem_cons.mpr ⟨?_, ?_⟩
    all_goals first | exact List.forall_mem_nil _ | exact fun _ _ _ _ => rfl
  | exprAlias =>
    simp only [productions, exprAliasRules, List.forall_mem_cons]
    refine ⟨total_deref fun vs hvs => ?_, List.forall_mem_nil _⟩
    exact isSome_map hvs.1
  | caseExpr =>
    simp only [productions, caseExprRules, List.forall_mem_cons]
    refine ⟨total_deref fun vs hvs => ?_, total_deref fun vs hvs => ?_,
      total_deref fun vs hvs => ?_, total_deref fun vs hvs => ?_, List.forall_mem_nil _⟩
    · exact isSome_makeCase hvs.2.1
    · exact isSome_makeCase hvs.2.1
    · exact isSome_makeCase hvs.1
    · exact isSome_makeCase hvs.1
  | caseList =>
    simp only [productions, caseListRules, List.forall_mem_cons]
    refine ⟨total_rule _, total_deref fun vs hvs => ?_, List.forall_mem_nil _⟩
    obtain ⟨⟨e, l, he, hl, -⟩, -⟩ := hvs
    show ((caseListAppend vs.1 _).map some).isSome
    rw [he, Option.isSome_map]
    show (e.exprList.bind _).isSome
    rw [hl]
    rfl
  | tableRef =>
    simp only [productions, tableRefRules, List.forall_mem_cons]
    refine ⟨total_rule _, total_deref fun vs hvs => ?_, List.forall_mem_nil _⟩
    exact isSome_map (isSome_pushBack hvs.1)
  | indexedColumnList | columnDefCommalist | updateClauseCommalist | orderList | exprList
  | tableRefCommalist | identCommalist =>
    simp only [productions, indexedColumnListRules, columnDefCommalistRules, updateClauseCommalistRules,
      orderListRules, exprListRules, tableRefCommalistRules, identCommalistRules,
      List.forall_mem_cons]
    exact ⟨total_rule _, total_deref fun vs hvs => isSome_pushBack hvs.1, List.forall_mem_nil _⟩
  | _ =>
    repeat' refine List.forall_mem_cons.mpr ⟨?_, ?_⟩
    all_goals first | exact List.forall_mem_nil _ | exact total_rule _

/-! The other three dereference what the rule at the root of a part may have left null. -/

/-- A value made by the rule of that number. -/
def NT.MadeBy : (n : NT) → Nat → n.Val → Prop
  | .foreignKeyEventList, i, v => v.isSome ↔ i ≠ 2
  | .optTableConstraintList, i, v => v.isSome ↔ i ≠ 2
  | .columnName, i, v => (v.bind Expr.name).isSome ↔ i ≠ 2 ∧ i ≠ 3
  | _, _, _ => True

/-- The number of the rule at a node. -/
def ruleNumber {n : NT} (r : grammar.Rule n) (_ : Location)
    (_ : Vals TokenKind.Val (fun _ => Nat) (grammar.rhs r)) : Nat := r.1

/-- What a rule needs of the rules at the roots of its parts: a table constraint and a foreign key
event are not appended to the list of the empty rule, and `USING` names no star. -/
def NullSafe : {n : NT} → (r : grammar.Rule n) →
    Vals TokenKind.Val (fun _ => Nat) (grammar.rhs r) → Prop
  | .foreignKeyEventList, ⟨1, _⟩, (l, _) => l ≠ 2
  | .optTableConstraintList, ⟨1, _⟩, (l, _) => l ≠ 2
  | .joinClause, ⟨2, _⟩, (_, _, _, _, _, _, c, _) => c ≠ 2 ∧ c ≠ 3
  | _, _, _ => True

/-- Every node of the derivation is null safe. -/
def Derivation.NullSafe {n : NT} (d : Derivation n) : Prop :=
  d.Each ruleNumber Hsql.NullSafe

section
variable {l : Location} {s s' : ParserState}

theorem madeBy_foreignKeyEventList (r : grammar.Rule .foreignKeyEventList)
    {vs : Vals TokenKind.Val NT.Val (grammar.rhs r)} {v : NT.foreignKeyEventList.Val}
    (h : actions.act r vs l s = some (v, s')) : NT.foreignKeyEventList.MadeBy r.1 v := by
  match r, vs, h with
  | ⟨0, _⟩, (e, _), h =>
    cases h
    simp [NT.MadeBy, vector]
  | ⟨1, _⟩, (l, e, _), h =>
    obtain ⟨u, hu, heq⟩ := Option.map_eq_some_iff.mp h
    obtain ⟨xs, -, hv⟩ := Option.map_eq_some_iff.mp hu
    cases heq
    simp [NT.MadeBy, ← hv]
  | ⟨2, _⟩, _, h =>
    cases h
    simp [NT.MadeBy]

theorem madeBy_optTableConstraintList (r : grammar.Rule .optTableConstraintList)
    {vs : Vals TokenKind.Val NT.Val (grammar.rhs r)} {v : NT.optTableConstraintList.Val}
    (h : actions.act r vs l s = some (v, s')) : NT.optTableConstraintList.MadeBy r.1 v := by
  match r, vs, h with
  | ⟨0, _⟩, (e, _), h =>
    cases h
    simp [NT.MadeBy, vector]
  | ⟨1, _⟩, (l, _, e, _), h =>
    obtain ⟨u, hu, heq⟩ := Option.map_eq_some_iff.mp h
    obtain ⟨xs, -, hv⟩ := Option.map_eq_some_iff.mp hu
    cases heq
    simp [NT.MadeBy, ← hv]
  | ⟨2, _⟩, _, h =>
    cases h
    simp [NT.MadeBy]

theorem madeBy_columnName (r : grammar.Rule .columnName)
    {vs : Vals TokenKind.Val NT.Val (grammar.rhs r)} {v : NT.columnName.Val}
    (hvs : vs.All NT.Given) (h : actions.act r vs l s = some (v, s')) :
    NT.columnName.MadeBy r.1 v := by
  match r, vs, hvs, h with
  | ⟨0, _⟩, (a, _), _, h =>
    cases h
    simp [NT.MadeBy, makeColumnRef]
  | ⟨1, _⟩, (t, _, a, _), hvs, h =>
    cases h
    have hname : a.isSome := hvs.1
    simpa [NT.MadeBy, makeTableColumnRef] using hname
  | ⟨2, _⟩, _, _, h =>
    cases h
    simp [NT.MadeBy, makeStar, Expr.new]
  | ⟨3, _⟩, (t, _), _, h =>
    cases h
    simp [NT.MadeBy, makeTableStar, Expr.new]

theorem madeBy {n : NT} (r : grammar.Rule n)
    {vs : Vals TokenKind.Val NT.Val (grammar.rhs r)} {v : n.Val}
    (hvs : vs.All NT.Given) (h : actions.act r vs l s = some (v, s')) : n.MadeBy r.1 v := by
  cases n with
  | foreignKeyEventList => exact madeBy_foreignKeyEventList r h
  | optTableConstraintList => exact madeBy_optTableConstraintList r h
  | columnName => exact madeBy_columnName r hvs h
  | _ => trivial

end

theorem describes_madeBy : actions.Describes ruleNumber fun n i v => n.Given v ∧ n.MadeBy i v := by
  intro n r p as vs s v s' hrel h
  have hvs : vs.All NT.Given := hrel.all fun _ _ _ h => h.1
  exact ⟨preserves_given r p vs s v s' hvs h, madeBy r hvs h⟩

theorem succeedsOn_nullSafe :
    actions.SucceedsOn (fun n i v => n.Given v ∧ n.MadeBy i v) NullSafe := by
  intro n r p as vs s hrel
  have hvs : vs.All NT.Given := hrel.all fun _ _ _ h => h.1
  have htotal (hn : n ∉ [.foreignKeyEventList, .optTableConstraintList, .joinClause]) :
      (actions.act r vs p s).isSome := total hn _ (List.get_mem _ r) vs hvs p s
  cases n with
  | foreignKeyEventList =>
    match r, as, vs, hrel with
    | ⟨0, _⟩, _, _, _ => exact iff_of_true rfl trivial
    | ⟨1, _⟩, (i, _, _), (l, e, _), ⟨⟨_, hmade⟩, _⟩ =>
      show ((pushBack l e).map _).isSome ↔ i ≠ 2
      rw [Option.isSome_map, isSome_pushBack_iff]
      exact hmade
    | ⟨2, _⟩, _, _, _ => exact iff_of_true rfl trivial
  | optTableConstraintList =>
    match r, as, vs, hrel with
    | ⟨0, _⟩, _, _, _ => exact iff_of_true rfl trivial
    | ⟨1, _⟩, (i, _, _, _), (l, _, e, _), ⟨⟨_, hmade⟩, _⟩ =>
      show ((pushBack l e).map _).isSome ↔ i ≠ 2
      rw [Option.isSome_map, isSome_pushBack_iff]
      exact hmade
    | ⟨2, _⟩, _, _, _ => exact iff_of_true rfl trivial
  | joinClause =>
    match r, as, vs, hrel with
    | ⟨0, _⟩, _, _, _ => exact iff_of_true rfl trivial
    | ⟨1, _⟩, _, _, _ => exact iff_of_true rfl trivial
    | ⟨2, _⟩, (_, _, _, _, _, _, i, _), (l, t, _, x, _, _, col, _),
        ⟨⟨hl, _⟩, _, _, ⟨hx, _⟩, _, _, ⟨hcol, hmade⟩, _⟩ =>
      obtain ⟨left, rfl⟩ := Option.isSome_iff_exists.mp (show l.isSome from hl)
      obtain ⟨right, rfl⟩ := Option.isSome_iff_exists.mp (show x.isSome from hx)
      obtain ⟨e, rfl, -, -⟩ := hcol
      show (Option.map _ ((usingColumn e left.getName).bind fun a =>
        (usingColumn e right.getName).bind fun b => _)).isSome ↔ i ≠ 2 ∧ i ≠ 3
      rw [Option.isSome_map]
      refine Iff.trans ?_ hmade
      show _ ↔ e.name.isSome
      unfold usingColumn
      cases e.name with
      | none => rfl
      | some name => rfl
  | _ => exact iff_of_true (htotal (by decide)) trivial

/-- No action dereferences a null pointer exactly if the derivation is null safe. -/
theorem eval_nullSafe_iff (d : Derivation .input) (s : ParserState) :
    (d.eval actions s).isSome ↔ d.NullSafe :=
  d.eval_isSome_iff describes_madeBy succeedsOn_nullSafe s

/-- The second comma appends the table constraint to the list of the empty rule. -/
theorem eval_doubleComma : ∃ d : Derivation .input,
    derive 100 "CREATE TABLE t (a INT,, PRIMARY KEY (a))".toList = some d ∧
      d.eval actions (.start ⟨0, 0, 0, 0⟩ .new) = none := by
  have hrun : ((derive 100 "CREATE TABLE t (a INT,, PRIMARY KEY (a))".toList).map fun d =>
      (d.eval actions (.start ⟨0, 0, 0, 0⟩ .new)).isSome) = some false := by
    rw [derive_rowwise]
    decide +kernel
  obtain ⟨d, hd, hnone⟩ := Option.map_eq_some_iff.mp hrun
  exact ⟨d, hd, Option.isSome_eq_false_iff.mp hnone |> Option.isNone_iff_eq_none.mp⟩

end Hsql
