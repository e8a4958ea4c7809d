import Hsql.Bison.Image
import Hsql.Parser.Effects
import Hsql.Sql.Rename

/-! The actions treat names and strings as opaque: run on renamed values, they build the renamed
tree. -/

namespace Hsql
open Bison Vals Expr

def Member.rename (f : Str → Str) (g : Option Nat → Option Nat) : (m : Member) → m.Val → m.Val
  | .statement => Option.map (SQLStatement.rename f g)
  | .selectStmt => Option.map (SelectStatement.rename f)
  | .createStmt => Option.map (CreateStatement.rename f g)
  | .insertStmt => Option.map (InsertStatement.rename f)
  | .deleteStmt => Option.map (DeleteStatement.rename f)
  | .updateStmt => Option.map (UpdateStatement.rename f)
  | .dropStmt => Option.map (DropStatement.rename f)
  | .pragmaStmt => Option.map (PragmaStatement.rename f)
  | .alterStmt => Option.map (AlterStatement.rename f)
  | .sval => Option.map f
  | .tableName => TableName.rename f
  | .table => Option.map (TableRef.rename f)
  | .expr => Option.map (Expr.rename f)
  | .order => Option.map (OrderDescription.rename f)
  | .limit => Option.map (LimitDescription.rename f)
  | .columnT => Option.map (ColumnDefinition.rename f)
  | .cconstraintT => Option.map (ColumnConstraint.rename f)
  | .groupT => Option.map (GroupByDescription.rename f)
  | .updateT => Option.map (UpdateClause.rename f)
  | .fkconstraintT => Option.map (ForeignKeyConstraint.rename f)
  | .fkeventT => Option.map (ForeignKeyEvent.rename f)
  | .tconstraintT => Option.map (TableConstraint.rename f)
  | .indexedcT => Option.map (IndexedColumn.rename f)
  | .stmtVec => mapVec (SQLStatement.rename f g)
  | .strVec => mapVec f
  | .tableVec => mapVec (TableRef.rename f)
  | .columnVec => mapVec (ColumnDefinition.rename f)
  | .cconstraintVec => mapVec (ColumnConstraint.rename f)
  | .updateVec => mapVec (UpdateClause.rename f)
  | .exprVec => mapVec (Expr.rename f)
  | .orderVec => mapVec (OrderDescription.rename f)
  | .fkeventVec => mapVec (ForeignKeyEvent.rename f)
  | .tconstraintVec => mapVec (TableConstraint.rename f)
  | .indexedcVec => mapVec (IndexedColumn.rename f)
  | _ => id

section
variable (f : Str → Str) (g : Option Nat → Option Nat)

def NT.rename (n : NT) : n.Val → n.Val := n.member.rename f g

/-- The values of a right-hand side with other names. -/
def renameVals : (rhs : List Sym) → Vals TokenKind.Val NT.Val rhs → Vals TokenKind.Val NT.Val rhs
  | [], _ => ()
  | .terminal t :: rhs, (a, vs) => (t.rename f a, renameVals rhs vs)
  | .nonterminal n :: rhs, (v, vs) => (n.rename f g v, renameVals rhs vs)

/-- The action computes a value, whose image under a renaming is computed from the images of the
values that it gets. -/
def Production.Natural {n : NT} (p : Production n) : Prop :=
  ∃ h h' : Vals TokenKind.Val NT.Val p.rhs → Option n.Val,
    (∀ vs l s, p.action vs l s = (h vs).map fun v => (v, s)) ∧
      ∀ vs, (h vs).map (n.rename f g) = h' (renameVals f g p.rhs vs)

variable {f g} {n : NT} {rhs : List Sym}

theorem natural_rule {h : Vals TokenKind.Val NT.Val rhs → n.Val}
    (heq : ∀ vs, n.rename f g (h vs) = h (renameVals f g rhs vs)) : (rule rhs h).Natural f g :=
  ⟨fun vs => some (h vs), fun vs => some (h vs), fun _ _ _ => rfl, fun vs => congrArg some (heq vs)⟩

theorem natural_deref {h : Vals TokenKind.Val NT.Val rhs → Option n.Val}
    (heq : ∀ vs, (h vs).map (n.rename f g) = h (renameVals f g rhs vs)) :
    (deref rhs h).Natural f g := ⟨h, h, fun _ _ _ => rfl, heq⟩

/-- A value of the source's own is renamed once and for all. -/
theorem natural_constant (v : n.Val) : (rule rhs fun _ => v).Natural f g :=
  ⟨fun _ => some v, fun _ => some (n.rename f g v), fun _ _ _ => rfl, fun _ => rfl⟩

theorem pushBack_mapVec {α : Type} (f : α → α) (l : Option (List (Option α))) (x : Option α) :
    (pushBack l x).map (mapVec f) = pushBack (mapVec f l) (x.map f) := by
  cases l <;> simp [pushBack]

theorem vector_mapVec {α : Type} (f : α → α) (x : Option α) :
    mapVec f (vector x) = vector (x.map f) := rfl

theorem map_some_rename {α : Type} {f : α → α} {x y : Option α} (h : x.map f = y) :
    (x.map some).map (Option.map f) = y.map some := by
  subst h
  cases x <;> rfl

section
attribute [local simp] forall_terminal forall_nonterminal forall_nil NT.rename Member.rename
  renameVals TokenKind.rename Expr.rename SelectStatement.rename GroupByDescription.rename
  OrderDescription.rename LimitDescription.rename TableRef.rename JoinDefinition.rename
  TableName.rename CreateStatement.rename SQLStatement.rename Statement.rename

theorem caseListAppend_rename (l x : Option Expr) :
    (caseListAppend l x).map (Expr.rename f) =
      caseListAppend (l.map (Expr.rename f)) (x.map (Expr.rename f)) := by
  cases l with
  | none => rfl
  | some e => cases h : e.exprList <;> simp [caseListAppend, Expr.rename_eq, h]

theorem makeCase_rename (e l b : Option Expr) :
    (makeCase e l b).map (Expr.rename f) =
      makeCase (e.map (Expr.rename f)) (l.map (Expr.rename f)) (b.map (Expr.rename f)) := by
  cases l with
  | none => rfl
  | some l => simp [makeCase, Expr.rename_eq, Expr.new]

theorem usingColumn_rename (col : Expr) (name : Option Str) :
    (usingColumn col name).map (Expr.rename f) =
      usingColumn (col.rename f) (name.map f) := by
  cases h : col.name <;> cases halias : col.alias <;> cases name <;>
    simp [usingColumn, Expr.rename_eq, makeColumnRef, Expr.new, h, halias]

theorem setLimit_rename (s : SelectStatement) (l : Option LimitDescription) :
    (s.setLimit l).rename f = (s.rename f).setLimit (l.map (LimitDescription.rename f)) := by
  cases l <;> simp [SelectStatement.setLimit, SelectStatement.rename_eq]

theorem order_rename (s : SelectStatement) (o : Option (List (Option OrderDescription)))
    (l : Option LimitDescription) :
    ({ s with order := o }.setLimit l).rename f =
      { s.rename f with order := mapVec (OrderDescription.rename f) o }.setLimit
        (l.map (LimitDescription.rename f)) := by
  rw [setLimit_rename, SelectStatement.rename_eq, SelectStatement.rename_eq]

theorem union_rename (s : SelectStatement) (u : Option SelectStatement)
    (o : Option (List (Option OrderDescription))) (l : Option LimitDescription) :
    (s.union u o l).rename f = (s.rename f).union (u.map (SelectStatement.rename f))
      (mapVec (OrderDescription.rename f) o) (l.map (LimitDescription.rename f)) := by
  unfold SelectStatement.union
  rw [setLimit_rename, SelectStatement.rename_eq, SelectStatement.rename_eq]

theorem constrain_rename (column : ColumnDefinition) (c : ColumnConstraint) :
    (column.constrain c).rename f = (column.rename f).constrain (c.rename f) := by
  cases h : c.type <;>
    simp [ColumnDefinition.constrain, ColumnDefinition.rename, ColumnConstraint.rename, h]

theorem columnDefinition_rename (name : Option Str) (type : DataType)
    (l : Option (List (Option ColumnConstraint))) :
    (ColumnDefinition.new name type l).map (ColumnDefinition.rename f) =
      ColumnDefinition.new (name.map f) type (mapVec (ColumnConstraint.rename f) l) := by
  have hfold (l : List (Option ColumnConstraint)) (column : ColumnDefinition) :
      (l.foldlM (fun column (c : Option ColumnConstraint) => c.map column.constrain) column).map
          (ColumnDefinition.rename f) =
        (l.map (Option.map (ColumnConstraint.rename f))).foldlM
          (fun column c => c.map column.constrain) (column.rename f) := by
    induction l generalizing column with
    | nil => simp
    | cons c l ih =>
      cases c with
      | none => simp
      | some c => simp [ih, constrain_rename]
  cases l with
  | none => rfl
  | some l => simp [ColumnDefinition.new, hfold, ColumnDefinition.rename]

/-- Expressions and names. -/
theorem natural_expression : ∀ n ∈ ([
      .expr, .operand, .scalarExpr, .unaryExpr, .binaryExpr, .logicExpr, .inExpr, .existsExpr,
      .compExpr, .functionExpr, .betweenExpr, .columnName, .literal, .stringLiteral, .numLiteral,
      .intLiteral, .nullLiteral, .stringOrToken, .«alias», .optAlias] : List NT),
    ∀ p ∈ productions n, p.Natural f g := by
  repeat' refine List.forall_mem_cons.mpr ⟨?_, ?_⟩
  all_goals
    first
    | exact List.forall_mem_nil _
    | exact natural_constant _
    | exact natural_rule fun _ => rfl
    | apply natural_rule
      simp [Expr.new, makeOpUnary, makeOpBinary, makeSelect, makeInList, makeInSelect, makeInEmpty,
        makeExists, makeFunctionRef, makeBetween, makeColumnRef, makeTableColumnRef, makeTableStar,
        makeLiteralString, makeLiteralInt, makeLiteralFloat]

/-- Selects and tables. -/
theorem natural_table : ∀ n ∈ ([
      .selectWithParen, .selectParenOrClause, .setOperator, .setType, .optAll, .optDistinct,
      .selectList, .fromClause, .optWhere, .optGroup, .optHaving, .optOrder, .optOrderType,
      .tableRefAtomic, .nonjoinTableRefAtomic, .tableRefName, .indexedBy, .optIndexedBy,
      .tableRefNameNoAlias, .tableName, .optJoinType, .joinCondition] : List NT),
    ∀ p ∈ productions n, p.Natural f g := by
  repeat' refine List.forall_mem_cons.mpr ⟨?_, ?_⟩
  all_goals
    first
    | exact List.forall_mem_nil _
    | exact natural_constant _
    | exact natural_rule fun _ => rfl
    | apply natural_rule
      simp [TableRef.new]

/-- Column definitions and `CREATE`. -/
theorem natural_create : ∀ n ∈ ([
      .createStatement, .indexedColumn, .optUnique, .optNotExists, .optVirtual, .optTemporary,
      .columnConstraintListNullable, .columnConstraint, .foreignKeyConstraint,
      .optForeignKeyDeferrable, .foreignKeyEvent, .foreignKeyAction, .columnType, .triggerType,
      .triggerEvent, .tableConstraint, .optConflictClause, .optComa] : List NT),
    ∀ p ∈ productions n, p.Natural f g := by
  repeat' refine List.forall_mem_cons.mpr ⟨?_, ?_⟩
  all_goals
    first
    | exact List.forall_mem_nil _
    | exact natural_constant _
    | exact natural_rule fun _ => rfl
    | apply natural_rule
      simp [CreateStatement.new, IndexedColumn.new, IndexedColumn.rename, ColumnConstraint.new,
        ColumnConstraint.withExpr, ColumnConstraint.withConstraint, ColumnConstraint.rename,
        ForeignKeyConstraint.new, ForeignKeyConstraint.rename, ForeignKeyEvent.new,
        ForeignKeyEvent.rename, TableConstraint.new, TableConstraint.rename]

/-- The other kinds of statement. -/
theorem natural_other : ∀ n ∈ ([
      .alterStatement, .pragmaStatement, .dropStatement, .optExists, .deleteStatement,
      .insertStatement, .optOrReplace, .optColumnList, .updateStatement, .updateClause,
      .optSemicolon] : List NT),
    ∀ p ∈ productions n, p.Natural f g := by
  repeat' refine List.forall_mem_cons.mpr ⟨?_, ?_⟩
  all_goals
    first
    | exact List.forall_mem_nil _
    | exact natural_constant _
    | exact natural_rule fun _ => rfl
    | apply natural_rule
      simp [AlterStatement.new, AlterStatement.rename, DropStatement.new, DropStatement.rename,
        InsertStatement.new, InsertStatement.rename, DeleteStatement.rename,
        UpdateStatement.rename, UpdateClause.rename, PragmaStatement.rename]

theorem natural (hg : g none = none) {n : NT} (hn : n ∉ NT.effectful) :
    ∀ p ∈ productions n, p.Natural f g := by
  cases n with
  | statement =>
    simp only [productions, statementRules, List.forall_mem_cons]
    repeat' apply And.intro
    all_goals
      first
      | exact List.forall_mem_nil _
      | apply natural_rule
        simp [SQLStatement.new, Function.comp_def, hg]
  | input | statementList | selectClause | orderDesc | optLimit | paramExpr =>
    exact absurd (by decide) hn
  | exprList =>
    simp only [productions, exprListRules, List.forall_mem_cons]
    refine ⟨natural_rule ?_, natural_deref ?_, List.forall_mem_nil _⟩
    · simp [vector_mapVec]
    · simp [pushBack_mapVec]
  | exprAlias =>
    simp only [productions, exprAliasRules, List.forall_mem_cons]
    refine ⟨natural_deref ?_, List.forall_mem_nil _⟩
    simp [Function.comp_def, Expr.rename_eq]
  | caseExpr =>
    simp only [productions, caseExprRules, List.forall_mem_cons]
    refine ⟨natural_deref ?_, natural_deref ?_, natural_deref ?_, natural_deref ?_,
      List.forall_mem_nil _⟩
    · rintro ⟨-, e, l, -⟩
      exact map_some_rename (makeCase_rename e l none)
    · rintro ⟨-, e, l, -, b, -⟩
      exact map_some_rename (makeCase_rename e l b)
    · rintro ⟨-, l, -⟩
      exact map_some_rename (makeCase_rename none l none)
    · rintro ⟨-, l, -, b, -⟩
      exact map_some_rename (makeCase_rename none l b)
  | caseList =>
    simp only [productions, caseListRules, List.forall_mem_cons]
    refine ⟨natural_rule ?_, natural_deref ?_, List.forall_mem_nil _⟩
    · simp [makeCaseList, makeCaseListElement, Expr.new]
    · rintro ⟨l, ⟨⟩, a, ⟨⟩, b, ⟨⟩⟩
      have helement : (makeCaseListElement a b).rename f =
          makeCaseListElement (a.map (Expr.rename f)) (b.map (Expr.rename f)) := by
        simp [makeCaseListElement, Expr.new]
      refine map_some_rename ((caseListAppend_rename l _).trans ?_)
      rw [Option.map_some, helement]
      rfl
  | tableRef =>
    simp only [productions, tableRefRules, List.forall_mem_cons]
    refine ⟨natural_rule ?_, natural_deref ?_, List.forall_mem_nil _⟩
    · simp
    · simp [← pushBack_mapVec, Function.comp_def, TableRef.new]
  | tableRefCommalist =>
    simp only [productions, tableRefCommalistRules, List.forall_mem_cons]
    refine ⟨natural_rule ?_, natural_deref ?_, List.forall_mem_nil _⟩
    · simp [vector_mapVec]
    · simp [pushBack_mapVec]
  | joinClause =>
    simp only [productions, joinClauseRules, List.forall_mem_cons]
    refine ⟨natural_rule ?_, natural_rule ?_, natural_deref ?_, List.forall_mem_nil _⟩
    · simp [TableRef.new, JoinDefinition.new]
    · simp [TableRef.new]
    · rintro ⟨l, t, ⟨⟩, r, ⟨⟩, ⟨⟩, col, ⟨⟩⟩
      cases col with
      | none => rfl
      | some c =>
        cases l with
        | none => rfl
        | some left =>
          cases r with
          | none => cases h : usingColumn c left.getName <;> simp
          | some right =>
            simp [TableRef.getName_rename, ← usingColumn_rename, TableRef.new, makeOpBinary,
              Expr.new, Option.bind_map]
  | selectStatement =>
    simp only [productions, selectStatementRules, List.forall_mem_cons]
    refine ⟨natural_rule ?_, natural_rule ?_, natural_deref ?_, List.forall_mem_nil _⟩
    · simp
    · simp
    · simp [Function.comp_def, union_rename]
  | selectNoParen =>
    simp only [productions, selectNoParenRules, List.forall_mem_cons]
    refine ⟨natural_deref ?_, natural_deref ?_, List.forall_mem_nil _⟩
    · rintro ⟨s, o, l, ⟨⟩⟩
      cases s with
      | none => rfl
      | some s => exact congrArg some (congrArg some (order_rename s o l))
    · simp [Function.comp_def, union_rename]
  | orderList =>
    simp only [productions, orderListRules, List.forall_mem_cons]
    refine ⟨natural_rule ?_, natural_deref ?_, List.forall_mem_nil _⟩
    · simp [vector_mapVec]
    · simp [pushBack_mapVec]
  | updateClauseCommalist =>
    simp only [productions, updateClauseCommalistRules, List.forall_mem_cons]
    refine ⟨natural_rule ?_, natural_deref ?_, List.forall_mem_nil _⟩
    · simp [vector_mapVec]
    · simp [pushBack_mapVec]
  | columnDefCommalist =>
    simp only [productions, columnDefCommalistRules, List.forall_mem_cons]
    refine ⟨natural_rule ?_, natural_deref ?_, List.forall_mem_nil _⟩
    · simp [vector_mapVec]
    · simp [pushBack_mapVec]
  | columnDef =>
    simp only [productions, columnDefRules, List.forall_mem_cons]
    refine ⟨natural_deref ?_, natural_deref ?_, List.forall_mem_nil _⟩
    · simp [← columnDefinition_rename, Function.comp_def]
    · simp [← columnDefinition_rename, Function.comp_def, ColumnDefinition.rename]
  | columnConstraintList =>
    simp only [productions, columnConstraintListRules, List.forall_mem_cons]
    refine ⟨natural_rule ?_, natural_deref ?_, List.forall_mem_nil _⟩
    · simp [vector_mapVec]
    · simp [pushBack_mapVec]
  | indexedColumnList =>
    simp only [productions, indexedColumnListRules, List.forall_mem_cons]
    refine ⟨natural_rule ?_, natural_deref ?_, List.forall_mem_nil _⟩
    · simp [vector_mapVec]
    · simp [pushBack_mapVec]
  | foreignKeyEventList =>
    simp only [productions, foreignKeyEventListRules, List.forall_mem_cons]
    refine ⟨natural_rule ?_, natural_deref ?_, natural_constant _, List.forall_mem_nil _⟩
    · simp [vector_mapVec]
    · simp [pushBack_mapVec]
  | optTableConstraintList =>
    simp only [productions, optTableConstraintListRules, List.forall_mem_cons]
    refine ⟨natural_rule ?_, natural_deref ?_, natural_constant _, List.forall_mem_nil _⟩
    · simp [vector_mapVec]
    · simp [pushBack_mapVec]
  | identCommalist =>
    simp only [productions, identCommalistRules, List.forall_mem_cons]
    refine ⟨natural_rule ?_, natural_deref ?_, List.forall_mem_nil _⟩
    · simp [vector_mapVec]
    · simp [pushBack_mapVec]
  | _ =>
    first
    | exact natural_expression _ (by decide)
    | exact natural_table _ (by decide)
    | exact natural_create _ (by decide)
    | exact natural_other _ (by decide)

end
end

/-! Actions with effects. -/

/-- What is seen of the values under a renaming, with what is seen of places and states. -/
abbrev seen (f : Str → Str) (g : Option Nat → Option Nat) {Q Z : Type} (place : Location → Q)
    (state : ParserState → Z) : Image actions where
  B := TokenKind.Val
  W := NT.Val
  Q := Q
  Z := Z
  token t := t.rename f
  value n := n.rename f g
  place := place
  state := state

section
variable (f : Str → Str) (g : Option Nat → Option Nat) {Q Z : Type} (place : Location → Q)
  (state : ParserState → Z)

/-- What is seen of the action's result is computed from what is seen of its arguments. -/
def Production.Seen {n : NT} (p : Production n) : Prop :=
  ∃ a : Vals TokenKind.Val NT.Val p.rhs → Q → Z → Option (n.Val × Z),
    ∀ vs l s, (p.action vs l s).map (fun x => (n.rename f g x.1, state x.2)) =
      a (renameVals f g p.rhs vs) (place l) (state s)

variable {f g place state}

theorem Production.Natural.seen {n : NT} {p : Production n} (h : p.Natural f g) :
    p.Seen f g place state := by
  obtain ⟨h, h', haction, heq⟩ := h
  refine ⟨fun vs _ z => (h' vs).map fun v => (v, z), fun vs l s => ?_⟩
  show _ = (h' (renameVals f g p.rhs vs)).map _
  rw [haction, ← heq, Option.map_map, Option.map_map]
  rfl

theorem seen_vals (ss : List Sym) (vs : Vals TokenKind.Val NT.Val ss) :
    (Hsql.seen f g place state).vals ss vs = renameVals f g ss vs := by
  induction ss with
  | nil => rfl
  | cons sym ss ih =>
    cases sym with
    | terminal t => exact Prod.ext rfl (ih vs.2)
    | nonterminal n => exact Prod.ext rfl (ih vs.2)

theorem seen_respected (h : ∀ n, ∀ p ∈ productions n, p.Seen f g place state) :
    (Hsql.seen f g place state).Respected := by
  intro n r vs vs' l l' s s' hvals hplace hstate
  have hplace : place l = place l' := hplace
  have hstate : state s = state s' := hstate
  obtain ⟨a, ha⟩ := h n _ (List.get_mem (productions n) r)
  have heq := ha vs l s
  have heq' := ha vs' l' s'
  rw [seen_vals, seen_vals] at hvals
  rw [hvals, hplace, hstate] at heq
  exact heq.trans heq'.symm

end
end Hsql
