import Hsql.Parser.WellFormed

/-! Expressions keep every operand: the tree that the actions build, walked in order, has the leaves
of the source. -/

namespace Hsql
open Bison Vals Expr

/-- What an expression is made of: a node without operands as its own action makes it, the name of a
function, a nested select. -/
inductive Leaf where
  | node (type : ExprType) (table name : Option Str) (fval : Str) (ival : Int) (addr : Option Nat)
  | function (name : Option Str)
  | select (s : SelectStatement)

namespace Expr

/-- A node's own leaf. -/
def own (e : Expr) : List Leaf :=
  match e.type with
  | .kExprOperator | .kExprSelect | .kExprArray | .kExprArrayIndex => []
  | .kExprFunctionRef => [.function e.name]
  | type => [.node type e.table e.name e.fval e.ival e.addr]

def selectLeaf : Option SelectStatement → List Leaf
  | none => []
  | some s => [.select s]

mutual

/-- The leaves of an expression in order. The branches of a `CASE` come before its `ELSE`. -/
def inOrder : Expr → List Leaf
  | ⟨type, expr, expr2, exprList, select, name, table, «alias», fval, ival, ival2, opType, distinct,
      escape, addr⟩ =>
    own ⟨type, expr, expr2, exprList, select, name, table, «alias», fval, ival, ival2, opType,
      distinct, escape, addr⟩ ++ ptrInOrder expr ++
      (if opType = .kOpCase then vecInOrder exprList ++ ptrInOrder expr2
        else ptrInOrder expr2 ++ vecInOrder exprList) ++
      selectLeaf select ++ ptrInOrder escape

def ptrInOrder : Option Expr → List Leaf
  | none => []
  | some e => e.inOrder

def vecInOrder : Option (List (Option Expr)) → List Leaf
  | none => []
  | some l => listInOrder l

def listInOrder : List (Option Expr) → List Leaf
  | [] => []
  | x :: l => ptrInOrder x ++ listInOrder l

end

theorem inOrder_eq (e : Expr) : e.inOrder = e.own ++ ptrInOrder e.expr ++
    (if e.opType = .kOpCase then vecInOrder e.exprList ++ ptrInOrder e.expr2
      else ptrInOrder e.expr2 ++ vecInOrder e.exprList) ++
    selectLeaf e.select ++ ptrInOrder e.escape := by
  cases e
  rw [inOrder]

@[simp] theorem ptrInOrder_none : ptrInOrder none = [] := by
  rw [ptrInOrder]

@[simp] theorem ptrInOrder_some (e : Expr) : ptrInOrder (some e) = e.inOrder := by
  rw [ptrInOrder]

@[simp] theorem vecInOrder_none : vecInOrder none = [] := by
  rw [vecInOrder]

@[simp] theorem vecInOrder_nil : vecInOrder (some []) = [] := by
  rw [vecInOrder, listInOrder]

@[simp] theorem vecInOrder_cons (x : Option Expr) (l : List (Option Expr)) :
    vecInOrder (some (x :: l)) = ptrInOrder x ++ vecInOrder (some l) := by
  rw [vecInOrder, listInOrder, vecInOrder]

@[simp] theorem vecInOrder_append (l l' : List (Option Expr)) :
    vecInOrder (some (l ++ l')) = vecInOrder (some l) ++ vecInOrder (some l') := by
  induction l with
  | nil => simp
  | cons x l ih => simp [ih]

/-- A node without operands. -/
def Alone (e : Option Expr) : Prop := ptrInOrder e = (e.map own).getD []

end Expr

namespace NT

/-- The leaves of the source: names of columns, literals and parameters, names of functions, nested
selects. The nonterminals of expressions are no leaves; aliases and `DISTINCT` read as nothing. -/
def leaf : (n : NT) → Option (n.Val → List Leaf)
  | .columnName | .literal => some fun e => (e.map own).getD []
  | .stringOrToken => some fun f => [.function f]
  | .selectNoParen => some selectLeaf
  | .exprList | .exprAlias | .expr | .operand | .scalarExpr | .unaryExpr | .binaryExpr | .logicExpr
  | .inExpr | .caseExpr | .caseList | .existsExpr | .compExpr | .functionExpr | .betweenExpr => none
  | _ => some fun _ => []

/-- What a value of the actions reads as. -/
def inOrder : (n : NT) → n.Val → List Leaf
  | .exprAlias | .expr | .operand | .scalarExpr | .unaryExpr | .binaryExpr | .logicExpr | .inExpr
  | .caseExpr | .existsExpr | .compExpr | .functionExpr | .betweenExpr | .columnName | .literal =>
    ptrInOrder
  | .exprList => vecInOrder
  | .caseList => fun v => vecInOrder (v.bind Expr.exprList)
  | .stringOrToken => fun f => [.function f]
  | .selectNoParen => selectLeaf
  | _ => fun _ => []

def Alone : (n : NT) → n.Val → Prop
  | .columnName | .literal | .stringLiteral | .numLiteral | .intLiteral | .nullLiteral | .paramExpr =>
    Expr.Alone
  | _ => fun _ => True

end NT

/-- The value reads as the parts do. -/
def Production.KeepsOrder {n : NT} (p : Production n) : Prop :=
  ∀ vs l s v s', p.action vs l s = some (v, s') → n.inOrder v = vs.read NT.inOrder

section
variable {n : NT} {rhs : List Sym}

theorem keepsOrder_rule {f : Vals TokenKind.Val NT.Val rhs → n.Val}
    (h : ∀ vs, n.inOrder (f vs) = vs.read NT.inOrder) : (rule rhs f).KeepsOrder := by
  intro vs l s v s' heq
  cases heq
  exact h vs

theorem keepsOrder_deref {f : Vals TokenKind.Val NT.Val rhs → Option n.Val}
    (h : ∀ vs v, f vs = some v → n.inOrder v = vs.read NT.inOrder) : (deref rhs f).KeepsOrder := by
  intro vs l s v s' heq
  obtain ⟨u, hu, hpair⟩ := Option.map_eq_some_iff.mp heq
  cases hpair
  exact h vs v hu

end

section
attribute [local simp] forall_terminal forall_nonterminal forall_nil Vals.read NT.inOrder inOrder_eq
  own selectLeaf Expr.new

theorem keepsOrder {n : NT} (hn : n.leaf = none) : ∀ p ∈ productions n, p.KeepsOrder := by
  cases n with
  | exprList =>
    simp only [productions, exprListRules, List.forall_mem_cons]
    refine ⟨keepsOrder_rule ?_, keepsOrder_deref ?_, List.forall_mem_nil _⟩
    · simp [vector]
    · simp only [forall_terminal, forall_nonterminal, forall_nil]
      intro l _ x v hv
      obtain ⟨xs, rfl, rfl⟩ := Option.map_eq_some_iff.mp hv
      simp
  | exprAlias =>
    simp only [productions, exprAliasRules, List.forall_mem_cons]
    refine ⟨keepsOrder_deref ?_, List.forall_mem_nil _⟩
    simp only [forall_nonterminal, forall_nil]
    intro e a v hv
    obtain ⟨x, rfl, rfl⟩ := Option.map_eq_some_iff.mp hv
    simp
  | caseExpr =>
    simp only [productions, caseExprRules, List.forall_mem_cons]
    refine ⟨keepsOrder_deref ?_, keepsOrder_deref ?_, keepsOrder_deref ?_, keepsOrder_deref ?_,
      List.forall_mem_nil _⟩ <;>
    · simp only [forall_terminal, forall_nonterminal, forall_nil]
      intros
      rename_i hv
      obtain ⟨x, hx, rfl⟩ := Option.map_eq_some_iff.mp hv
      obtain ⟨y, rfl, hy⟩ := Option.bind_eq_some_iff.mp hx
      cases hy
      simp
  | caseList =>
    simp only [productions, caseListRules, List.forall_mem_cons]
    refine ⟨keepsOrder_rule ?_, keepsOrder_deref ?_, List.forall_mem_nil _⟩
    · simp [makeCaseList, makeCaseListElement]
    · simp only [forall_terminal, forall_nonterminal, forall_nil]
      intro l _ a _ b v hv
      obtain ⟨x, hx, rfl⟩ := Option.map_eq_some_iff.mp hv
      obtain ⟨y, rfl, hy⟩ := Option.bind_eq_some_iff.mp hx
      obtain ⟨xs, hxs, hy⟩ := Option.bind_eq_some_iff.mp hy
      cases hy
      simp [makeCaseListElement, hxs]
  | expr | operand | scalarExpr | unaryExpr | binaryExpr | logicExpr | inExpr | existsExpr | compExpr
  | functionExpr | betweenExpr =>
    repeat' refine List.forall_mem_cons.mpr ⟨?_, ?_⟩
    all_goals
      first
      | exact List.forall_mem_nil _
      | apply keepsOrder_rule
        simp [makeOpUnary, makeOpBinary, makeBetween, makeInList, makeInSelect, makeInEmpty,
          makeExists, makeSelect, makeFunctionRef]
  | _ => cases hn

end

theorem alone_new (e : Expr) (hexpr : e.expr = none) (hexpr2 : e.expr2 = none)
    (hlist : e.exprList = none) (hselect : e.select = none) (hescape : e.escape = none) :
    Alone (some e) := by
  show ptrInOrder (some e) = e.own
  rw [ptrInOrder_some, inOrder_eq, hexpr, hexpr2, hlist, hselect, hescape]
  simp [selectLeaf]

theorem preserves_alone : actions.Preserves NT.Alone := by
  intro n r p vs s v s' hvs h
  have hrule : ∀ p ∈ productions n, p.Preserves NT.Alone := by
    cases n with
    | columnName =>
      simp only [productions, columnNameRules, List.forall_mem_cons]
      refine ⟨Production.preserves_rule fun _ _ => ?_, Production.preserves_rule fun _ _ => ?_,
        Production.preserves_rule fun _ _ => ?_, Production.preserves_rule fun _ _ => ?_,
        List.forall_mem_nil _⟩ <;>
        exact alone_new _ rfl rfl rfl rfl rfl
    | literal =>
      simp only [productions, literalRules, List.forall_mem_cons]
      refine ⟨Production.preserves_rule fun _ h => h.1, Production.preserves_rule fun _ h => h.1,
        Production.preserves_rule fun _ h => h.1, Production.preserves_rule fun _ h => h.1,
        List.forall_mem_nil _⟩
    | stringLiteral =>
      refine List.forall_mem_singleton.mpr (Production.preserves_rule fun _ _ => ?_)
      exact alone_new _ rfl rfl rfl rfl rfl
    | numLiteral =>
      simp only [productions, numLiteralRules, List.forall_mem_cons]
      refine ⟨Production.preserves_rule fun _ _ => ?_, Production.preserves_rule fun _ h => h.1,
        List.forall_mem_nil _⟩
      exact alone_new _ rfl rfl rfl rfl rfl
    | intLiteral =>
      refine List.forall_mem_singleton.mpr (Production.preserves_rule fun _ _ => ?_)
      exact alone_new _ rfl rfl rfl rfl rfl
    | nullLiteral =>
      refine List.forall_mem_singleton.mpr (Production.preserves_rule fun _ _ => ?_)
      exact alone_new _ rfl rfl rfl rfl rfl
    | paramExpr =>
      simp only [productions, paramExprRules, List.forall_mem_cons]
      refine ⟨fun vs _ l s v s' h => ?_, Production.preserves_rule fun _ _ => ?_,
        List.forall_mem_nil _⟩
      · cases h
        exact alone_new _ rfl rfl rfl rfl rfl
      · exact alone_new _ rfl rfl rfl rfl rfl
    | _ => exact fun _ _ _ _ _ _ _ _ _ => trivial
  exact hrule _ (List.get_mem _ r) vs hvs p s v s' h

theorem leaf_eq {n : NT} {f : n.Val → List Leaf} (hf : n.leaf = some f) (v : n.Val)
    (hv : n.Alone v) : f v = n.inOrder v := by
  cases n with
  | columnName | literal =>
    cases hf
    exact hv.symm
  | exprList | exprAlias | expr | operand | scalarExpr | unaryExpr | binaryExpr | logicExpr | inExpr
  | caseExpr | caseList | existsExpr | compExpr | functionExpr | betweenExpr => cases hf
  | _ =>
    cases hf
    rfl

/-- The leaves of an expression's derivation, from left to right, are the leaves of the tree that
its actions build, walked in order. -/
theorem leaves_eq_inOrder (d : Derivation .expr) (s : ParserState) :
    ∀ e s', d.eval actions s = some (e, s') →
      ∃ x, e = some x ∧ d.leaves actions NT.leaf s = x.inOrder := by
  intro e s' h
  have hgiven : e.isSome := d.eval_all preserves_given h
  obtain ⟨x, rfl⟩ := Option.isSome_iff_exists.mp hgiven
  have hleaves : d.leaves actions NT.leaf s = NT.expr.inOrder (some x) :=
    d.eval_leaves preserves_alone (fun _ _ hf v hv => leaf_eq hf v hv)
      (fun r p vs s v s' hn hact => keepsOrder hn _ (List.get_mem _ r) vs p s v s' hact) h
  exact ⟨x, rfl, hleaves.trans (ptrInOrder_some x)⟩

/-- The derivation of `a IN (?)`. -/
def inDerivation : Derivation .expr :=
  let column : Derivation .operand := .node (1 : Fin 7) Location.zero (.tree
    (.node (0 : Fin 2) Location.zero (.tree
      (.node (0 : Fin 4) Location.zero (.token ['a'] .nil)) .nil)) .nil)
  let param : Derivation .operand := .node (1 : Fin 7) Location.zero (.tree
    (.node (1 : Fin 2) Location.zero (.tree
      (.node (3 : Fin 4) Location.zero (.tree
        (.node (0 : Fin 2) Location.zero (.token () .nil)) .nil)) .nil)) .nil)
  let item : Derivation .exprAlias := .node (0 : Fin 1) Location.zero (.tree
    (.node (0 : Fin 5) Location.zero (.tree param .nil))
    (.tree (.node (1 : Fin 2) Location.zero .nil) .nil))
  let items : Derivation .exprList := .node (0 : Fin 2) Location.zero (.tree item .nil)
  .node (4 : Fin 5) Location.zero (.tree
    (.node (0 : Fin 6) Location.zero
      (.tree column (.token () (.token () (.tree items (.token () .nil)))))) .nil)

theorem leaves_eq_inOrder_in : ∃ e s' x,
    inDerivation.eval actions (.start ⟨0, 0, 0, 0⟩ .new) = some (e, s') ∧ e = some x ∧
      inDerivation.leaves actions NT.leaf (.start ⟨0, 0, 0, 0⟩ .new) = x.inOrder := by
  have hsome : (inDerivation.eval actions (.start ⟨0, 0, 0, 0⟩ .new)).isSome := by decide +kernel
  obtain ⟨⟨e, s'⟩, heval⟩ := Option.isSome_iff_exists.mp hsome
  obtain ⟨x, hx, hleaves⟩ := leaves_eq_inOrder inDerivation (.start ⟨0, 0, 0, 0⟩ .new) e s' heval
  exact ⟨e, s', x, heval, hx, hleaves⟩

end Hsql
