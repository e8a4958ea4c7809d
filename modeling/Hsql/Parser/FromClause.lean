import Hsql.Parser.Joins

/-! A `FROM` keeps its shape: chains of joins nest to the left, and several of them make one cross
product with a table for each. -/

namespace Hsql
open Bison Keyword TokenKind

/-- What is read from the text, as the parser goes on. -/
abbrev Evaluation (α : Type) := ParserState → Option (α × ParserState)

/-- How a step joins its operand to the chain. -/
inductive JoinKind where
  | natural
  | on (type : Derivation .optJoinType) (c : Derivation .joinCondition)
  | using (type : Derivation .optJoinType) (col : Derivation .columnName)

/-- An item of a `FROM`: a named table or a select in parentheses, and joins one after the other. -/
inductive JoinChain where
  | operand (t : Derivation .nonjoinTableRefAtomic)
  | step (left : JoinChain) (kind : JoinKind) (t : Derivation .nonjoinTableRefAtomic)

namespace JoinChain

def spelledStep (t : Derivation .nonjoinTableRefAtomic) : JoinKind → List FromLeaf
  | .natural => tok NATURAL () :: tok JOIN () :: Hsql.spelled t
  | .on type c => Hsql.spelled type ++ tok JOIN () :: (Hsql.spelled t ++
      tok ON () :: Hsql.spelled c)
  | .using type col => Hsql.spelled type ++ tok JOIN () :: (Hsql.spelled t ++
      tok USING () :: tok '(' () :: (Hsql.spelled col ++ [tok ')' ()]))

def spelled : JoinChain → List FromLeaf
  | operand t => Hsql.spelled t
  | step left kind t => left.spelled ++ spelledStep t kind

/-- The tree of a chain: the last step at the root, the chain before it as the left operand. -/
def tree : JoinChain → Evaluation (Option TableRef)
  | operand t => t.eval actions
  | step left .natural t => fun s => (left.tree s).bind fun l =>
      (t.eval actions l.2).map fun r => (joinOf .kJoinNatural l.1 r.1 none, r.2)
  | step left (.on type c) t => fun s => (left.tree s).bind fun l =>
      (type.eval actions l.2).bind fun j => (t.eval actions j.2).bind fun r =>
        (c.eval actions r.2).map fun c => (joinOf j.1 l.1 r.1 c.1, c.2)
  | step left (.using type col) t => fun s => (left.tree s).bind fun l =>
      (type.eval actions l.2).bind fun j => (t.eval actions j.2).bind fun r =>
        (col.eval actions r.2).bind fun col =>
          (usingCondition l.1 r.1 col.1).map fun c => (joinOf j.1 l.1 r.1 c, col.2)

/-- A derivation of the chain, at that place of the text. -/
def derivation (p : Location) : JoinChain → Derivation .tableRefAtomic
  | operand t => Hsql.operand p t
  | step left .natural t => (JoinStep.natural p p t).after (left.derivation p)
  | step left (.on type c) t =>
    (JoinStep.on p p type (Hsql.operand p t) c).after (left.derivation p)
  | step left (.using type col) t =>
    (JoinStep.using p p type (Hsql.operand p t) col).after (left.derivation p)

theorem spelled_derivation (p : Location) (c : JoinChain) :
    Hsql.spelled (c.derivation p) = c.spelled := by
  induction c with
  | operand t => exact spelled_operand p t
  | step left kind t ih =>
    cases kind <;>
      simp only [derivation, JoinStep.spelled_after, JoinStep.spelled, spelled, spelledStep,
        spelled_operand, ih]

end JoinChain

theorem eval_operand (p : Location) (t : Derivation .nonjoinTableRefAtomic) :
    (operand p t).eval actions = t.eval actions := by
  funext s
  simp only [operand, Tree.eval, Forest.eval]
  cases Tree.eval actions t s <;> rfl

namespace JoinChain

theorem eval_derivation (p : Location) (c : JoinChain) :
    (c.derivation p).eval actions = c.tree := by
  induction c with
  | operand t => exact eval_operand p t
  | step left kind t ih =>
    funext s
    cases kind <;>
      simp only [derivation, JoinStep.eval_after, JoinStep.eval, tree, eval_operand, ih]

end JoinChain

/-- However the chain is derived. -/
theorem JoinChain.eval_of_spelled {d : Derivation .tableRefAtomic} {c : JoinChain}
    (h : Hsql.spelled d = c.spelled) : d.eval actions = c.tree := by
  rw [← c.spelled_derivation Location.zero] at h
  obtain ⟨heval, -⟩ := decides_tableRefAtomic d (c.derivation Location.zero) [] []
    (fun _ _ h => nomatch h) (fun _ _ h => nomatch h) (congrArg (· ++ []) h)
  rw [heval, c.eval_derivation]

/-! Several items. -/

def readAll {α : Type} : List (Evaluation α) → Evaluation (List α)
  | [], s => some ([], s)
  | f :: fs, s => (f s).bind fun x => (readAll fs x.2).map fun y => (x.1 :: y.1, y.2)

theorem readAll_concat {α : Type} (fs : List (Evaluation α)) (f : Evaluation α) (s : ParserState) :
    readAll (fs ++ [f]) s =
      (readAll fs s).bind fun x => (f x.2).map fun y => (x.1 ++ [y.1], y.2) := by
  induction fs generalizing s with
  | nil => simp only [List.nil_append, readAll, Option.bind_some, Option.map_eq_bind,
      Function.comp_def]
  | cons g fs ih =>
    simp only [List.cons_append, readAll, ih]
    cases g s with
    | none => rfl
    | some x =>
      simp only [Option.bind_some]
      cases readAll fs x.2 with
      | none => rfl
      | some y =>
        simp only [Option.map_some, Option.bind_some]
        cases f y.2 <;> rfl

/-- The table of a `FROM`: the tree of a single item, the cross product of several. -/
def tableOf (first : Evaluation (Option TableRef)) (others : List (Evaluation (Option TableRef))) :
    Evaluation (Option TableRef) := fun s =>
  match others with
  | [] => first s
  | others => (readAll (first :: others) s).map fun x =>
      (some { TableRef.new .kTableCrossProduct with list := some x.1 }, x.2)

theorem tableOf_cons (f g : Evaluation (Option TableRef)) (gs : List (Evaluation (Option TableRef)))
    (s : ParserState) : tableOf f (g :: gs) s = (readAll (f :: g :: gs) s).map fun x =>
      (some { TableRef.new .kTableCrossProduct with list := some x.1 }, x.2) := rfl

/-- Items with commas between them. -/
def spelledItems (first : List FromLeaf) (others : List (List FromLeaf)) : List FromLeaf :=
  first ++ others.flatMap fun L => tok ',' () :: L

theorem spelledItems_concat (first : List FromLeaf) (others : List (List FromLeaf))
    (L : List FromLeaf) :
    spelledItems first (others ++ [L]) = spelledItems first others ++ tok ',' () :: L := by
  simp only [spelledItems, List.flatMap_append, List.flatMap_cons, List.flatMap_nil,
    List.append_nil, List.append_assoc]

theorem exists_items (d : Derivation .tableRefCommalist) :
    ∃ (a : Derivation .tableRefAtomic) (as : List (Derivation .tableRefAtomic)),
      spelled d = spelledItems (spelled a) (as.map spelled) ∧
      ∀ s, d.eval actions s = (readAll ((a :: as).map (Tree.eval actions)) s).map fun x =>
        (some x.1, x.2) :=
  match d with
  | .node ⟨0, _⟩ p (.tree a .nil) => by
    refine ⟨a, [], ?_, fun s => ?_⟩
    · simp only [spelled, Tree.frontier, Forest.frontier, spelledItems, List.map_nil,
        List.flatMap_nil, if_neg (show ¬ opaqueInFrom .tableRefCommalist = true from by decide)]
    · simp only [Tree.eval, Forest.eval, List.map_cons, List.map_nil, readAll]
      cases Tree.eval actions a s <;> rfl
  | .node ⟨1, _⟩ p (.tree l (.token () (.tree b .nil))) => by
    obtain ⟨a, as, hl, hvalue⟩ := exists_items l
    refine ⟨a, as ++ [b], ?_, fun s => ?_⟩
    · rw [List.map_append, List.map_singleton, spelledItems_concat, ← hl]
      simp only [spelled, Tree.frontier, Forest.frontier, List.append_nil,
        if_neg (show ¬ opaqueInFrom .tableRefCommalist = true from by decide)]
    · rw [← List.cons_append, List.map_append, List.map_singleton, readAll_concat]
      simp only [Tree.eval, Forest.eval, hvalue]
      cases readAll ((a :: as).map (Tree.eval actions)) s with
      | none => rfl
      | some x =>
        simp only [Option.map_some, Option.bind_some]
        cases Tree.eval actions b x.2 <;> rfl
termination_by sizeOf d
decreasing_by
  refine lt_trans ?_ (Tree.sizeOf_lt_node ..)
  exact Forest.sizeOf_lt_tree ..

theorem exists_items_tableRef (d : Derivation .tableRef) :
    ∃ (a : Derivation .tableRefAtomic) (as : List (Derivation .tableRefAtomic)),
      spelled d = spelledItems (spelled a) (as.map spelled) ∧
      d.eval actions = tableOf (a.eval actions) (as.map (Tree.eval actions)) := by
  obtain ⟨r, p, kids⟩ := d
  match r, kids with
  | ⟨0, _⟩, .tree a .nil =>
    refine ⟨a, [], ?_, funext fun s => ?_⟩
    · simp only [spelled, Tree.frontier, Forest.frontier, spelledItems, List.map_nil,
        List.flatMap_nil, if_neg (show ¬ opaqueInFrom .tableRef = true from by decide)]
    · simp only [Tree.eval, Forest.eval, List.map_nil, tableOf]
      cases Tree.eval actions a s <;> rfl
  | ⟨1, _⟩, .tree l (.token () (.tree b .nil)) =>
    obtain ⟨a, as, hl, hvalue⟩ := exists_items l
    refine ⟨a, as ++ [b], ?_, funext fun s => ?_⟩
    · rw [List.map_append, List.map_singleton, spelledItems_concat, ← hl]
      simp only [spelled, Tree.frontier, Forest.frontier, List.append_nil,
        if_neg (show ¬ opaqueInFrom .tableRef = true from by decide)]
    · -- the last item is read after the list, and pushed back to it
      have hmany : tableOf (a.eval actions) ((as ++ [b]).map (Tree.eval actions)) s =
          (readAll ((a :: as).map (Tree.eval actions) ++ [Tree.eval actions b]) s).map fun x =>
            (some { TableRef.new .kTableCrossProduct with list := some x.1 }, x.2) := by
        rw [List.map_append]
        cases as <;> rfl
      rw [hmany, readAll_concat]
      simp only [Tree.eval, Forest.eval, hvalue]
      cases readAll ((a :: as).map (Tree.eval actions)) s with
      | none => rfl
      | some x =>
        simp only [Option.map_some, Option.bind_some]
        cases Tree.eval actions b x.2 <;> rfl

theorem notAhead_items (as : List (Derivation .tableRefAtomic)) :
    NotAhead chainKinds ((as.map spelled).flatMap fun L => tok ',' () :: L).head? := by
  cases as with
  | nil => exact fun _ _ h => nomatch h
  | cons a as => exact notAhead_cons (t := ',') (by decide) () _

/-- The same leaves are the same items. -/
theorem items_agree {a a' : Derivation .tableRefAtomic} (as as' : List (Derivation .tableRefAtomic))
    (heq : spelledItems (spelled a) (as.map spelled) =
      spelledItems (spelled a') (as'.map spelled)) :
    a.eval actions = a'.eval actions ∧
      as.map (Tree.eval actions) = as'.map (Tree.eval actions) := by
  induction as generalizing a a' as' with
  | nil =>
    obtain ⟨ha, hrest⟩ := decides_tableRefAtomic a a' _ _ (notAhead_items [])
      (notAhead_items as') heq
    cases as' with
    | nil => exact ⟨ha, rfl⟩
    | cons b' bs' => exact absurd hrest nofun
  | cons b bs ih =>
    obtain ⟨ha, hrest⟩ := decides_tableRefAtomic a a' _ _ (notAhead_items (b :: bs))
      (notAhead_items as') heq
    cases as' with
    | nil => exact absurd hrest nofun
    | cons b' bs' =>
      obtain ⟨hb, hbs⟩ := ih bs' (List.cons_eq_cons.mp hrest).2
      exact ⟨ha, by rw [List.map_cons, List.map_cons, hb, hbs]⟩

theorem eval_tableRef {d : Derivation .tableRef} {first : JoinChain} {others : List JoinChain}
    (h : spelled d = spelledItems first.spelled (others.map JoinChain.spelled)) :
    d.eval actions = tableOf first.tree (others.map JoinChain.tree) := by
  obtain ⟨a, as, hd, hvalue⟩ := exists_items_tableRef d
  let p := Location.zero
  have heq : spelledItems (spelled a) (as.map spelled) =
      spelledItems (spelled (first.derivation p))
        ((others.map (JoinChain.derivation p)).map spelled) := by
    rw [← hd, h, JoinChain.spelled_derivation, List.map_map]
    exact congrArg _ (List.map_congr_left fun c _ => (c.spelled_derivation p).symm)
  obtain ⟨ha, has⟩ := items_agree as _ heq
  rw [hvalue, ha, has, JoinChain.eval_derivation, List.map_map]
  exact congrArg _ (List.map_congr_left fun c _ => c.eval_derivation p)

/-! The clause. -/

/-- The text of a `FROM` of those items. -/
def spelledFrom (first : JoinChain) (others : List JoinChain) : List FromLeaf :=
  tok FROM () :: spelledItems first.spelled (others.map JoinChain.spelled)

theorem exists_commalist (p : Location) (first : JoinChain) (others : List JoinChain) :
    ∃ l : Derivation .tableRefCommalist,
      spelled l = spelledItems first.spelled (others.map JoinChain.spelled) := by
  induction others using List.reverseRecOn with
  | nil =>
    refine ⟨.node ⟨0, by decide⟩ p (.tree (first.derivation p) .nil), ?_⟩
    rw [← first.spelled_derivation p]
    simp only [spelled, Tree.frontier, Forest.frontier, spelledItems, List.map_nil,
      List.flatMap_nil, if_neg (show ¬ opaqueInFrom .tableRefCommalist = true from by decide)]
  | append_singleton cs c ih =>
    obtain ⟨l, hl⟩ := ih
    refine ⟨.node ⟨1, by decide⟩ p (.tree l (.token () (.tree (c.derivation p) .nil))), ?_⟩
    rw [List.map_append, List.map_singleton, spelledItems_concat, ← hl, ← c.spelled_derivation p]
    simp only [spelled, Tree.frontier, Forest.frontier, List.append_nil,
      if_neg (show ¬ opaqueInFrom .tableRefCommalist = true from by decide)]

theorem exists_tableRef (p : Location) (first : JoinChain) (others : List JoinChain) :
    ∃ d : Derivation .tableRef,
      spelled d = spelledItems first.spelled (others.map JoinChain.spelled) := by
  induction others using List.reverseRecOn with
  | nil =>
    refine ⟨.node ⟨0, by decide⟩ p (.tree (first.derivation p) .nil), ?_⟩
    rw [← first.spelled_derivation p]
    simp only [spelled, Tree.frontier, Forest.frontier, spelledItems, List.map_nil,
      List.flatMap_nil, if_neg (show ¬ opaqueInFrom .tableRef = true from by decide)]
  | append_singleton cs c _ =>
    obtain ⟨l, hl⟩ := exists_commalist p first cs
    refine ⟨.node ⟨1, by decide⟩ p (.tree l (.token () (.tree (c.derivation p) .nil))), ?_⟩
    rw [List.map_append, List.map_singleton, spelledItems_concat, ← hl, ← c.spelled_derivation p]
    simp only [spelled, Tree.frontier, Forest.frontier, List.append_nil,
      if_neg (show ¬ opaqueInFrom .tableRef = true from by decide)]

theorem eval_fromClause {d : Derivation .fromClause} {first : JoinChain} {others : List JoinChain}
    (h : spelled d = spelledFrom first others) :
    d.eval actions = tableOf first.tree (others.map JoinChain.tree) := by
  obtain ⟨r, p, kids⟩ := d
  match r, kids with
  | ⟨0, _⟩, .token a (.tree t .nil) =>
    have ht : spelled t = spelledItems first.spelled (others.map JoinChain.spelled) := by
      have h : tok FROM a :: (spelled t ++ []) = spelledFrom first others := h
      rw [List.append_nil] at h
      exact (List.cons_eq_cons.mp h).2
    rw [← eval_tableRef ht]
    funext s
    simp only [Tree.eval, Forest.eval]
    cases Tree.eval actions t s <;> rfl

/-- The `FROM` of a select. -/
def fromPart : Derivation .selectClause → Derivation .fromClause
  | .node ⟨0, _⟩ _ (.token _ (.tree _ (.tree _ (.tree d _)))) => d

/-- The tree of the `FROM` is the table of the select. -/
theorem fromTable_of_eval {d : Derivation .selectClause} {s : ParserState}
    {v : Option SelectStatement} {s' : ParserState} (h : d.eval actions s = some (v, s')) :
    ∃ s₀ t s₁ sel, (fromPart d).eval actions s₀ = some (t, s₁) ∧ v = some sel ∧
      sel.fromTable = t := by
  obtain ⟨r, p, kids⟩ := d
  match r, kids with
  | ⟨0, _⟩, .token a (.tree x (.tree y (.tree z (.tree w (.tree g .nil))))) =>
    obtain ⟨vs, s₆, hkids, hact⟩ := Tree.eval_eq_some h
    obtain ⟨s₁, -, hkids⟩ := Forest.eval_tree_eq_some (Forest.eval_token_eq_some hkids)
    obtain ⟨s₂, -, hkids⟩ := Forest.eval_tree_eq_some hkids
    obtain ⟨s₃, hfrom, -⟩ := Forest.eval_tree_eq_some hkids
    obtain ⟨hv, -⟩ := Prod.mk.inj (Option.some.inj hact)
    exact ⟨s₂, _, s₃, _, hfrom, hv.symm, rfl⟩

/-! `a JOIN b USING (x)`, and `JOIN c USING (y)` after it. -/

def namedTable (a : Str) : Derivation .nonjoinTableRefAtomic :=
  let token : Derivation .stringOrToken := .node ⟨0, by decide⟩ .zero (.token a .nil)
  let name : Derivation .tableName := .node ⟨0, by decide⟩ .zero (.tree token .nil)
  let noIndex : Derivation .optIndexedBy := .node ⟨1, by decide⟩ .zero .nil
  let noAlias : Derivation .optAlias := .node ⟨1, by decide⟩ .zero .nil
  let table : Derivation .tableRefName :=
    .node ⟨0, by decide⟩ .zero (.tree name (.tree noIndex (.tree noAlias .nil)))
  .node ⟨0, by decide⟩ .zero (.tree table .nil)

def plainJoin : Derivation .optJoinType := .node ⟨9, by decide⟩ .zero .nil

def plainColumn (c : Str) : Derivation .columnName := .node ⟨0, by decide⟩ .zero (.token c .nil)

def usingStep (left : JoinChain) (table column : Str) : JoinChain :=
  left.step (.using plainJoin (plainColumn column)) (namedTable table)

def oneJoin : JoinChain := usingStep (.operand (namedTable ['a'])) ['b'] ['x']

def twoJoins : JoinChain := usingStep oneJoin ['c'] ['y']

def tableNamed (a : Str) : TableRef :=
  { TableRef.new .kTableName with name := some a, indexedBy := some none }

theorem eval_namedTable (a : Str) (s : ParserState) :
    (namedTable a).eval actions s = some (some (tableNamed a), s) := rfl

theorem tree_usingStep {left : JoinChain} {l : TableRef} {s s' : ParserState}
    (h : left.tree s = some (some l, s')) (table column : Str) :
    (usingStep left table column).tree s = some (joinOf .kJoinInner (some l)
      (some (tableNamed table)) (some (Expr.makeOpBinary (columnIn l.getName column)
        .kOpEquals (columnIn (some table) column))), s') := by
  have htype : Tree.eval actions plainJoin s' = some (.kJoinInner, s') := rfl
  have hcol : Tree.eval actions (plainColumn column) s' =
      some (some (Expr.makeColumnRef (some column)), s') := rfl
  simp only [usingStep, JoinChain.tree, h, Option.bind_some, htype, eval_namedTable, hcol,
    usingCondition_eq, Option.map_some]
  rfl

theorem tree_oneJoin (s : ParserState) : ∃ t : TableRef, t.getName = none ∧
    oneJoin.tree s = some (some t, s) := by
  have hfirst : (JoinChain.operand (namedTable ['a'])).tree s = some (some (tableNamed ['a']), s) :=
    eval_namedTable ['a'] s
  exact ⟨_, rfl, tree_usingStep hfirst ['b'] ['x']⟩

/-- Whatever the items of a `FROM`, it has a derivation, and all its derivations give the select the
same table. -/
theorem fromClause_shape (first : JoinChain) (others : List JoinChain) :
    (∃ d : Derivation .fromClause, spelled d = spelledFrom first others) ∧
    (∀ d : Derivation .fromClause, spelled d = spelledFrom first others →
      d.eval actions = tableOf first.tree (others.map JoinChain.tree)) ∧
    ∀ (d : Derivation .selectClause) (s : ParserState) (v : Option SelectStatement)
      (s' : ParserState), spelled (fromPart d) = spelledFrom first others →
        d.eval actions s = some (v, s') → ∃ s₀ t s₁ sel,
          tableOf first.tree (others.map JoinChain.tree) s₀ = some (t, s₁) ∧ v = some sel ∧
            sel.fromTable = t := by
  refine ⟨?_, fun d h => eval_fromClause h, fun d s v s' h hd => ?_⟩
  · let p := Location.zero
    obtain ⟨t, ht⟩ := exists_tableRef p first others
    refine ⟨.node ⟨0, by decide⟩ p (.token () (.tree t .nil)), ?_⟩
    show tok FROM () :: (spelled t ++ []) = _
    rw [List.append_nil, ht]
    rfl
  · rw [← eval_fromClause h]
    exact fromTable_of_eval hd

theorem fromClause_shape_two : ∃ d : Derivation .fromClause,
    spelled d = spelledFrom oneJoin [.operand (namedTable ['c'])] ∧
      ∃ l s', d.eval actions (.start ⟨0, 0, 0, 0⟩ .new) =
        some (some { TableRef.new .kTableCrossProduct with
          list := some [l, some (tableNamed ['c'])] }, s') := by
  obtain ⟨⟨d, hd⟩, heval, -⟩ := fromClause_shape oneJoin [.operand (namedTable ['c'])]
  let s : ParserState := .start ⟨0, 0, 0, 0⟩ .new
  obtain ⟨t, -, htree⟩ := tree_oneJoin s
  have hlast : (JoinChain.operand (namedTable ['c'])).tree s = some (some (tableNamed ['c']), s) :=
    eval_namedTable ['c'] s
  refine ⟨d, hd, some t, s, ?_⟩
  rw [heval d hd, List.map_cons, List.map_nil, tableOf_cons]
  simp only [readAll, s, htree, hlast, Option.bind_some, Option.map_some]

end Hsql
