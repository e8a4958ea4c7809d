import Hsql.Parser.Operands

/-! The tables of a `FROM`. What a derivation spells, down to the conditions and to the selects in
parentheses, tells the tree: a step of a chain of joins ends before the next one begins. -/

namespace Hsql
open Bison Keyword TokenKind

/-! Chains: an operand, and steps one after the other. -/

/-- What the productions of `join_clause` read after the left operand. -/
inductive JoinStep where
  | natural (p q : Location) (t : Derivation .nonjoinTableRefAtomic)
  | on (p q : Location) (type : Derivation .optJoinType) (t : Derivation .tableRefAtomic)
    (c : Derivation .joinCondition)
  | using (p q : Location) (type : Derivation .optJoinType) (t : Derivation .tableRefAtomic)
    (c : Derivation .columnName)

/-- A join of two tables. -/
def joinOf (type : JoinType) (left right : Option TableRef) (condition : Option Expr) :
    Option TableRef :=
  some { TableRef.new .kTableJoin with
    join := some {
      type := type, left := left, right := right, condition := condition } }

/-- The condition of `USING`: the column of the left operand is that of the right one. -/
def usingCondition (left right : Option TableRef) (col : Option Expr) : Option (Option Expr) :=
  col.bind fun col => left.bind fun left => (usingColumn col left.getName).bind fun leftCol =>
    right.bind fun right => (usingColumn col right.getName).map fun rightCol =>
      some (Expr.makeOpBinary (some leftCol) .kOpEquals (some rightCol))

/-- A reference to the column, in the table of that name if there is one. -/
def columnIn (table : Option Str) (c : Str) : Option Expr :=
  some { Expr.makeColumnRef (some c) with table := table }

theorem usingCondition_eq (l r : TableRef) (c : Str) :
    usingCondition (some l) (some r) (some (Expr.makeColumnRef (some c))) =
      some (some (Expr.makeOpBinary (columnIn l.getName c) .kOpEquals (columnIn r.getName c))) := by
  have hcolumn (n : Option Str) :
      usingColumn (Expr.makeColumnRef (some c)) n = columnIn n c := by
    cases n <;> rfl
  simp only [usingCondition, Option.bind_some, hcolumn]
  rfl

/-- The action of `USING` on operands that are there. -/
theorem act_using (left right : TableRef) (col : Expr) (type : JoinType) (q : Location)
    (s : ParserState) :
    actions.act (n := .joinClause) (⟨2, by decide⟩ : grammar.Rule .joinClause)
      (some left, type, (), some right, (), (), some col, (), ()) q s =
      (usingCondition (some left) (some right) (some col)).map fun e =>
        (joinOf type (some left) (some right) e, s) := by
  show ((usingColumn col left.getName).bind fun leftCol =>
    (usingColumn col right.getName).bind fun rightCol => _).map (·, s) = _
  simp only [usingCondition, Option.bind_some]
  cases usingColumn col left.getName with
  | none => rfl
  | some leftCol => cases usingColumn col right.getName <;> rfl

namespace JoinStep

/-- What the step makes of the chain before it. -/
def eval (left : Option TableRef) : JoinStep → ParserState → Option (Option TableRef × ParserState)
  | .natural _ _ t, s => (Tree.eval actions t s).map fun x =>
      (joinOf .kJoinNatural left x.1 none, x.2)
  | .on _ _ type t c, s => (Tree.eval actions type s).bind fun x =>
      (Tree.eval actions t x.2).bind fun y => (Tree.eval actions c y.2).map fun z =>
        (joinOf x.1 left y.1 z.1, z.2)
  | .using _ _ type t c, s => (Tree.eval actions type s).bind fun x =>
      (Tree.eval actions t x.2).bind fun y => (Tree.eval actions c y.2).bind fun z =>
        (usingCondition left y.1 z.1).map fun e => (joinOf x.1 left y.1 e, z.2)

/-- The join of the step, whose left operand is the chain before it. -/
def join (d : Derivation .tableRefAtomic) : JoinStep → Derivation .joinClause
  | .natural _ q t => .node ⟨0, by decide⟩ q (.tree d (.token () (.token () (.tree t .nil))))
  | .on _ q type t c => .node ⟨1, by decide⟩ q
      (.tree d (.tree type (.token () (.tree t (.token () (.tree c .nil))))))
  | .using _ q type t c => .node ⟨2, by decide⟩ q
      (.tree d (.tree type (.token () (.tree t
        (.token () (.token () (.tree c (.token () .nil))))))))

def location : JoinStep → Location
  | .natural p _ _ | .on p _ _ _ _ | .using p _ _ _ _ => p

/-- The derivation of the chain that goes on with this step. -/
def after (d : Derivation .tableRefAtomic) (f : JoinStep) : Derivation .tableRefAtomic :=
  .node ⟨1, by decide⟩ f.location (.tree (f.join d) .nil)

def spelled : JoinStep → List FromLeaf
  | .natural _ _ t => tok NATURAL () :: tok JOIN () :: Hsql.spelled t
  | .on _ _ type t c => Hsql.spelled type ++ tok JOIN () :: (Hsql.spelled t ++
      tok ON () :: Hsql.spelled c)
  | .using _ _ type t c => Hsql.spelled type ++ tok JOIN () :: (Hsql.spelled t ++
      tok USING () :: tok '(' () :: (Hsql.spelled c ++ [tok ')' ()]))

theorem spelled_after (d : Derivation .tableRefAtomic) (f : JoinStep) :
    Hsql.spelled (f.after d) = Hsql.spelled d ++ f.spelled := by
  cases f <;>
    simp only [after, join, spelled, Hsql.spelled, Tree.frontier, Forest.frontier, List.append_nil,
      if_neg (show ¬ opaqueInFrom .tableRefAtomic = true from by decide),
      if_neg (show ¬ opaqueInFrom .joinClause = true from by decide)]

theorem eval_after (d : Derivation .tableRefAtomic) (f : JoinStep) (s : ParserState) :
    Tree.eval actions (f.after d) s = (Tree.eval actions d s).bind fun x => f.eval x.1 x.2 := by
  have hafter : Tree.eval actions (f.after d) s = Tree.eval actions (f.join d) s := by
    simp only [after, Tree.eval, Forest.eval]
    cases Tree.eval actions (f.join d) s <;> rfl
  rw [hafter]
  cases f with
  | natural p q t =>
    simp only [join, Tree.eval, Forest.eval]
    cases Tree.eval actions d s with
    | none => rfl
    | some x =>
      simp only [Option.bind_some, eval]
      cases Tree.eval actions t x.2 <;> rfl
  | on p q type t c =>
    simp only [join, Tree.eval, Forest.eval]
    cases Tree.eval actions d s with
    | none => rfl
    | some x =>
      simp only [Option.bind_some, eval]
      cases Tree.eval actions type x.2 with
      | none => rfl
      | some y =>
        simp only [Option.bind_some]
        cases Tree.eval actions t y.2 with
        | none => rfl
        | some z =>
          simp only [Option.bind_some]
          cases Tree.eval actions c z.2 <;> rfl
  | «using» p q type t c =>
    simp only [join, Tree.eval, Forest.eval]
    cases Tree.eval actions d s with
    | none => rfl
    | some x =>
      simp only [Option.bind_some, eval]
      cases Tree.eval actions type x.2 with
      | none => rfl
      | some y =>
        simp only [Option.bind_some]
        cases Tree.eval actions t y.2 with
        | none => rfl
        | some z =>
          simp only [Option.bind_some]
          cases Tree.eval actions c z.2 with
          | none => rfl
          | some w =>
            -- a null operand or column makes the action fail on both sides
            obtain ⟨_ | left, s₁⟩ := x <;> obtain ⟨_ | right, s₃⟩ := z <;>
              obtain ⟨_ | col, s₄⟩ := w
            case some.some.some => exact act_using left right col y.1 q s₄
            case some.none.some =>
              obtain ⟨_, _, _, _, _, _ | name⟩ := col <;> rfl
            all_goals rfl

end JoinStep

/-- A chain without a join. -/
def operand (p : Location) (t : Derivation .nonjoinTableRefAtomic) : Derivation .tableRefAtomic :=
  .node ⟨0, by decide⟩ p (.tree t .nil)

theorem spelled_operand (p : Location) (t : Derivation .nonjoinTableRefAtomic) :
    spelled (operand p t) = spelled t := by
  simp only [operand, spelled, Tree.frontier, Forest.frontier, List.append_nil,
    if_neg (show ¬ opaqueInFrom .tableRefAtomic = true from by decide)]

theorem exists_steps (d : Derivation .tableRefAtomic) : ∃ p t, ∃ fs : List JoinStep,
    d = fs.foldl JoinStep.after (operand p t) :=
  match d with
  | .node ⟨0, _⟩ p (.tree t .nil) => ⟨p, t, [], rfl⟩
  | .node ⟨1, _⟩ p (.tree (.node ⟨0, _⟩ q
      (.tree d' (.token () (.token () (.tree t .nil))))) .nil) =>
    let ⟨p', t', fs, hd'⟩ := exists_steps d'
    ⟨p', t', fs ++ [.natural p q t], by rw [List.foldl_append, ← hd']; rfl⟩
  | .node ⟨1, _⟩ p (.tree (.node ⟨1, _⟩ q
      (.tree d' (.tree type (.token () (.tree t (.token () (.tree c .nil))))))) .nil) =>
    let ⟨p', t', fs, hd'⟩ := exists_steps d'
    ⟨p', t', fs ++ [.on p q type t c], by rw [List.foldl_append, ← hd']; rfl⟩
  | .node ⟨1, _⟩ p (.tree (.node ⟨2, _⟩ q (.tree d' (.tree type (.token () (.tree t (.token ()
      (.token () (.tree c (.token () .nil))))))))) .nil) =>
    let ⟨p', t', fs, hd'⟩ := exists_steps d'
    ⟨p', t', fs ++ [.using p q type t c], by rw [List.foldl_append, ← hd']; rfl⟩
termination_by sizeOf d
decreasing_by
  all_goals
    -- the chain is two nodes further down
    refine lt_trans ?_ (Tree.sizeOf_lt_node ..)
    refine lt_trans ?_ (Forest.sizeOf_lt_tree ..)
    refine lt_trans ?_ (Tree.sizeOf_lt_node ..)
    exact Forest.sizeOf_lt_tree ..

theorem spelled_foldl (fs : List JoinStep) (d : Derivation .tableRefAtomic) :
    spelled (fs.foldl JoinStep.after d) = spelled d ++ fs.flatMap JoinStep.spelled := by
  induction fs generalizing d with
  | nil => simp only [List.foldl_nil, List.flatMap_nil, List.append_nil]
  | cons f fs ih =>
    rw [List.foldl_cons, ih, JoinStep.spelled_after, List.flatMap_cons, List.append_assoc]

/-! Where a step begins and ends. -/

/-- What the type of a join can open with, and the word that it stands in front of. -/
def typeKinds : List TokenKind := [INNER, LEFT, RIGHT, FULL, OUTER, CROSS, JOIN]

theorem ahead_optJoinType (d : Derivation .optJoinType) (L : List FromLeaf) :
    ∃ t a L', spelled d ++ tok JOIN () :: L = tok t a :: L' ∧ t ∈ typeKinds := by
  obtain ⟨r, p, kids⟩ := d
  match r, kids with
  | ⟨0, _⟩, .token a .nil => exact ⟨INNER, a, _, rfl, by decide⟩
  | ⟨1, _⟩, .token a (.token b .nil) => exact ⟨LEFT, a, _, rfl, by decide⟩
  | ⟨2, _⟩, .token a .nil => exact ⟨LEFT, a, _, rfl, by decide⟩
  | ⟨3, _⟩, .token a (.token b .nil) => exact ⟨RIGHT, a, _, rfl, by decide⟩
  | ⟨4, _⟩, .token a .nil => exact ⟨RIGHT, a, _, rfl, by decide⟩
  | ⟨5, _⟩, .token a (.token b .nil) => exact ⟨FULL, a, _, rfl, by decide⟩
  | ⟨6, _⟩, .token a .nil => exact ⟨OUTER, a, _, rfl, by decide⟩
  | ⟨7, _⟩, .token a .nil => exact ⟨FULL, a, _, rfl, by decide⟩
  | ⟨8, _⟩, .token a .nil => exact ⟨CROSS, a, _, rfl, by decide⟩
  | ⟨9, _⟩, .nil => exact ⟨JOIN, (), _, rfl, by decide⟩

/-- What can go on with a chain. -/
def chainKinds : List TokenKind := operandKinds ++ (NATURAL : TokenKind) :: typeKinds

theorem JoinStep.ahead (f : JoinStep) (L : List FromLeaf) :
    ∃ t a L', f.spelled ++ L = tok t a :: L' ∧ t ∈ chainKinds ∧ t ∉ operandKinds := by
  have htyped (type : Derivation .optJoinType) (L : List FromLeaf) : ∃ t a L',
      Hsql.spelled type ++ tok JOIN () :: L = tok t a :: L' ∧ t ∈ chainKinds ∧
        t ∉ operandKinds := by
    obtain ⟨t, a, L', htype, ht⟩ := ahead_optJoinType type L
    refine ⟨t, a, L', htype, List.mem_append_right _ (List.mem_cons_of_mem _ ht), ?_⟩
    exact (by decide : ∀ t ∈ typeKinds, t ∉ operandKinds) t ht
  cases f with
  | natural p q t => exact ⟨NATURAL, (), _, rfl, by decide, by decide⟩
  | on p q type t c =>
    simp only [JoinStep.spelled, List.append_assoc, List.cons_append]
    exact htyped type _
  | «using» p q type t c =>
    simp only [JoinStep.spelled, List.append_assoc, List.cons_append]
    exact htyped type _

theorem notAhead_steps (fs : List JoinStep) {L : List FromLeaf} (h : NotAhead chainKinds L.head?) :
    NotAhead operandKinds (fs.flatMap JoinStep.spelled ++ L).head? := by
  cases fs with
  | nil => exact h.mono (List.subset_append_left ..)
  | cons f fs =>
    obtain ⟨t, a, L', hf, -, ht⟩ := f.ahead (fs.flatMap JoinStep.spelled ++ L)
    rw [List.flatMap_cons, List.append_assoc, hf]
    exact notAhead_cons ht a L'

/-- Chains whose text is shorter are told by what they spell. -/
def ChainsBelow (n : ℕ) : Prop :=
  ∀ (d d' : Derivation .tableRefAtomic) (L L' : List FromLeaf), (spelled d ++ L).length < n →
    NotAhead chainKinds L.head? → NotAhead chainKinds L'.head? →
      spelled d ++ L = spelled d' ++ L' → d.eval actions = d'.eval actions ∧ L = L'

theorem ChainsBelow.typed {n : ℕ} (hn : ChainsBelow n) {type type' : Derivation .optJoinType}
    {t t' : Derivation .tableRefAtomic} {L L' : List FromLeaf}
    (hlength : (spelled type ++ tok JOIN () :: (spelled t ++ L)).length ≤ n)
    (hL : NotAhead chainKinds L.head?) (hL' : NotAhead chainKinds L'.head?)
    (heq : spelled type ++ tok JOIN () :: (spelled t ++ L) =
      spelled type' ++ tok JOIN () :: (spelled t' ++ L')) :
    type.eval actions = type'.eval actions ∧ t.eval actions = t'.eval actions ∧ L = L' := by
  obtain ⟨htype, heq⟩ := reads_optJoinType.decides type type' _ _ ⟨(), rfl⟩ ⟨(), rfl⟩ heq
  have hlength : (spelled t ++ L).length < n := by
    rw [List.length_append, List.length_cons] at hlength
    omega
  obtain ⟨ht, hL⟩ := hn t t' L L' hlength hL hL' (List.cons_eq_cons.mp heq).2
  exact ⟨htype, ht, hL⟩

/-- The same leaves are the same step. -/
theorem JoinStep.agree {n : ℕ} (hn : ChainsBelow n) (f g : JoinStep) {L L' : List FromLeaf}
    (hlength : (f.spelled ++ L).length ≤ n) (hL : NotAhead operandKinds L.head?)
    (hL' : NotAhead operandKinds L'.head?) (heq : f.spelled ++ L = g.spelled ++ L') :
    (∀ left s, f.eval left s = g.eval left s) ∧ L = L' := by
  -- no step with a type opens with `NATURAL`
  have hnatural (type : Derivation .optJoinType) (L L' : List FromLeaf) :
      Hsql.spelled type ++ tok JOIN () :: L ≠ tok NATURAL () :: L' := by
    obtain ⟨t, a, L'', htype, ht⟩ := ahead_optJoinType type L
    rw [htype]
    intro h
    cases (List.cons_eq_cons.mp h).1
    exact (by decide : (NATURAL : TokenKind) ∉ typeKinds) ht
  have hon (L : List FromLeaf) : NotAhead chainKinds (tok ON () :: L).head? :=
    notAhead_cons (t := ON) (by decide) () L
  have husing (L : List FromLeaf) : NotAhead chainKinds (tok USING () :: L).head? :=
    notAhead_cons (t := USING) (by decide) () L
  cases f <;> cases g <;>
    simp only [spelled, List.append_assoc, List.cons_append, List.nil_append] at heq hlength
  case natural.natural p q t p' q' t' =>
    obtain ⟨ht, hL⟩ := decides_nonjoinTableRefAtomic t t' L L' hL hL'
      (List.cons_eq_cons.mp (List.cons_eq_cons.mp heq).2).2
    exact ⟨fun left s => by simp only [eval, ht], hL⟩
  case natural.on => exact (hnatural _ _ _ heq.symm).elim
  case natural.using => exact (hnatural _ _ _ heq.symm).elim
  case on.natural => exact (hnatural _ _ _ heq).elim
  case using.natural => exact (hnatural _ _ _ heq).elim
  case on.using =>
    exact absurd (List.cons_eq_cons.mp (hn.typed hlength (hon _) (husing _) heq).2.2).1 nofun
  case using.on =>
    exact absurd (List.cons_eq_cons.mp (hn.typed hlength (husing _) (hon _) heq).2.2).1 nofun
  case on.on p q type t c p' q' type' t' c' =>
    obtain ⟨htype, ht, heq⟩ := hn.typed hlength (hon _) (hon _) heq
    obtain ⟨hc, hL⟩ := actions.decides_leaf rfl (fun _ => True) c c' L L' trivial trivial
      (List.cons_eq_cons.mp heq).2
    exact ⟨fun left s => by simp only [eval, htype, ht, hc], hL⟩
  case using.using p q type t c p' q' type' t' c' =>
    obtain ⟨htype, ht, heq⟩ := hn.typed hlength (husing _) (husing _) heq
    obtain ⟨hc, heq⟩ := reads_columnName.decides c c' _ _
      (notAhead_cons (t := ')') (by decide) () L) (notAhead_cons (t := ')') (by decide) () L')
      (List.cons_eq_cons.mp (List.cons_eq_cons.mp heq).2).2
    exact ⟨fun left s => by simp only [eval, htype, ht, hc], (List.cons_eq_cons.mp heq).2⟩

/-- From equal chains on, the same leaves are the same steps. -/
theorem JoinStep.agree_foldl {n : ℕ} (hn : ChainsBelow n) {L L' : List FromLeaf}
    (hL : NotAhead chainKinds L.head?) (hL' : NotAhead chainKinds L'.head?)
    (fs gs : List JoinStep) {d d' : Derivation .tableRefAtomic}
    (hd : d.eval actions = d'.eval actions)
    (hlength : (fs.flatMap JoinStep.spelled ++ L).length ≤ n)
    (heq : fs.flatMap JoinStep.spelled ++ L = gs.flatMap JoinStep.spelled ++ L') :
    (fs.foldl JoinStep.after d).eval actions = (gs.foldl JoinStep.after d').eval actions ∧
      L = L' := by
  -- after the last step the text goes on with none of the words that begin one
  have hend (f : JoinStep) {L : List FromLeaf} (h : NotAhead chainKinds L.head?)
      (L' : List FromLeaf) : L ≠ f.spelled ++ L' := by
    obtain ⟨t, a, L'', hf, ht, -⟩ := f.ahead L'
    rw [hf]
    rintro rfl
    exact absurd ht h.ne
  induction fs generalizing d d' gs with
  | nil =>
    cases gs with
    | nil => exact ⟨hd, heq⟩
    | cons g gs =>
      rw [List.flatMap_nil, List.nil_append, List.flatMap_cons, List.append_assoc] at heq
      exact (hend g hL _ heq).elim
  | cons f fs ih =>
    cases gs with
    | nil =>
      rw [List.flatMap_nil, List.nil_append, List.flatMap_cons, List.append_assoc] at heq
      exact (hend f hL' _ heq.symm).elim
    | cons g gs =>
      rw [List.flatMap_cons, List.append_assoc] at hlength heq
      rw [List.flatMap_cons, List.append_assoc] at heq
      obtain ⟨hstep, heq⟩ := JoinStep.agree hn f g hlength (notAhead_steps fs hL)
        (notAhead_steps gs hL') heq
      have hafter : (f.after d).eval actions = (g.after d').eval actions :=
        funext fun s => by simp only [JoinStep.eval_after, hd, hstep]
      refine ih gs hafter ?_ heq
      rw [List.length_append] at hlength
      omega

theorem chainsBelow (n : ℕ) : ChainsBelow n := by
  induction n with
  | zero => exact fun d d' L L' h => absurd h (Nat.not_lt_zero _)
  | succ n ih =>
    intro d d' L L' hlength hL hL' heq
    obtain ⟨p, t, fs, rfl⟩ := exists_steps d
    obtain ⟨p', t', gs, rfl⟩ := exists_steps d'
    rw [spelled_foldl, spelled_operand, List.append_assoc] at heq hlength
    rw [spelled_foldl, spelled_operand, List.append_assoc] at heq
    obtain ⟨ht, heq⟩ := decides_nonjoinTableRefAtomic t t' _ _ (notAhead_steps fs hL)
      (notAhead_steps gs hL') heq
    refine JoinStep.agree_foldl ih hL hL' fs gs (funext fun s => ?_) ?_ heq
    · simp only [operand, Tree.eval, Forest.eval, ht]
      rfl
    · rw [List.length_append] at hlength
      omega

theorem decides_tableRefAtomic :
    actions.Decides opaqueInFrom .tableRefAtomic (NotAhead chainKinds) :=
  fun d d' L L' hL hL' heq => chainsBelow _ d d' L L' (Nat.lt_succ_self _) hL hL' heq

end Hsql
