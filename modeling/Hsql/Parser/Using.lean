import Hsql.Parser.FromClause

/-! `USING` names the column in both operands. The right one is a table and gives its name; a join
has none, so that only the first step of a chain names the table on its left. -/

namespace Hsql
open Bison Keyword TokenKind

/-- The name by which conditions refer to an operand: its alias, or else the table. -/
def operandName : Derivation .nonjoinTableRefAtomic → Option Str
  | .node ⟨0, _⟩ _ (.tree (.node ⟨0, _⟩ _ (.tree n (.tree _ (.tree a .nil)))) .nil) =>
    (readAlias (spelled a)).1.or (readTableName (spelled n)).1.name
  | .node ⟨1, _⟩ _ (.token _ (.tree _ (.token _ (.tree a .nil)))) => (readAlias (spelled a)).1

theorem notAhead_none (kinds : List TokenKind) : NotAhead kinds none := fun _ _ h => nomatch h

theorem TableRef.getName_eq (t : TableRef) : t.getName = t.alias.or t.name := by
  unfold TableRef.getName
  cases t.alias <;> rfl

theorem getName_operand {t : Derivation .nonjoinTableRefAtomic} {s s' : ParserState}
    {v : Option TableRef} (h : t.eval actions s = some (v, s')) :
    ∃ table, v = some table ∧ table.getName = operandName t := by
  obtain ⟨r, p, kids⟩ := t
  match r, kids with
  | ⟨0, _⟩, .tree (.node ⟨0, _⟩ q (.tree n (.tree i (.tree a .nil)))) .nil =>
    obtain ⟨vs, s₁, hkids, hact⟩ := Tree.eval_eq_some h
    obtain ⟨s₂, hname, -⟩ := Forest.eval_tree_eq_some hkids
    obtain ⟨ws, s₃, hkids, hact'⟩ := Tree.eval_eq_some hname
    obtain ⟨s₄, hn, hkids⟩ := Forest.eval_tree_eq_some hkids
    obtain ⟨s₅, -, hkids⟩ := Forest.eval_tree_eq_some hkids
    obtain ⟨s₆, ha, -⟩ := Forest.eval_tree_eq_some hkids
    rw [reads_tableName.eval (notAhead_none _)] at hn
    rw [reads_optAlias.eval (notAhead_none _)] at ha
    have hn := (Prod.mk.inj (Option.some.inj hn)).1
    have ha := (Prod.mk.inj (Option.some.inj ha)).1
    obtain ⟨hv, -⟩ := Prod.mk.inj (Option.some.inj hact)
    obtain ⟨hw, -⟩ := Prod.mk.inj (Option.some.inj hact')
    refine ⟨_, hv.symm.trans hw.symm, ?_⟩
    rw [TableRef.getName_eq]
    show Option.or ws.2.2.1 (TableName.name ws.1) = _
    rw [← hn, ← ha]
    rfl
  | ⟨1, _⟩, .token _ (.tree x (.token _ (.tree a .nil))) =>
    obtain ⟨vs, s₁, hkids, hact⟩ := Tree.eval_eq_some h
    obtain ⟨s₂, -, hkids⟩ := Forest.eval_tree_eq_some (Forest.eval_token_eq_some hkids)
    obtain ⟨s₃, ha, -⟩ := Forest.eval_tree_eq_some (Forest.eval_token_eq_some hkids)
    rw [reads_optAlias.eval (notAhead_none _)] at ha
    have ha := (Prod.mk.inj (Option.some.inj ha)).1
    obtain ⟨hv, -⟩ := Prod.mk.inj (Option.some.inj hact)
    refine ⟨_, hv.symm, ?_⟩
    rw [TableRef.getName_eq]
    show Option.or vs.2.2.2.1 none = _
    rw [← ha, Option.or_none]
    rfl

namespace JoinChain

/-- The names of the tables, from left to right. -/
def names : JoinChain → List (Option Str)
  | operand t => [operandName t]
  | step left _ t => left.names ++ [operandName t]

/-- The name of a chain as an operand. A join has no name of its own. -/
def name : JoinChain → Option Str
  | operand t => operandName t
  | step .. => none

/-- A chain that the other one goes on from. -/
inductive Within (c : JoinChain) : JoinChain → Prop
  | refl : Within c c
  | step {left : JoinChain} (kind : JoinKind) (t : Derivation .nonjoinTableRefAtomic)
      (h : Within c left) : Within c (step left kind t)

/-- What a step reads. -/
theorem tree_step_eq_some {left : JoinChain} {kind : JoinKind}
    {t : Derivation .nonjoinTableRefAtomic} {s s' : ParserState} {v : Option TableRef}
    (h : (step left kind t).tree s = some (v, s')) :
    ∃ l s₁ r s₂ s₃ j e, left.tree s = some (l, s₁) ∧ t.eval actions s₂ = some (r, s₃) ∧
      v = joinOf j l r e ∧ ∀ type col, kind = .using type col →
        ∃ s₄ c, col.eval actions s₃ = some (c, s₄) ∧ usingCondition l r c = some e := by
  cases kind with
  | natural =>
    obtain ⟨l, hl, h⟩ := Option.bind_eq_some_iff.mp h
    obtain ⟨r, hr, h⟩ := Option.map_eq_some_iff.mp h
    cases h
    exact ⟨l.1, l.2, r.1, l.2, r.2, .kJoinNatural, none, hl, hr, rfl, nofun⟩
  | on type c =>
    obtain ⟨l, hl, h⟩ := Option.bind_eq_some_iff.mp h
    obtain ⟨j, -, h⟩ := Option.bind_eq_some_iff.mp h
    obtain ⟨r, hr, h⟩ := Option.bind_eq_some_iff.mp h
    obtain ⟨e, -, h⟩ := Option.map_eq_some_iff.mp h
    cases h
    exact ⟨l.1, l.2, r.1, j.2, r.2, j.1, e.1, hl, hr, rfl, nofun⟩
  | «using» type col =>
    obtain ⟨l, hl, h⟩ := Option.bind_eq_some_iff.mp h
    obtain ⟨j, -, h⟩ := Option.bind_eq_some_iff.mp h
    obtain ⟨r, hr, h⟩ := Option.bind_eq_some_iff.mp h
    obtain ⟨c, hc, h⟩ := Option.bind_eq_some_iff.mp h
    obtain ⟨e, he, h⟩ := Option.map_eq_some_iff.mp h
    cases h
    refine ⟨l.1, l.2, r.1, j.2, r.2, j.1, e, hl, hr, rfl, ?_⟩
    rintro _ _ ⟨⟩
    exact ⟨c.2, c.1, hc, he⟩

theorem getName_tree {c : JoinChain} {s s' : ParserState} {v : Option TableRef}
    (h : c.tree s = some (v, s')) : ∃ table, v = some table ∧ table.getName = c.name := by
  cases c with
  | operand t => exact getName_operand h
  | step left kind t =>
    obtain ⟨l, s₁, r, s₂, s₃, j, e, -, -, rfl, -⟩ := tree_step_eq_some h
    exact ⟨_, rfl, rfl⟩

end JoinChain

/-- A table reached from a join through left operands only. -/
inductive OnLeft (x : Option TableRef) : Option TableRef → Prop
  | refl : OnLeft x x
  | join {l : Option TableRef} (type : JoinType) (r : Option TableRef) (e : Option Expr)
      (h : OnLeft x l) : OnLeft x (joinOf type l r e)

/-- A chain is read on the way to the whole. -/
theorem JoinChain.Within.onLeft {c whole : JoinChain} (hc : c.Within whole) {s s' : ParserState}
    {v : Option TableRef} (h : whole.tree s = some (v, s')) :
    ∃ x s₁, c.tree s = some (x, s₁) ∧ OnLeft x v := by
  induction hc generalizing v s' with
  | refl => exact ⟨v, s', h, .refl⟩
  | step kind t _ ih =>
    obtain ⟨l, s₁, r, s₂, s₃, j, e, hl, -, rfl, -⟩ := JoinChain.tree_step_eq_some h
    obtain ⟨x, s₄, hx, hleft⟩ := ih hl
    exact ⟨x, s₄, hx, hleft.join j r e⟩

theorem JoinChain.Within.names {c whole : JoinChain} (hc : c.Within whole) :
    c.names ⊆ whole.names := by
  induction hc with
  | refl => exact List.Subset.refl _
  | step kind t _ ih => exact List.subset_append_of_subset_left _ ih

/-- The condition that `USING` makes in a chain whose tables all have a name. The column of the
right operand is in its table. That of the left operand is in the table to the left where this is
one table, and in none where it is a join. -/
theorem using_condition {whole left : JoinChain} {type : Derivation .optJoinType}
    {col : Derivation .columnName} {t : Derivation .nonjoinTableRefAtomic} {c : Str}
    (hnamed : ∀ n ∈ whole.names, n.isSome) (hstep : (left.step (.using type col) t).Within whole)
    (hcol : spelled col = [tok .IDENTIFIER c]) {d : Derivation .tableRefAtomic}
    (hd : spelled d = whole.spelled) {s s' : ParserState} {v : Option TableRef}
    (h : d.eval actions s = some (v, s')) :
    ∃ j l r s₁ b, (left.step (.using type col) t).tree s = some (joinOf j l r
        (some (Expr.makeOpBinary (columnIn left.name c) .kOpEquals (columnIn (some b) c))), s₁) ∧
      OnLeft (joinOf j l r
        (some (Expr.makeOpBinary (columnIn left.name c) .kOpEquals (columnIn (some b) c)))) v ∧
      operandName t = some b ∧
      (∀ t₀, left = .operand t₀ → ∃ a, left.name = some a ∧ operandName t₀ = some a) ∧
      ∀ left₀ kind₀ t₀, left = .step left₀ kind₀ t₀ → left.name = none := by
  rw [JoinChain.eval_of_spelled hd] at h
  obtain ⟨x, s₁, hx, hleft⟩ := hstep.onLeft h
  obtain ⟨l, s₂, r, s₃, s₄, j, e, hl, hr, rfl, husing⟩ := JoinChain.tree_step_eq_some hx
  obtain ⟨s₅, column, hcolumn, he⟩ := husing type col rfl
  obtain ⟨table, rfl, htable⟩ := JoinChain.getName_tree hl
  obtain ⟨table', rfl, htable'⟩ := getName_operand hr
  -- the column of the step is the one that is spelled
  rw [reads_columnName.eval (notAhead_none _)] at hcolumn
  have hcolumn : (readColumn (spelled col)).1 = column :=
    (Prod.mk.inj (Option.some.inj hcolumn)).1
  rw [hcol] at hcolumn
  have hcolumn : some (Expr.makeColumnRef (some c)) = column := hcolumn
  rw [← hcolumn, usingCondition_eq, htable, htable'] at he
  -- every operand of the chain has a name, the right one of the step too
  have hmem : operandName t ∈ whole.names :=
    hstep.names (List.mem_append_right _ (List.mem_singleton_self _))
  obtain ⟨b, hb⟩ := Option.isSome_iff_exists.mp (hnamed _ hmem)
  rw [hb] at he
  obtain rfl := Option.some.inj he
  refine ⟨j, _, _, s₁, b, hx, hleft, hb, ?_, ?_⟩
  · rintro t₀ rfl
    have hmem : operandName t₀ ∈ whole.names :=
      hstep.names (List.mem_append_left _ (List.mem_singleton_self _))
    obtain ⟨a, ha⟩ := Option.isSome_iff_exists.mp (hnamed _ hmem)
    exact ⟨a, ha, ha⟩
  · rintro left₀ kind₀ t₀ rfl
    rfl

theorem names_oneJoin : oneJoin.names = [some ['a'], some ['b']] := rfl

theorem names_twoJoins : twoJoins.names = [some ['a'], some ['b'], some ['c']] := rfl

theorem using_condition_oneJoin : ∃ v s',
    (oneJoin.derivation .zero).eval actions (.start ⟨0, 0, 0, 0⟩ .new) = some (v, s') ∧
      ∃ j l r, OnLeft (joinOf j l r (some (Expr.makeOpBinary (columnIn (some ['a']) ['x'])
        .kOpEquals (columnIn (some ['b']) ['x'])))) v := by
  obtain ⟨t, -, htree⟩ := tree_oneJoin (.start ⟨0, 0, 0, 0⟩ .new)
  rw [← JoinChain.eval_derivation .zero] at htree
  have hstep : (usingStep (.operand (namedTable ['a'])) ['b'] ['x']).Within oneJoin := .refl
  have hnamed : ∀ n ∈ oneJoin.names, n.isSome := by
    rw [names_oneJoin]
    decide
  refine ⟨_, _, htree, ?_⟩
  obtain ⟨j, l, r, s₁, b, -, hleft, hb, -⟩ :=
    using_condition hnamed hstep rfl (oneJoin.spelled_derivation .zero) htree
  cases hb
  exact ⟨j, l, r, hleft⟩

/-- After a join, the left column is in no table. -/
theorem not_forall_using_qualified : ¬ ∀ (whole left : JoinChain) (type : Derivation .optJoinType)
    (col : Derivation .columnName) (t : Derivation .nonjoinTableRefAtomic) (c : Str),
    (∀ n ∈ whole.names, n.isSome) → (left.step (.using type col) t).Within whole →
    spelled col = [tok .IDENTIFIER c] → ∀ (d : Derivation .tableRefAtomic) (s s' : ParserState)
      (v : Option TableRef), spelled d = whole.spelled → d.eval actions s = some (v, s') →
      ∃ j l r s₁ a b, (left.step (.using type col) t).tree s = some (joinOf j l r
          (some (Expr.makeOpBinary (columnIn (some a) c) .kOpEquals (columnIn (some b) c))), s₁) ∧
        OnLeft (joinOf j l r
          (some (Expr.makeOpBinary (columnIn (some a) c) .kOpEquals (columnIn (some b) c)))) v ∧
        operandName t = some b ∧ some a ∈ left.names := by
  intro h
  obtain ⟨t, hname, htree⟩ := tree_oneJoin (.start ⟨0, 0, 0, 0⟩ .new)
  have htree := tree_usingStep htree ['c'] ['y']
  have heval := (congrFun (JoinChain.eval_derivation .zero twoJoins) _).trans htree
  have hnamed : ∀ n ∈ twoJoins.names, n.isSome := by
    rw [names_twoJoins]
    decide
  obtain ⟨j, l, r, s₁, a, b, hstep, -⟩ := h twoJoins oneJoin _ _ _ ['y'] hnamed .refl rfl _ _ _ _
    (twoJoins.spelled_derivation .zero) heval
  have heq := (Prod.mk.inj (Option.some.inj (htree.symm.trans hstep))).1
  have htable := congrArg (fun x => x.bind fun t => t.join.bind fun join =>
    join.condition.bind fun e => e.expr.bind fun e => e.table) heq
  have htable : t.getName = some a := htable
  rw [hname] at htable
  cases htable

end Hsql
