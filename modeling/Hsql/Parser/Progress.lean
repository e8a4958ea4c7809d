import Hsql.Bison.Progress
import Hsql.Parser.Accept
import Hsql.Parser.Items
import Hsql.Parser.NullSafety

/-! The parser always returns: it takes a bounded number of steps for each token, finds on its
stack what its tables ask for, and only a semantic action can go wrong. -/

namespace Hsql
open Bison

/-! What the tables know. -/

/-- All nonterminals. -/
def NT.all : List NT := [
  .input, .statementList, .statement, .alterStatement, .pragmaStatement, .createStatement,
  .indexedColumnList, .indexedColumn, .optUnique, .optNotExists, .optVirtual, .optTemporary,
  .columnDefCommalist, .columnDef, .columnConstraintListNullable, .columnConstraintList,
  .columnConstraint, .foreignKeyConstraint, .optForeignKeyDeferrable, .foreignKeyEventList,
  .foreignKeyEvent, .foreignKeyAction, .columnType, .triggerType, .triggerEvent,
  .optTableConstraintList, .tableConstraint, .optConflictClause, .dropStatement, .optExists,
  .deleteStatement, .insertStatement, .optOrReplace, .optColumnList, .updateStatement,
  .updateClauseCommalist, .updateClause, .selectStatement, .selectWithParen, .selectParenOrClause,
  .selectNoParen, .setOperator, .setType, .optAll, .selectClause, .optDistinct, .selectList,
  .fromClause, .optWhere, .optGroup, .optHaving, .optOrder, .orderList, .orderDesc, .optOrderType,
  .optLimit, .exprList, .exprAlias, .expr, .operand, .scalarExpr, .unaryExpr, .binaryExpr,
  .logicExpr, .inExpr, .caseExpr, .caseList, .existsExpr, .compExpr, .functionExpr, .betweenExpr,
  .columnName, .literal, .stringLiteral, .numLiteral, .intLiteral, .nullLiteral, .paramExpr,
  .tableRef, .tableRefAtomic, .nonjoinTableRefAtomic, .tableRefCommalist, .tableRefName,
  .indexedBy, .optIndexedBy, .tableRefNameNoAlias, .tableName, .«alias», .optAlias, .joinClause,
  .optJoinType, .joinCondition, .optSemicolon, .optComa, .identCommalist, .stringOrToken]

theorem NT.mem_all (n : NT) : n ∈ NT.all := by
  cases n <;> decide

def Tables.itemRows : Rows Tables.items := .ofList items 26 20 (by decide) (by decide +kernel)

theorem Tables.itemsAt_eq : Tables.itemsAt = fun q => (Tables.itemRows.get? q).getD [] := by
  funext q
  rw [itemsAt, Rows.get?_eq, List.getD_eq_getElem?_getD]

/-- Where an item is left when its last symbol is taken off: with the item before it, or where its
nonterminal leads on. -/
def DottedRule.back (it : DottedRule) (q : Nat) (sym : Sym) : Bool :=
  decide (((productions it.n)[it.rule]?.bind fun p => p.rhs[it.dot - 1]?) = some sym) &&
    if it.dot = 1 then (automaton.goto q it.n).isSome
    else decide (⟨it.n, it.rule, it.dot - 1⟩ ∈ Tables.itemsAt q)

/-- What an action asks of the items. -/
def covered (q : Nat) (t : Option TokenKind) : Act grammar → Bool
  | .shift p => match t with
    | none => false
    | some t => (Tables.itemsAt p).all fun it => it.back q (.terminal t)
  | @Act.reduce _ _ _ n r =>
    if (grammar.rhs r).length = 0 then (automaton.goto q n).isSome
    else decide (⟨n, r.val, (grammar.rhs r).length⟩ ∈ Tables.itemsAt q)
  | _ => true

/-- A state knows the symbols of a rule behind it. -/
def Has (q : Nat) (n : NT) (r : grammar.Rule n) (d : Nat) : Prop :=
  if d = 0 then (automaton.goto q n).isSome = true
  else (⟨n, r.val, d⟩ : DottedRule) ∈ Tables.itemsAt q

theorem has_of_back {q n} {r : grammar.Rule n} {d : Nat} {sym : Sym}
    (h : DottedRule.back ⟨n, r.val, d + 1⟩ q sym = true) :
    (grammar.rhs r)[d]? = some sym ∧ Has q n r d := by
  unfold DottedRule.back at h
  rw [Bool.and_eq_true, decide_eq_true_eq, List.getElem?_eq_getElem r.isLt] at h
  refine ⟨h.1, ?_⟩
  have hrest := h.2
  unfold Has
  by_cases hd : d = 0
  · subst hd
    exact hrest
  · have hne : d + 1 ≠ 1 := fun heq => hd (Nat.succ.inj heq)
    rw [if_neg hne] at hrest
    rw [if_neg hd]
    exact of_decide_eq_true hrest

theorem covered_act (q : Nat) (t : Option TokenKind) :
    covered q t ((automaton.row q).act t) = true := by
  have hrow := row_all (fun q row => covered q none row.default && row.acts.all fun x =>
    covered q x.1 x.2) (fun _ _ => rfl) (by
      unfold covered DottedRule.back
      rw [automaton_eq_rowwise, Tables.itemsAt_eq]
      decide +kernel) q
  rw [Bool.and_eq_true, List.all_eq_true] at hrow
  rcases act_cases (automaton.row q) t with hmem | hdefault
  · exact hrow.2 _ hmem
  · have hnone := hrow.1
    rw [hdefault]
    cases hd : (automaton.row q).default <;> rw [hd] at hnone <;> first | exact hnone | cases hnone

theorem covered_goto {q p : Nat} {n : NT} (h : automaton.goto q n = some p) :
    ∀ it ∈ Tables.itemsAt p, it.back q (.nonterminal n) = true := by
  have hall : ∀ n ∈ NT.all, ∀ x ∈ Tables.gotos n, ∀ it ∈ Tables.itemsAt x.2,
      it.back x.1 (.nonterminal n) = true := by
    unfold DottedRule.back
    rw [automaton_eq_rowwise, Tables.itemsAt_eq]
    decide +kernel
  exact hall n n.mem_all _ (goto_mem h)

theorem automaton_covers : Covers automaton Has where
  start {n r d} h := by
    have hnil : Tables.itemsAt 0 = [] := rfl
    rw [Has, if_neg (Nat.succ_ne_zero d), hnil] at h
    cases h
  shift {q p t n r d} h hp := by
    rw [Has, if_neg (Nat.succ_ne_zero d)] at hp
    have hact := covered_act q (some t)
    rw [h] at hact
    exact has_of_back (List.all_eq_true.mp hact _ hp)
  goto {q p m n r d} h hp := by
    rw [Has, if_neg (Nat.succ_ne_zero d)] at hp
    exact has_of_back (covered_goto h _ hp)
  reduce {q t n r} h := by
    have hact : (if (grammar.rhs r).length = 0 then (automaton.goto q n).isSome
        else decide (⟨n, r.val, (grammar.rhs r).length⟩ ∈ Tables.itemsAt q)) = true := by
      have hcovered := covered_act q t
      rw [h] at hcovered
      exact hcovered
    unfold Has
    split_ifs at hact ⊢
    · exact hact
    · exact of_decide_eq_true hact
  leads {q n r} h := by
    rwa [Has, if_pos rfl] at h
  wait {q p} h := by
    have hact := covered_act q none
    rw [h] at hact
    cases hact

/-! Weights under which every step makes the rest of the run shorter. A nonterminal weighs more
than those that are reduced from it alone, a token more than any of them. -/

def weight : Sym → Nat
  | .terminal _ => 14
  | .nonterminal n => match n with
    | .statementList | .indexedColumn | .columnConstraintList | .tableConstraint | .setType
    | .orderDesc | .exprList | .tableRefAtomic | .«alias» => 1
    | .columnConstraint | .foreignKeyEvent | .updateClause | .indexedBy => 2
    | .statement | .columnDef | .foreignKeyConstraint | .exprAlias | .nonjoinTableRefAtomic
    | .joinClause => 3
    | .alterStatement | .pragmaStatement | .createStatement | .dropStatement | .deleteStatement
    | .insertStatement | .updateStatement | .selectStatement | .expr | .tableRefName => 4
    | .selectWithParen | .selectNoParen | .tableName => 5
    | .selectClause | .operand | .logicExpr | .inExpr | .existsExpr | .betweenExpr => 6
    | .scalarExpr | .unaryExpr | .binaryExpr | .caseExpr | .functionExpr => 7
    | .compExpr | .columnName | .literal => 8
    | .stringLiteral | .numLiteral | .nullLiteral | .paramExpr => 9
    | .intLiteral | .stringOrToken => 10
    | _ => 0

/-- How many empty right-hand sides a state can reduce in a row. -/
def slack (q : Nat) : Nat :=
  if q = 404 then 3
  else if q ∈ [1, 23, 158, 163, 213, 271, 394, 421] then 2
  else if q ∈ [3, 5, 11, 24, 27, 29, 79, 80, 81, 82, 92, 95, 99, 103, 141, 145, 168, 170, 173, 220,
    231, 234, 235, 267, 273, 332, 350, 352, 367, 373, 399, 402, 413, 415, 422, 423, 441, 446, 480,
    489] then 1
  else 0

theorem mem_iff_any_beq (q : Nat) (l : List Nat) : q ∈ l ↔ l.any (Nat.beq q) = true := by
  simp [List.any_eq_true, Nat.beq_eq]

/-- What an action costs. -/
def paid (q : Nat) (_ : Option TokenKind) : Act grammar → Bool
  | .shift p => decide (slack p < 3)
  | @Act.reduce _ _ _ n r => !(grammar.rhs r).isEmpty ||
    ((automaton.goto q n).all fun p => decide (weight (.nonterminal n) + slack p < slack q))
  | _ => true

theorem paid_act (q : Nat) (t : Option TokenKind) : paid q t ((automaton.row q).act t) = true := by
  have hrow := row_all (fun q row => paid q none row.default && row.acts.all fun x =>
    paid q x.1 x.2) (fun _ _ => rfl) (by
      unfold paid slack
      simp only [mem_iff_any_beq]
      rw [automaton_eq_rowwise]
      decide +kernel) q
  rw [Bool.and_eq_true, List.all_eq_true] at hrow
  rcases act_cases (automaton.row q) t with hmem | hdefault
  · exact hrow.2 _ hmem
  · rw [hdefault]
    exact hrow.1

theorem automaton_sinks : Sinks automaton weight slack 17 where
  shift {q p t} h := by
    have hpaid := paid_act q (some t)
    rw [h] at hpaid
    have hslack : slack p < 3 := of_decide_eq_true hpaid
    show 14 + slack p < 17
    omega
  empty {q p t n r} h hr hp := by
    have hpaid : (!(grammar.rhs r).isEmpty || (automaton.goto q n).all fun p =>
        decide (weight (.nonterminal n) + slack p < slack q)) = true := by
      have hact := paid_act q t
      rw [h] at hact
      exact hact
    rw [hr, hp] at hpaid
    exact of_decide_eq_true hpaid
  reduce {q p n} r hr hp := by
    have hall : ∀ n ∈ NT.all, ∃ m ≤ 3, (∀ x ∈ Tables.gotos n, slack x.2 ≤ m) ∧
        ∀ r : grammar.Rule n, grammar.rhs r ≠ [] →
          weight (.nonterminal n) + m < ((grammar.rhs r).map weight).sum := by
      unfold slack
      simp only [mem_iff_any_beq]
      decide +kernel
    obtain ⟨m, -, hslack, hsum⟩ := hall n n.mem_all
    exact Nat.lt_of_le_of_lt (Nat.add_le_add_left (hslack _ (goto_mem hp)) _) (hsum r hr)

/-! The parser. -/

/-- **The parser stops on every text**, after at most seventeen steps for each token and one more. -/
theorem run_stops (heap : Heap) (result : SQLParserResult) (sql : Str) :
    ∃ o, (startConfig actions sql (.start heap result)).run automaton (eof sql)
      (17 * (tokens sql).length + 1) = some o := by
  refine Config.exists_run automaton_sinks _ ?_
  have hlen : (startConfig actions sql (.start heap result)).input.length = (tokens sql).length := by
    have htokens := congrArg List.length (tokens_map_fst .zero (lexemes sql))
    rw [List.length_map, List.length_map] at htokens
    exact htokens
  have hload : (startConfig actions sql (.start heap result)).load weight slack 17 =
      17 * (tokens sql).length := by
    rw [Config.load, hlen]
    show 0 + slack 0 + _ = _
    simp [slack]
  rw [hload]
  exact Nat.lt_succ_self _

/-- The parser stops on a text with these derivations on its stack. -/
def StopsWith (sql : Str) (st : List (Entry TokenKind.Val Derivation)) : Prop :=
  ∃ o, (startConfig (trees grammar TokenKind.Val Location) sql ()).Runs automaton (eof sql) o ∧
    (o = .accept st () ∨ ∃ t p, o = .reject st t p ())

theorem exists_stopsWith (sql : Str) : ∃ st, StopsWith sql st := by
  let c := startConfig (trees grammar TokenKind.Val Location) sql ()
  have hstops : ∃ o, c.run automaton (eof sql) (c.load weight slack 17 + 1) = some o :=
    Config.exists_run automaton_sinks c (Nat.lt_succ_self _)
  obtain ⟨o, hrun⟩ := hstops
  have hruns := Config.Runs.of_run hrun
  cases o with
  | accept st u => exact ⟨st, _, hruns, .inl rfl⟩
  | reject st t p u => exact ⟨st, _, hruns, .inr ⟨t, p, rfl⟩⟩
  | crash => exact absurd rfl (hruns.ne_crash automaton_covers trivial)

theorem StopsWith.unique {sql : Str} {st st' : List (Entry TokenKind.Val Derivation)}
    (h : StopsWith sql st) (h' : StopsWith sql st') : st = st' := by
  obtain ⟨o, hrun, hout⟩ := h
  obtain ⟨o', hrun', hout'⟩ := h'
  obtain rfl := hrun.unique hrun'
  rcases hout with rfl | ⟨t, p, rfl⟩ <;> rcases hout' with heq | ⟨t', p', heq⟩ <;> cases heq <;> rfl

/-- The derivations spell what the parser has read. -/
theorem StopsWith.spells {sql : Str} {st : List (Entry TokenKind.Val Derivation)}
    (h : StopsWith sql st) :
    stackYield st <+: (tokens sql).map fun t => ⟨t.kind, t.val⟩ := by
  obtain ⟨o, hrun, hout⟩ := h
  obtain ⟨c, hspells, hstep⟩ := hrun.last
    (I := fun c => c.Spells (Location.zero.tokens (lexemes sql))) Config.step_spells rfl
  have hstack : c.stack = st := by
    rcases hout with rfl | ⟨t, p, rfl⟩
    · exact (Config.step_accept hstep).2.1
    · exact (Config.step_reject hstep).2.1
  unfold Config.Spells at hspells
  rw [hstack, tokens_map_fst] at hspells
  exact ⟨_, hspells⟩

/-- **The tables never fail the parser.** On every text it stops with one stack of derivations, and
these spell the tokens it has read. -/
theorem stops_with_derivations (sql : Str) : ∃ st, StopsWith sql st ∧
    (∀ st', StopsWith sql st' → st' = st) ∧
    stackYield st <+: (tokens sql).map fun t => ⟨t.kind, t.val⟩ := by
  obtain ⟨st, h⟩ := exists_stopsWith sql
  exact ⟨st, h, fun st' h' => h'.unique h, h.spells⟩

end Hsql
