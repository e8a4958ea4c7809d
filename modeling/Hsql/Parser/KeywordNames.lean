import Hsql.Bison.Interchange
import Hsql.Bison.Readers
import Hsql.Bison.View
import Hsql.Parser.Kinds
import Hsql.Parser.WellFormed

/-! Keywords as names. A keyword that `string_or_token` takes for a name gives the text of the
action, whatever its own is; elsewhere identifiers alone are names. -/

namespace Hsql
open Bison Keyword TokenKind

/-- The keywords that are names, and the texts that the actions make of them. -/
def keywordNames : List (Keyword × String) :=
  [(RECURSIVE, "recursive"), (TEXT, "text"), (ON, "ON"), (KEY, "key"), (TEMP, "temp"),
    (REPLACE, "replace")]

/-! Facts about the tables. -/

def isError : Act grammar → Bool
  | .error => true
  | _ => false

theorem eq_of_isError {a : Act grammar} (h : isError a = true) : a = .error := by
  cases a <;> first | rfl | cases h

/-- The state takes no such token, and a reduction in front of one is to one of the symbols. -/
def refusesBut (t : TokenKind) (symbols : List NT) (q : Nat) : Bool :=
  match (automaton.row q).act (some t) with
  | .shift _ => false
  | @Act.reduce _ _ _ n _ => decide (n ∈ symbols)
  | _ => true

/-- One of the states, or a state behind one of the symbols. -/
def Behind (starts : List Nat) (symbols : List NT) (q : Nat) : Prop :=
  q ∈ starts ∨ ∃ n ∈ symbols, ∃ p, automaton.goto p n = some q

theorem barred_behind {t : TokenKind} {starts : List Nat} {symbols : List NT}
    (h : (starts.all (refusesBut t symbols) && symbols.all fun n =>
      (Tables.gotos n).all fun x => refusesBut t symbols x.2) = true) :
    Barred automaton t (Behind starts symbols) := by
  rw [Bool.and_eq_true, List.all_eq_true, List.all_eq_true] at h
  have hrefuses {q : Nat} (hq : Behind starts symbols q) : refusesBut t symbols q = true := by
    rcases hq with hq | ⟨n, hn, p, hp⟩
    · exact h.1 q hq
    · exact List.all_eq_true.mp (h.2 n hn) _ (goto_mem hp)
  constructor
  · intro q p hq hact
    have hq := hrefuses hq
    rw [refusesBut, hact] at hq
    cases hq
  · intro q q' p n r hq hact hgoto
    have hq := hrefuses hq
    rw [refusesBut, hact] at hq
    exact .inr ⟨n, of_decide_eq_true hq, q', hgoto⟩

theorem barred_error (t : TokenKind) :
    Barred automaton t fun q => (automaton.row q).act (some t) = .error := by
  constructor
  · intro q p hq hact
    rw [hq] at hact
    cases hact
  · intro q q' p n r hq hact hgoto
    rw [hq] at hact
    cases hact

/-- States in which `ON` or `TEMP` goes on, and an identifier is the end. -/
def NoIdentifier (q : Nat) : Prop :=
  Behind [480, 489, 441, 421, 399, 29] [.optConflictClause, .optForeignKeyDeferrable,
    .foreignKeyEventList, .optJoinType, .optTemporary, .tableConstraint, .foreignKeyConstraint,
    .optTableConstraintList, .columnConstraint, .columnConstraintList,
    .columnConstraintListNullable, .columnDef, .alterStatement, .columnDefCommalist, .statement,
    .optComa, .statementList, .optSemicolon, .input] q ∨
    (automaton.row q).act (some .IDENTIFIER) = .error

theorem Barred.or {t : TokenKind} {C C' : Nat → Prop} (h : Barred automaton t C)
    (h' : Barred automaton t C') : Barred automaton t fun q => C q ∨ C' q := by
  constructor
  · rintro q p (hq | hq) hact
    · exact h.not_shift hq hact
    · exact h'.not_shift hq hact
  · rintro q q' p n r (hq | hq) hact hgoto
    · exact .inl (h.goto hq hact hgoto)
    · exact .inr (h'.goto hq hact hgoto)

theorem barred_identifier : Barred automaton .IDENTIFIER NoIdentifier :=
  Barred.or (barred_behind (by
    unfold refusesBut
    rw [automaton_eq_rowwise]
    decide +kernel)) (barred_error _)

/-- Behind a name in an expression no dot goes on. -/
theorem barred_dot : Barred automaton '.' (Behind [71] [.stringLiteral, .literal, .scalarExpr,
    .operand, .expr, .unaryExpr, .binaryExpr, .compExpr, .betweenExpr, .pragmaStatement,
    .optAlias, .logicExpr, .optOrderType, .optLimit, .optWhere, .caseList, .updateClause,
    .columnConstraint, .joinCondition, .optHaving, .statement, .exprAlias, .tableRefName,
    .nonjoinTableRefAtomic, .orderDesc, .indexedColumn, .selectNoParen, .selectStatement,
    .deleteStatement, .optGroup, .updateStatement, .updateClauseCommalist, .columnConstraintList,
    .joinClause, .statementList, .exprList, .tableRefAtomic, .orderList, .indexedColumnList,
    .insertStatement, .createStatement, .selectClause, .columnConstraintListNullable,
    .optSemicolon, .selectList, .tableRef, .optJoinType, .optOrder, .selectParenOrClause,
    .columnDef, .input, .fromClause, .alterStatement, .columnDefCommalist, .optComa,
    .optTableConstraintList]) :=
  barred_behind (by
    unfold refusesBut
    rw [automaton_eq_rowwise]
    decide +kernel)

/-- The state behind a keyword that is a name. -/
def nameState : Keyword → Nat
  | RECURSIVE => 37
  | REPLACE => 38
  | TEMP => 42
  | TEXT => 43
  | KEY => 44
  | ON => 46
  | _ => 0

def sameAct : Act grammar → Act grammar → Bool
  | .shift q, .shift q' => q == q'
  | @Act.reduce _ _ _ n r, @Act.reduce _ _ _ n' r' => n == n' && r.val == r'.val
  | .accept, .accept => true
  | .error, .error => true
  | _, _ => false

theorem eq_of_sameAct {a b : Act grammar} (h : sameAct a b = true) : a = b := by
  unfold sameAct at h
  split at h
  · exact congrArg _ (beq_iff_eq.mp h)
  · rename_i n r n' r'
    rw [Bool.and_eq_true, beq_iff_eq, beq_iff_eq] at h
    obtain ⟨rfl, hr⟩ := h
    exact congrArg _ (Fin.ext hr)
  · rfl
  · rfl
  · cases h

/-- In front of the keyword the state does what it does in front of an identifier. Where it shifts
the identifier to be a name, it shifts the keyword to be one; where it takes it for the name of
something else, the keyword is an error or, in place of an alias, begins what follows. -/
def interchanges (k : Keyword) (row : Row grammar) (starts : List Nat) (q : Nat) : Bool :=
  match row.act (some .IDENTIFIER) with
  | .shift p =>
    if p = 74 ∨ p = 33 then sameAct (row.act (some (.kw k))) (.shift (nameState k))
    else p == 215 || isError (row.act (some (.kw k)))
  | .error => true
  | a => sameAct a (row.act (some (.kw k))) || isError (row.act (some (.kw k))) || starts.elem q

theorem interchanges_row (q : Nat) : ∀ x ∈ keywordNames,
    interchanges x.1 (automaton.row q) [480, 489, 441, 421, 399, 29] q = true :=
  List.all_eq_true.mp (row_all (fun q row => keywordNames.all fun x =>
    interchanges x.1 row [480, 489, 441, 421, 399, 29] q) (fun _ _ => rfl) (by decide +kernel) q)

section
variable {k : Keyword} {w : String} (hk : (k, w) ∈ keywordNames)
include hk

theorem interchange_keyword : Interchange automaton .IDENTIFIER (.kw k) NoIdentifier
    fun q => (automaton.row q).act (some (.kw k)) = .error where
  barred := barred_identifier
  barred' := barred_error _
  accept hact := absurd (act_accept hact).2 (Option.some_ne_none _)
  row q := by
    have hrow := interchanges_row q _ hk
    unfold interchanges at hrow
    split at hrow
    · rename_i p hact
      exact .inl ⟨p, hact⟩
    · rename_i hact
      exact .inr (.inr (.inl (.inr hact)))
    · rw [Bool.or_eq_true, Bool.or_eq_true] at hrow
      rcases hrow with (hsame | herror) | hstart
      · exact .inr (.inl (eq_of_sameAct hsame))
      · exact .inr (.inr (.inr (eq_of_isError herror)))
      · exact .inr (.inr (.inl (.inl (.inl (List.elem_iff.mp hstart)))))

/-- What the keyword does where the identifier is shifted. -/
theorem act_keyword {q p : Nat} (h : (automaton.row q).act (some .IDENTIFIER) = .shift p) :
    ((p = 74 ∨ p = 33) ∧ (automaton.row q).act (some (.kw k)) = .shift (nameState k)) ∨
      p = 215 ∨ (automaton.row q).act (some (.kw k)) = .error := by
  have hrow := interchanges_row q _ hk
  unfold interchanges at hrow
  rw [h] at hrow
  dsimp only at hrow
  split_ifs at hrow with hp
  · exact .inl ⟨hp, eq_of_sameAct hrow⟩
  · rw [Bool.or_eq_true, beq_iff_eq] at hrow
    exact .inr (hrow.imp_right eq_of_isError)

end

/-- An identifier in an expression is shifted where a name leads to one state. -/
theorem goto_name {q p : Nat} (h : (automaton.row q).act (some .IDENTIFIER) = .shift 33)
    (hgoto : automaton.goto q .stringOrToken = some p) : p = 71 := by
  have hall : ((Tables.gotos .stringOrToken).all fun x =>
      !sameAct ((automaton.row x.1).act (some .IDENTIFIER)) (.shift 33) || x.2 == 71) = true := by
    rw [automaton_eq_rowwise]
    decide +kernel
  have hx := List.all_eq_true.mp hall _ (goto_mem hgoto)
  rw [h] at hx
  exact beq_iff_eq.mp hx

/-! Derivations in which an identifier stands for each name. -/

/-- The text of a name. -/
def nameText : (r : grammar.Rule .stringOrToken) →
    Forest grammar TokenKind.Val Location (grammar.rhs r) → Str
  | ⟨0, _⟩, .token a .nil => a
  | ⟨1, _⟩, .token a .nil => a
  | ⟨2, _⟩, _ => "recursive".toList
  | ⟨3, _⟩, _ => "text".toList
  | ⟨4, _⟩, _ => "ON".toList
  | ⟨5, _⟩, _ => "key".toList
  | ⟨6, _⟩, _ => "temp".toList
  | ⟨7, _⟩, _ => "replace".toList

theorem stringOrToken_pos : 0 < (productions .stringOrToken).length := by decide

def identifier (p : Location) (a : Str) : Derivation .stringOrToken :=
  .node ⟨0, stringOrToken_pos⟩ p (.token a .nil)

def namedNode : (n : NT) → (r : grammar.Rule n) → Location →
    Forest grammar TokenKind.Val Location (grammar.rhs r) → Derivation n
  | .stringOrToken, r, p, kids => identifier p (nameText r kids)
  | _, r, p, kids => .node r p kids

theorem namedNode_of_ne {n : NT} (hn : n ≠ .stringOrToken) (r : grammar.Rule n) (p : Location)
    (kids : Forest grammar TokenKind.Val Location (grammar.rhs r)) :
    namedNode n r p kids = .node r p kids := by
  cases n <;> first | rfl | exact absurd rfl hn

mutual

def named {n : NT} : Bison.Tree grammar TokenKind.Val Location n → Derivation n
  | .node r p kids => namedNode n r p (namedForest kids)

def namedForest {ss : List Sym} : Forest grammar TokenKind.Val Location ss →
    Forest grammar TokenKind.Val Location ss
  | .nil => .nil
  | .token a k => .token a (namedForest k)
  | .tree d k => .tree (named d) (namedForest k)

end

theorem eval_identifier (r : grammar.Rule .stringOrToken) (p : Location)
    (kids : Forest grammar TokenKind.Val Location (grammar.rhs r)) (s : ParserState) :
    (identifier p (nameText r kids)).eval actions s =
      (Bison.Tree.node r p kids : Derivation .stringOrToken).eval actions s := by
  match r, kids with
  | ⟨0, _⟩, .token a .nil => rfl
  | ⟨1, _⟩, .token a .nil => rfl
  | ⟨2, _⟩, .token a .nil => rfl
  | ⟨3, _⟩, .token a .nil => rfl
  | ⟨4, _⟩, .token a .nil => rfl
  | ⟨5, _⟩, .token a .nil => rfl
  | ⟨6, _⟩, .token a .nil => rfl
  | ⟨7, _⟩, .token a .nil => rfl

mutual

theorem eval_named {n : NT} : ∀ (d : Bison.Tree grammar TokenKind.Val Location n) (s : ParserState),
    (named d).eval actions s = d.eval actions s
  | .node r p kids, s => by
    have hkids := eval_namedForest kids
    rw [named]
    by_cases hn : n = .stringOrToken
    · subst hn
      rw [namedNode, eval_identifier, Tree.eval, Tree.eval, hkids]
    · rw [namedNode_of_ne hn, Tree.eval, Tree.eval, hkids]

theorem eval_namedForest {ss : List Sym} :
    ∀ (k : Forest grammar TokenKind.Val Location ss) (s : ParserState),
      (namedForest k).eval actions s = k.eval actions s
  | .nil, _ => rfl
  | .token a k, s => by
    rw [namedForest, Forest.eval, Forest.eval, eval_namedForest k]
  | .tree d k, s => by
    rw [namedForest, Forest.eval, Forest.eval, eval_named d]
    simp only [eval_namedForest k]

end

/-- What is left of a derivation that is built when names may be keywords, and places are
forgotten. -/
abbrev nameImage : Image (trees grammar TokenKind.Val Location) where
  B := TokenKind.Val
  W := Bison.Tree grammar TokenKind.Val Unit
  Q := Unit
  Z := Unit
  token := forgetImage.token
  value _ d := (named d).view forgetImage.token forgetImage.place
  place := forgetImage.place
  state _ := ()

theorem view_namedForest {ss : List Sym}
    (vs : Vals TokenKind.Val (Bison.Tree grammar TokenKind.Val Location) ss) :
    (namedForest (.ofVals vs)).view forgetImage.token forgetImage.place =
      Forest.ofVals (nameImage.vals ss vs) := by
  induction ss with
  | nil => rfl
  | cons sym ss ih =>
    cases sym with
    | terminal t => exact congrArg (Forest.token (forgetImage.token t vs.1)) (ih vs.2)
    | nonterminal n =>
      exact congrArg (Forest.tree ((named vs.1).view forgetImage.token forgetImage.place)) (ih vs.2)

theorem nameImage_respected : nameImage.Respected := by
  intro n r vs vs' p p' s s' hvs _ _
  have hforest : (namedForest (.ofVals vs)).view forgetImage.token forgetImage.place =
      (namedForest (.ofVals vs')).view forgetImage.token forgetImage.place := by
    rw [view_namedForest, view_namedForest, hvs]
  have hnode : (named (.node r p (.ofVals vs))).view forgetImage.token forgetImage.place =
      (named (.node r p' (.ofVals vs'))).view forgetImage.token forgetImage.place := by
    by_cases hn : n = .stringOrToken
    · subst hn
      have htext (h : nameText r (namedForest (.ofVals vs)) =
          nameText r (namedForest (.ofVals vs'))) :
          (named (.node r p (.ofVals vs))).view forgetImage.token forgetImage.place =
            (named (.node r p' (.ofVals vs'))).view forgetImage.token forgetImage.place := by
        rw [named, named, namedNode, namedNode, h]
        rfl
      refine htext ?_
      match r, vs, vs', hvs with
      | ⟨0, _⟩, (a, _), (a', _), hvs => exact (Prod.mk.inj hvs).1
      | ⟨1, _⟩, (a, _), (a', _), hvs => exact (Prod.mk.inj hvs).1
      | ⟨2, _⟩, _, _, _ => rfl
      | ⟨3, _⟩, _, _, _ => rfl
      | ⟨4, _⟩, _, _, _ => rfl
      | ⟨5, _⟩, _, _, _ => rfl
      | ⟨6, _⟩, _, _, _ => rfl
      | ⟨7, _⟩, _, _, _ => rfl
    · rw [named, named, namedNode_of_ne hn, namedNode_of_ne hn, Tree.view, Tree.view, hforest]
  exact congrArg (fun d => some (d, ())) hnode

end Hsql
