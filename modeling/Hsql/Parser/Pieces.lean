import Hsql.Bison.Brackets
import Hsql.Parser.Concatenation

/-! The statements of a text, as its tokens tell: one for each piece between semicolons that stand
outside of `CASE` or `BEGIN` and `END`, and of the type that the first token of the piece names. -/

namespace Hsql
open Bison

inductive StatementType where
  | kStmtError | kStmtSelect | kStmtInsert | kStmtUpdate | kStmtDelete | kStmtCreate | kStmtDrop
  | kStmtAlter | kStmtPragma
deriving DecidableEq

/-- The type that the constructors give to the base class. -/
def SQLStatement.type (s : SQLStatement) : StatementType :=
  match s.derived with
  | .select _ => .kStmtSelect
  | .create _ => .kStmtCreate
  | .insert _ => .kStmtInsert
  | .delete _ => .kStmtDelete
  | .update _ => .kStmtUpdate
  | .drop _ => .kStmtDrop
  | .pragma _ => .kStmtPragma
  | .alter _ => .kStmtAlter

/-- The tokens that a statement starts with. -/
def StatementType.ofToken : TokenKind → Option StatementType
  | .kw .SELECT | .ch '(' => some .kStmtSelect
  | .kw .CREATE => some .kStmtCreate
  | .kw .INSERT => some .kStmtInsert
  | .kw .DELETE => some .kStmtDelete
  | .kw .UPDATE => some .kStmtUpdate
  | .kw .DROP => some .kStmtDrop
  | .kw .PRAGMA => some .kStmtPragma
  | .kw .ALTER => some .kStmtAlter
  | _ => none

def NT.statementType : NT → Option StatementType
  | .selectStatement | .selectWithParen | .selectParenOrClause | .selectNoParen | .selectClause =>
    some .kStmtSelect
  | .createStatement => some .kStmtCreate
  | .insertStatement => some .kStmtInsert
  | .deleteStatement => some .kStmtDelete
  | .updateStatement => some .kStmtUpdate
  | .dropStatement => some .kStmtDrop
  | .pragmaStatement => some .kStmtPragma
  | .alterStatement => some .kStmtAlter
  | _ => none

theorem head_tells {n : NT} (r : grammar.Rule n) {k : StatementType}
    (hn : n.statementType = some k) :
    (grammar.rhs r).head?.bind (Symbol.tells StatementType.ofToken NT.statementType) = some k := by
  rw [← hn]
  revert r
  cases n <;> first | (cases hn; done) | decide

/-- `END` closes a `CASE` or the body of a trigger. -/
def brackets : Brackets TokenKind where
  opens t := t == .kw .CASE || t == .kw .BEGIN
  closes t := t == .kw .END
  separates t := t == .ch ';'

def NT.lists (n : NT) : Bool := n == .input || n == .statementList || n == .optSemicolon

theorem balanced_rhs {n : NT} (r : grammar.Rule n) :
    brackets.balanced NT.lists n.lists 0 (grammar.rhs r) = true := by
  revert r
  cases n <;> decide +kernel

/-- The pieces between the semicolons, of which the last one may be empty. -/
def statementPieces (ts : List TokenKind) : List (List TokenKind) :=
  (brackets.pieces 0 [] ts).filter (· ≠ [])

/-- The type of a piece. -/
def pieceType (piece : List TokenKind) : Option StatementType :=
  piece.head?.bind StatementType.ofToken

theorem pieceType_single {n : NT} {k : StatementType} (hn : n.statementType = some k)
    (kids : Bison.Forest grammar TokenKind.Val Location [.nonterminal n]) :
    pieceType kids.word = some k := by
  cases kids with
  | tree d rest =>
    cases rest
    rw [Forest.word_tree]
    show pieceType (d.word ++ []) = some k
    rw [List.append_nil]
    exact d.head_word head_tells hn

/-- A statement is of the type that its first token names. -/
theorem Derivation.type_eq {d : Derivation .statement} {s s' : ParserState}
    {v : NT.statement.Val} (h : d.eval actions s = some (v, s')) :
    ∃ stmt, v = some stmt ∧ pieceType d.word = some stmt.type := by
  obtain ⟨stmt, rfl⟩ := Option.isSome_iff_exists.mp
    (show v.isSome from d.eval_all preserves_given h)
  refine ⟨stmt, rfl, ?_⟩
  obtain ⟨r, p, kids⟩ := d
  rw [Tree.eval, Option.bind_eq_some_iff] at h
  obtain ⟨⟨vs, s₁⟩, -, hact⟩ := h
  match r, kids, vs, hact with
  | ⟨0, _⟩, kids, _, hact | ⟨1, _⟩, kids, _, hact | ⟨2, _⟩, kids, _, hact
  | ⟨3, _⟩, kids, _, hact | ⟨4, _⟩, kids, _, hact | ⟨5, _⟩, kids, _, hact
  | ⟨6, _⟩, kids, _, hact | ⟨7, _⟩, kids, _, hact =>
    obtain ⟨x, -, rfl⟩ := Option.map_eq_some_iff.mp (Prod.mk.inj (Option.some.inj hact)).1
    exact pieceType_single rfl kids

theorem Derivation.list_cases (l : Derivation .statementList) :
    (∃ p d, l = .node ⟨0, by decide⟩ p (.tree d .nil)) ∨
      ∃ p l' a d, l = .node ⟨1, by decide⟩ p (.tree l' (.token a (.tree d .nil))) := by
  obtain ⟨r, p, kids⟩ := l
  match r, kids with
  | ⟨0, _⟩, kids =>
    cases kids with
    | tree d rest =>
      cases rest
      exact .inl ⟨p, d, rfl⟩
  | ⟨1, _⟩, kids =>
    cases kids with
    | tree l' rest =>
      cases rest with
      | token a rest =>
        cases rest with
        | tree d rest =>
          cases rest
          exact .inr ⟨p, l', a, d, rfl⟩

section
variable (p : Location) (l : Derivation .statementList) (a : TokenKind.Val (.ch ';'))
  (d : Derivation .statement)

theorem word_first : (Bison.Tree.node ⟨0, by decide⟩ p (.tree d .nil) :
    Derivation .statementList).word = d.word :=
  (Forest.word_tree d .nil).trans (List.append_nil _)

theorem word_next : (Bison.Tree.node ⟨1, by decide⟩ p (.tree l (.token a (.tree d .nil))) :
    Derivation .statementList).word = l.word ++ .ch ';' :: d.word := by
  have hrest : (Bison.Forest.token a (.tree d .nil) : Bison.Forest grammar TokenKind.Val Location
      [.terminal (.ch ';'), .nonterminal .statement]).word = .ch ';' :: d.word := by
    rw [Forest.word_token, Forest.word_tree]
    exact congrArg _ (List.append_nil _)
  rw [← hrest]
  exact Forest.word_tree l _

end

/-- The pieces in front of the last one of a list, and the last one. -/
theorem Derivation.pieces_eq (l : Derivation .statementList) {s s' : ParserState}
    {stmts : List (Option SQLStatement)} (h : l.eval actions s = some (some stmts, s')) :
    ∃ init last, (∀ rest, brackets.pieces 0 [] (l.word ++ rest) =
        init ++ brackets.pieces 0 last rest) ∧
      stmts.map (Option.map SQLStatement.type) = (init ++ [last]).map pieceType ∧
        ∀ piece ∈ init ++ [last], (pieceType piece).isSome := by
  induction hlen : l.word.length using Nat.strong_induction_on generalizing l s s' stmts with
  | _ n ih =>
    have hstmt (d : Derivation .statement) (piece rest : List TokenKind) :
        brackets.pieces 0 piece (d.word ++ rest) = brackets.pieces 0 (piece ++ d.word) rest :=
      Brackets.pieces_word balanced_rhs d (by decide) piece rest
    rcases l.list_cases with ⟨p, d, rfl⟩ | ⟨p, l', a, d, rfl⟩
    · rw [eval_first, Option.bind_eq_some_iff] at h
      obtain ⟨⟨v, s₁⟩, hd, h⟩ := h
      obtain ⟨⟨w, s₂⟩, hmeasure, heq⟩ := Option.map_eq_some_iff.mp h
      obtain ⟨stmt, rfl, htype⟩ := Derivation.type_eq hd
      cases hmeasure
      cases heq
      refine ⟨[], d.word, fun rest => ?_, congrArg (fun x => [x]) htype.symm, ?_⟩
      · rw [word_first, hstmt]
        rfl
      · intro piece hpiece
        obtain rfl := List.mem_singleton.mp hpiece
        rw [htype]
        rfl
    · rw [eval_next, Option.bind_eq_some_iff] at h
      obtain ⟨⟨v, s₁⟩, hl, h⟩ := h
      obtain ⟨⟨x, s₂⟩, hd, h⟩ := Option.bind_eq_some_iff.mp h
      obtain ⟨⟨w, s₃⟩, hmeasure, h⟩ := Option.bind_eq_some_iff.mp h
      obtain ⟨all, hpush, heq⟩ := Option.map_eq_some_iff.mp h
      obtain ⟨stmt, rfl, htype⟩ := Derivation.type_eq hd
      obtain ⟨stmts', rfl, hall⟩ := Option.map_eq_some_iff.mp hpush
      have hlt : l'.word.length < n := by
        rw [← hlen, word_next, List.length_append, List.length_cons]
        omega
      obtain ⟨init, last, hpieces, htypes, hsome⟩ := ih _ hlt l' hl rfl
      cases hmeasure
      cases hall
      cases heq
      refine ⟨init ++ [last], d.word, fun rest => ?_, ?_, ?_⟩
      · have hcut : brackets.pieces 0 last (.ch ';' :: (d.word ++ rest)) =
            last :: brackets.pieces 0 [] (d.word ++ rest) := rfl
        rw [word_next, List.append_assoc, List.cons_append, hpieces, hcut, hstmt, List.nil_append,
          List.append_assoc]
        rfl
      · rw [List.map_append, List.map_append, htypes]
        exact congrArg (fun x => _ ++ [x]) htype.symm
      · intro piece hpiece
        rcases List.mem_append.mp hpiece with hpiece | hpiece
        · exact hsome piece hpiece
        · obtain rfl := List.mem_singleton.mp hpiece
          rw [htype]
          rfl

theorem word_optSemicolon (d : Derivation .optSemicolon) : d.word = [.ch ';'] ∨ d.word = [] := by
  match d with
  | .node ⟨0, _⟩ p (.token a .nil) => exact .inl rfl
  | .node ⟨1, _⟩ p .nil => exact .inr rfl

/-- **The statements of a text are those that its tokens name**: one for each piece between
semicolons outside of `CASE` or `BEGIN` and `END`, in the same order, none of them null, and of the
type that the first token of the piece names. -/
theorem statements_named {sql : Str} {heap heap' : Heap} {r : SQLParserResult}
    (h : Parses heap .new sql heap' r) (hvalid : r.isValid = true) :
    r.statements.map (Option.map SQLStatement.type) =
        (statementPieces (codes sql)).map pieceType ∧
      ∀ piece ∈ statementPieces (codes sql), (pieceType piece).isSome := by
  obtain ⟨d, s, hbuilds, heval, -, rfl⟩ := parses_valid_iff.mp ⟨h, hvalid⟩
  have hcodes : codes sql = d.word := by
    rw [Tree.word, hbuilds.yield, List.map_map]
    rfl
  obtain ⟨p, l, o, stmts, s₁, s₂, rfl, hlist, hsemi, rfl⟩ := Derivation.eval_input heval
  have hstmts : ((s₂.finish stmts).result.setIsValid true).statements = stmts := by
    show (s₂.finish stmts).result.statements = stmts
    rw [ParserState.statements_finish, Derivation.result_eq (by decide) o hsemi,
      Derivation.result_eq (by decide) l hlist]
    rfl
  have hword : codes sql = l.word ++ o.word := by
    have hrest : (Bison.Forest.tree o .nil : Bison.Forest grammar TokenKind.Val Location
        [.nonterminal .optSemicolon]).word = o.word :=
      (Forest.word_tree o .nil).trans (List.append_nil _)
    rw [hcodes, ← hrest]
    exact Forest.word_tree l _
  obtain ⟨init, last, hpieces, htypes, hsome⟩ := l.pieces_eq hlist
  have hne : ∀ piece ∈ init ++ [last], decide (piece ≠ []) = true := by
    rintro piece hpiece
    refine decide_eq_true fun hnil => ?_
    have hpiece' := hsome piece hpiece
    rw [hnil] at hpiece'
    cases hpiece'
  -- the semicolon at the end leaves an empty piece
  have hall : statementPieces (codes sql) = init ++ [last] := by
    have hcut : brackets.pieces 0 last [.ch ';'] = [last, []] := rfl
    rw [statementPieces, hword, hpieces]
    rcases word_optSemicolon o with ho | ho
    · rw [ho, hcut, List.append_cons, List.filter_append, List.filter_eq_self.mpr hne]
      exact List.append_nil _
    · rw [ho]
      exact List.filter_eq_self.mpr hne
  rw [hstmts, hall]
  exact ⟨htypes, hsome⟩

theorem statements_named_trigger : ∃ heap' r, Parses ⟨0, 0, 0, 0⟩ .new
    "CREATE TRIGGER a AFTER INSERT ON b BEGIN DELETE FROM c; END; DROP VIEW d;".toList heap' r ∧
      r.statements.map (Option.map SQLStatement.type) = [some .kStmtCreate, some .kStmtDrop] := by
  have hrun : (parse 200 ⟨0, 0, 0, 0⟩ .new
      "CREATE TRIGGER a AFTER INSERT ON b BEGIN DELETE FROM c; END; DROP VIEW d;".toList).map
        (·.2.isValid) = some true := by
    rw [parse_rowwise]
    decide +kernel
  obtain ⟨⟨heap', r⟩, hparse, hvalid⟩ := Option.map_eq_some_iff.mp hrun
  have hnamed := (statements_named (.of_parse hparse) hvalid).1
  have htypes : (statementPieces (codes
      "CREATE TRIGGER a AFTER INSERT ON b BEGIN DELETE FROM c; END; DROP VIEW d;".toList)).map
        pieceType = [some .kStmtCreate, some .kStmtDrop] := by
    rw [codes_rulesAt]
    decide +kernel
  exact ⟨heap', r, .of_parse hparse, hnamed.trans htypes⟩

/-- The first `END` closes the `CASE`. -/
example : statementPieces [.kw .CREATE, .kw .BEGIN, .kw .CASE, .kw .END, .ch ';', .kw .END, .ch ';',
    .kw .DROP] =
      [[.kw .CREATE, .kw .BEGIN, .kw .CASE, .kw .END, .ch ';', .kw .END], [.kw .DROP]] := by
  decide +kernel

end Hsql
