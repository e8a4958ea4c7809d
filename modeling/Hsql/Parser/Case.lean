import Hsql.Lexer.Case
import Hsql.Parser.Locations
import Hsql.Parser.Rename

/-! The case of letters never changes the parse: texts that only differ in it have results that only
differ in the case of names and strings. -/

namespace Hsql
open Bison Flex Vals

/-- The result with a function run on each name and string of its statements. -/
def SQLParserResult.rename (f : Str → Str) (r : SQLParserResult) : SQLParserResult :=
  { r with statements := r.statements.map (Option.map (SQLStatement.rename f id)) }

def ParserState.rename (f : Str → Str) (s : ParserState) : ParserState :=
  { s with result := s.result.rename f }

theorem foldl_addStatement_rename (f : Str → Str) (r : SQLParserResult)
    (stmts : List (Option SQLStatement)) :
    (stmts.foldl SQLParserResult.addStatement r).rename f =
      (stmts.map (Option.map (SQLStatement.rename f id))).foldl SQLParserResult.addStatement
        (r.rename f) := by
  induction stmts generalizing r with
  | nil => rfl
  | cons x stmts ih =>
    rw [List.foldl_cons, ih, List.map_cons, List.foldl_cons]
    congr 1
    simp [SQLParserResult.rename, SQLParserResult.addStatement]

theorem foldl_addParameter_rename (f : Str → Str) (r : SQLParserResult)
    (l : List (Parameter × Nat)) :
    (l.foldl (fun r (param, paramId) => r.addParameter { param with ival := paramId }) r).rename f =
      l.foldl (fun r (param, paramId) => r.addParameter { param with ival := paramId })
        (r.rename f) := by
  induction l generalizing r with
  | nil => rfl
  | cons x l ih => exact ih _

theorem finish_rename (f : Str → Str) (s : ParserState) (stmts : List (Option SQLStatement)) :
    (s.finish stmts).rename f =
      (s.rename f).finish (stmts.map (Option.map (SQLStatement.rename f id))) := by
  unfold ParserState.finish ParserState.rename
  simp only [foldl_addParameter_rename, foldl_addStatement_rename]

theorem seen_effect {f : Str → Str} {n : NT} {rhs : List Sym}
    {h : Vals TokenKind.Val NT.Val rhs → Location → ParserState → Option (n.Val × ParserState)}
    (heq : ∀ vs l s, (h vs l s).map (fun x => (n.rename f id x.1, x.2.rename f)) =
      h (renameVals f id rhs vs) l (s.rename f)) :
    (effect rhs h).Seen f id (fun l => l) (ParserState.rename f) := ⟨h, heq⟩

section
attribute [local simp] NT.rename Member.rename renameVals TokenKind.rename ParserState.rename
  SelectStatement.rename OrderDescription.rename LimitDescription.rename forall_terminal
  forall_nonterminal forall_nil

theorem seen_rename (f : Str → Str) (n : NT) :
    ∀ p ∈ productions n, p.Seen f id (fun l => l) (ParserState.rename f) := by
  by_cases hn : n ∈ NT.effectful
  · simp only [NT.effectful, List.mem_cons, List.not_mem_nil, or_false] at hn
    rcases hn with rfl | rfl | rfl | rfl | rfl | rfl
    · simp only [productions, inputRules, List.forall_mem_cons]
      refine ⟨seen_effect ?_, List.forall_mem_nil _⟩
      rintro ⟨l, ⟨⟩⟩ _ s
      cases l with
      | none => rfl
      | some l => exact congrArg (fun s => some ((), s)) (finish_rename f s l)
    · simp only [productions, statementListRules, List.forall_mem_cons]
      refine ⟨seen_effect ?_, seen_effect ?_, List.forall_mem_nil _⟩
      · rintro ⟨x, ⟨⟩⟩ yylloc s
        cases x with
        | none => rfl
        | some x =>
          simp [ParserState.measure, vector, SQLStatement.rename_eq]
      · rintro ⟨l, ⟨⟩, x, ⟨⟩⟩ yylloc s
        cases x with
        | none => rfl
        | some x => cases l <;> simp [ParserState.measure, pushBack, SQLStatement.rename_eq]
    · simp only [productions, selectClauseRules, List.forall_mem_cons]
      refine ⟨seen_effect ?_, List.forall_mem_nil _⟩
      simp [ParserState.newSelect, SelectStatement.new]
    · simp only [productions, orderDescRules, List.forall_mem_cons]
      refine ⟨seen_effect ?_, seen_effect ?_, List.forall_mem_nil _⟩ <;>
        simp [ParserState.newOrder]
    · simp only [productions, optLimitRules, List.forall_mem_cons]
      refine ⟨seen_effect ?_, seen_effect ?_, seen_effect ?_,
        (natural_constant _).seen, List.forall_mem_nil _⟩ <;>
        simp [ParserState.newLimit]
    · simp only [productions, paramExprRules, List.forall_mem_cons]
      refine ⟨seen_effect ?_, (natural_rule ?_).seen, List.forall_mem_nil _⟩
      · simp [ParserState.newParam, Expr.makeParameter, Expr.new, Expr.rename]
      · simp [Expr.makeNamedParameter, Expr.new, Expr.rename]
  · intro p hp
    exact (natural rfl hn p hp).seen

end

/-! Two runs. -/

/-- What the case of letters leaves of a run. -/
abbrev caseImage : Image actions := seen lower id (fun l => l) (ParserState.rename lower)

theorem advance_lower (l : Location) (w : Str) : l.advance (lower w) = l.advance w := by
  have hcount (l : Location) (c : Char) : l.count c.toLower = l.count c := by
    unfold Location.count
    simp only [toLower_eq_iff (d := '\n') (by decide)]
  unfold Location.advance lower
  rw [List.foldl_map]
  simp only [hcount]

theorem advance_alike {x x' : Lexeme Start Token} (h : x.Alike Char.toLower (Token.rename lower) x')
    (l : Location) : l.advance x.text = l.advance x'.text := by
  rw [← advance_lower l x.text, ← advance_lower l x'.text]
  exact congrArg l.advance h.1

section
variable {L L' : List (Lexeme Start Token)}

theorem after_alike (h : List.Forall₂ (Lexeme.Alike Char.toLower (Token.rename lower)) L L')
    (l : Location) : l.after L = l.after L' := by
  induction h generalizing l with
  | nil => rfl
  | cons hx _ ih =>
    show (l.advance _).after _ = (l.advance _).after _
    rw [advance_alike hx, ih]

theorem tokens_alike (h : List.Forall₂ (Lexeme.Alike Char.toLower (Token.rename lower)) L L')
    (l : Location) : (l.tokens L).map caseImage.input = (l.tokens L').map caseImage.input := by
  induction h generalizing l with
  | nil => rfl
  | @cons x x' L L' hx _ ih =>
    have hact := hx.2
    unfold Location.tokens
    rw [advance_alike hx]
    generalize x.act = act, x'.act = act' at hact
    cases act <;> cases act' <;> try exact hact.elim
    · exact ih _
    · exact ih _
    · rename_i t t'
      obtain ⟨k, v⟩ := t
      obtain ⟨k', v'⟩ := t'
      have htoken : Token.rename lower ⟨k, v⟩ = Token.rename lower ⟨k', v'⟩ := hact
      obtain ⟨rfl, hval⟩ := Token.mk.inj htoken
      rw [List.map_cons, List.map_cons, ih]
      exact congrArg (fun b => (⟨⟨k, b⟩, _⟩ : Sigma TokenKind.Val × Location) :: _) (eq_of_heq hval)
    · exact ih _

end

/-- **Letter case never changes the parse.** Texts that only differ in the case of letters have the
same token codes, and parsing them gives the same result, up to the case of names and strings. -/
theorem parse_lower {sql sql' : Str} (h : lower sql = lower sql') : codes sql = codes sql' ∧
    ∀ heap result heap' r, Parses heap result sql heap' r →
      ∃ r', Parses heap result sql' heap' r' ∧ r.rename lower = r'.rename lower := by
  have halike := lexemes_alike h
  have hparts {s s' : ParserState} (h : s.rename lower = s'.rename lower) :
      s.heap = s'.heap ∧ s.result.rename lower = s'.result.rename lower := by
    have hheap := congrArg ParserState.heap h
    have hresult := congrArg ParserState.result h
    exact ⟨hheap, hresult⟩
  refine ⟨?_, ?_⟩
  · have hkinds (L : List (Lexeme Start Token)) : (Flex.tokens L).map Token.kind =
        ((Flex.tokens L).map (Token.rename lower)).map Token.kind := by
      rw [List.map_map]
      rfl
    show (Flex.tokens (lexemes sql)).map Token.kind = (Flex.tokens (lexemes sql')).map Token.kind
    rw [hkinds, Flex.tokens_alike halike, ← hkinds]
  · intro heap result heap' r hparses
    obtain ⟨o, hrun, ho⟩ := hparses
    have hstart : Config.Alike caseImage (startConfig actions sql (.start heap result))
        (startConfig actions sql' (.start heap result)) :=
      ⟨rfl, tokens_alike halike .zero, rfl, rfl, rfl⟩
    obtain ⟨o', hrun', hout⟩ := hrun.alike (seen_respected (seen_rename lower))
      (show caseImage.place (eof sql) = caseImage.place (eof sql') from after_alike halike .zero) hstart
    cases o with
    | accept stack s =>
      cases o' with
      | accept stack' s' =>
        obtain ⟨-, hstate⟩ := hout
        obtain ⟨hheap, hresult⟩ := hparts hstate
        obtain ⟨rfl, rfl⟩ := Prod.mk.inj (Option.some.inj ho)
        refine ⟨s'.result.setIsValid true, ⟨.accept stack' s', hrun', ?_⟩, ?_⟩
        · rw [conclude, hheap]
        · exact congrArg (fun r => SQLParserResult.setIsValid r true) hresult
      | reject => exact hout.elim
      | crash => exact hout.elim
    | reject stack t p s =>
      cases o' with
      | accept => exact hout.elim
      | reject stack' t' p' s' =>
        obtain ⟨hstack, rfl, rfl, hstate⟩ := hout
        have htop : topState stack = topState stack' := by
          rw [← caseImage.topState_map, hstack, caseImage.topState_map]
        obtain ⟨hheap, hresult⟩ := hparts hstate
        obtain ⟨rfl, rfl⟩ := Prod.mk.inj (Option.some.inj ho)
        refine ⟨(s'.result.setErrorDetails ⟨t, topState stack'⟩ p.firstLine
          p.firstColumn).setIsValid false, ⟨.reject stack' t p s', hrun', ?_⟩, ?_⟩
        · rw [conclude, hheap]
        · rw [htop]
          exact congrArg (fun r => (r.setErrorDetails ⟨t, topState stack'⟩ p.firstLine
            p.firstColumn).setIsValid false) hresult
      | crash => exact hout.elim
    | crash => cases ho

theorem parse_lower_select : lower "SELECT A FROM t".toList = lower "select a from T".toList ∧
    codes "SELECT A FROM t".toList = codes "select a from T".toList ∧
    ∃ heap' r, Parses ⟨0, 0, 0, 0⟩ .new "SELECT A FROM t".toList heap' r ∧
      ∃ r', Parses ⟨0, 0, 0, 0⟩ .new "select a from T".toList heap' r' ∧
        r.rename lower = r'.rename lower := by
  have hlower : lower "SELECT A FROM t".toList = lower "select a from T".toList := by decide
  have hparse : (parse 100 ⟨0, 0, 0, 0⟩ .new "SELECT A FROM t".toList).isSome = true := by
    rw [parse_rowwise]
    decide +kernel
  obtain ⟨x, hx⟩ := Option.isSome_iff_exists.mp hparse
  have hcase := parse_lower hlower
  have hparses := Parses.of_parse hx
  exact ⟨hlower, hcase.1, x.1, x.2, hparses, hcase.2 _ _ _ _ hparses⟩

end Hsql
