import Hsql.Lexer.Strings
import Hsql.Parser.Case
import Hsql.Parser.Slices

/-! Texts whose tokens are the same but for where they are and for some of their values: the parser
treats them alike. So the value of a literal in a template of a statement stays in its place. -/

namespace Hsql
open Bison Lexer

/-- The tokens of another text at the places of this one. -/
def graft (sql sql' : Str) : List (Sigma TokenKind.Val × Location) :=
  ((tokens sql').map fun t => (⟨t.kind, t.val⟩ : Sigma TokenKind.Val)).zip
    ((Location.zero.tokens (lexemes sql)).map Prod.snd)

section
variable {σ : Str → Str} {sql sql' : Str}

theorem length_of_renamed (h : (tokens sql).map (Token.rename σ) = (tokens sql').map (Token.rename σ)) :
    (Location.zero.tokens (lexemes sql)).length = (tokens sql').length := by
  have hlen := congrArg List.length h
  have hfst := congrArg List.length (tokens_map_fst .zero (lexemes sql))
  rw [List.length_map, List.length_map] at hlen hfst
  exact hfst.trans hlen

theorem graft_fst (h : (tokens sql).map (Token.rename σ) = (tokens sql').map (Token.rename σ)) :
    (graft sql sql').map Prod.fst = (tokens sql').map fun t => ⟨t.kind, t.val⟩ := by
  refine List.map_fst_zip ?_
  rw [List.length_map, List.length_map, length_of_renamed h]

/-- Under the renaming they look like the tokens of the text. -/
theorem graft_seen (h : (tokens sql).map (Token.rename σ) = (tokens sql').map (Token.rename σ)) :
    (Location.zero.tokens (lexemes sql)).map
        (fun x => ((⟨x.1.1, x.1.1.rename σ x.1.2⟩, x.2) : Sigma TokenKind.Val × Location)) =
      (graft sql sql').map fun x => (⟨x.1.1, x.1.1.rename σ x.1.2⟩, x.2) := by
  have hzip (xs : List (Sigma TokenKind.Val × Location)) :
      xs.map (fun x => ((⟨x.1.1, x.1.1.rename σ x.1.2⟩, x.2) : Sigma TokenKind.Val × Location)) =
        ((xs.map Prod.fst).map fun x => (⟨x.1, x.1.rename σ x.2⟩ : Sigma TokenKind.Val)).zip
          (xs.map Prod.snd) := by
    induction xs with
    | nil => rfl
    | cons x xs ih => exact congrArg _ ih
  have hkinds (L : List Token) :
      (L.map fun t => (⟨t.kind, t.val⟩ : Sigma TokenKind.Val)).map
          (fun x => (⟨x.1, x.1.rename σ x.2⟩ : Sigma TokenKind.Val)) =
        (L.map (Token.rename σ)).map fun t => ⟨t.kind, t.val⟩ := by
    rw [List.map_map, List.map_map]
    rfl
  have hsnd : (graft sql sql').map Prod.snd = (Location.zero.tokens (lexemes sql)).map Prod.snd := by
    refine List.map_snd_zip ?_
    rw [List.length_map, List.length_map, length_of_renamed h]
  rw [hzip, hzip, hsnd, graft_fst h, tokens_map_fst, hkinds, hkinds]
  exact congrArg (fun L : List Token => (L.map fun t => (⟨t.kind, t.val⟩ : Sigma TokenKind.Val)).zip
    ((Location.zero.tokens (lexemes sql)).map Prod.snd)) h

/-- Statements with the same nodes, whose names and strings the renaming does not tell apart and
whose texts may differ in length. -/
def SameUpTo (σ : Str → Str) (stmts stmts' : List (Option SQLStatement)) : Prop :=
  ∃ between, stmts.map (Option.map (SQLStatement.rename σ id)) =
      between.map (Option.map (SQLStatement.rename σ id)) ∧
    withoutLengths between = withoutLengths stmts'

theorem Parses.like_valid (h : (tokens sql).map (Token.rename σ) = (tokens sql').map (Token.rename σ))
    {heap heap' : Heap} {result r : SQLParserResult} (hparses : Parses heap result sql heap' r)
    (hr : r.isValid = true) : ∃ r', Parses heap result sql' heap' r' ∧ r'.isValid = true ∧
      SameUpTo σ r.statements r'.statements := by
  obtain ⟨d, s, hbuilds, heval, rfl, rfl⟩ := parses_valid_iff.mp ⟨hparses, hr⟩
  have hstart : Config.Alike (viewImage grammar (fun t => t.rename σ) fun l => l)
      (startConfig (trees grammar TokenKind.Val Location) sql ()) (inputConfig (graft sql sql')) :=
    ⟨rfl, graft_seen h, rfl, rfl, rfl⟩
  obtain ⟨d₁, hruns₁, hview⟩ := runs_alike (viewImage_respected _ _)
    (show eof sql = eof sql from rfl) hbuilds hstart trivial
  obtain ⟨d', hbuilds', htokens⟩ := builds_of_runs hruns₁ (graft_fst h)
  have hsame := Tree.eval_view (seen_respected (seen_rename σ)) d d₁ hview
    (show (ParserState.start heap result).rename σ = (ParserState.start heap result).rename σ from rfl)
  rw [heval, Option.map_some] at hsame
  obtain ⟨⟨⟨⟩, s₁⟩, heval₁, heq⟩ := Option.map_eq_some_iff.mp hsame.symm
  have hstate : s₁.rename σ = s.rename σ := (Prod.mk.inj heq).2
  have hheap : s₁.heap = s.heap := by
    have hcongr := congrArg ParserState.heap hstate
    exact hcongr
  have hstmts : s₁.result.statements.map (Option.map (SQLStatement.rename σ id)) =
      s.result.statements.map (Option.map (SQLStatement.rename σ id)) :=
    congrArg (fun s => s.result.statements) hstate
  obtain ⟨s', heval', hheap', hstmts'⟩ := eval_of_tokens htokens.symm heval₁
  obtain ⟨hparses', hr'⟩ := parses_valid_iff.mpr ⟨d', s', hbuilds', heval', rfl, rfl⟩
  rw [hheap', hheap] at hparses'
  exact ⟨_, hparses', hr', s₁.result.statements, hstmts.symm, hstmts'.symm⟩

/-- The parser stops at the same token, in the same state. -/
theorem Parses.like_invalid
    (h : (tokens sql).map (Token.rename σ) = (tokens sql').map (Token.rename σ)) {heap heap' : Heap}
    {result r : SQLParserResult} (hparses : Parses heap result sql heap' r)
    (hr : r.isValid = false) : ∃ r', Parses heap result sql' heap' r' ∧ r'.isValid = false ∧
      r'.errorMsg = r.errorMsg := by
  obtain ⟨o, hrun, ho⟩ := hparses
  have hstart : Config.Alike (seen σ id (fun l => l) (ParserState.rename σ))
      (startConfig actions sql (.start heap result))
      { startConfig actions sql (.start heap result) with input := graft sql sql' } :=
    ⟨rfl, graft_seen h, rfl, rfl, rfl⟩
  obtain ⟨o₁, hrun₁, hout₁⟩ := hrun.alike (seen_respected (seen_rename σ))
    (show eof sql = eof sql from rfl) hstart
  have htokens : (graft sql sql').map Prod.fst =
      (Location.zero.tokens (lexemes sql')).map Prod.fst := by
    rw [graft_fst h, tokens_map_fst]
    rfl
  have hforget : Config.Alike forgetImage
      { startConfig actions sql (.start heap result) with input := graft sql sql' }
      (startConfig actions sql' (.start heap result)) :=
    ⟨rfl, input_forget htokens, rfl, rfl, rfl⟩
  obtain ⟨o', hrun', hout'⟩ := hrun₁.alike forgetImage_respected
    (show forgetImage.place (eof sql) = forgetImage.place (eof sql') from rfl) hforget
  cases o with
  | accept stack s =>
    obtain ⟨-, rfl⟩ := Prod.mk.inj (Option.some.inj ho)
    cases hr
  | crash => cases ho
  | reject stack t p s =>
    obtain ⟨rfl, rfl⟩ := Prod.mk.inj (Option.some.inj ho)
    cases o₁ with
    | accept => exact hout₁.elim
    | crash => exact hout₁.elim
    | reject stack₁ t₁ p₁ s₁ =>
      cases o' with
      | accept => exact hout'.elim
      | crash => exact hout'.elim
      | reject stack' t' p' s' =>
        obtain ⟨hstack₁, rfl, -, hstate₁⟩ := hout₁
        obtain ⟨hstack', rfl, -, hheap'⟩ := hout'
        have hheap₁ : s.heap = s₁.heap := by
          have hcongr := congrArg ParserState.heap hstate₁
          exact hcongr
        have hheap : s₁.heap = s'.heap := hheap'
        have htop : topState stack = topState stack' := by
          rw [← (seen σ id (fun l => l) (ParserState.rename σ)).topState_map stack, hstack₁,
            Image.topState_map, ← forgetImage.topState_map stack₁, hstack', Image.topState_map]
        refine ⟨(s'.result.setErrorDetails ⟨t, topState stack'⟩ p'.firstLine
          p'.firstColumn).setIsValid false, ⟨.reject stack' t p' s', hrun', ?_⟩, rfl, ?_⟩
        · rw [conclude, ← hheap, ← hheap₁]
        · rw [htop]
          rfl

theorem Parses.like (h : (tokens sql).map (Token.rename σ) = (tokens sql').map (Token.rename σ))
    {heap heap' : Heap} {result r : SQLParserResult} (hparses : Parses heap result sql heap' r) :
    ∃ r', Parses heap result sql' heap' r' ∧ r'.isValid = r.isValid ∧
      (r.isValid = true → SameUpTo σ r.statements r'.statements) ∧
      (r.isValid = false → r'.errorMsg = r.errorMsg) := by
  cases hr : r.isValid with
  | true =>
    obtain ⟨r', hparses', hr', hstmts⟩ := hparses.like_valid h hr
    exact ⟨r', hparses', hr', fun _ => hstmts, fun hfalse => by cases hfalse⟩
  | false =>
    obtain ⟨r', hparses', hr', hmsg⟩ := hparses.like_invalid h hr
    exact ⟨r', hparses', hr', fun htrue => (by cases htrue), fun _ => hmsg⟩

end

/-- **Layout never changes the parse.** Texts with the same tokens, however they are spaced, broken
into lines or commented, are both accepted, with statements that only differ in the lengths of their
texts, or both fail at the same token and in the same state of the parser. Either way they make as
many nodes. -/
theorem parses_layout {sql sql' : Str} (h : tokens sql = tokens sql') {heap heap' : Heap}
    {result r : SQLParserResult} (hparses : Parses heap result sql heap' r) :
    ∃ r', Parses heap result sql' heap' r' ∧ r'.isValid = r.isValid ∧
      (r.isValid = true → withoutLengths r'.statements = withoutLengths r.statements) ∧
      (r.isValid = false → r'.errorMsg = r.errorMsg) := by
  cases hr : r.isValid with
  | true =>
    obtain ⟨d, s, hbuilds, heval, rfl, rfl⟩ := parses_valid_iff.mp ⟨hparses, hr⟩
    have hfst : (Location.zero.tokens (lexemes sql)).map Prod.fst =
        (tokens sql').map fun t => ⟨t.kind, t.val⟩ := by
      rw [tokens_map_fst, ← h]
      rfl
    obtain ⟨d', hbuilds', htokens⟩ := builds_of_runs hbuilds hfst
    obtain ⟨s', heval', hheap', hstmts⟩ := eval_of_tokens htokens.symm heval
    obtain ⟨hparses', hr'⟩ := parses_valid_iff.mpr ⟨d', s', hbuilds', heval', rfl, rfl⟩
    rw [hheap'] at hparses'
    exact ⟨_, hparses', hr', fun _ => hstmts, fun hfalse => by cases hfalse⟩
  | false =>
    obtain ⟨r', hparses', hr', hmsg⟩ :=
      hparses.like_invalid (congrArg (List.map (Token.rename id)) h) hr
    exact ⟨r', hparses', hr', fun htrue => (by cases htrue), fun _ => hmsg⟩

theorem parses_layout_select : ∃ heap' r, Parses ⟨0, 0, 0, 0⟩ .new "SELECT a FROM t".toList heap' r ∧
    ∃ r', Parses ⟨0, 0, 0, 0⟩ .new "SELECT  a\n\tFROM -- the table\nt".toList heap' r' ∧
      r'.isValid = r.isValid ∧
      (r.isValid = true → withoutLengths r'.statements = withoutLengths r.statements) ∧
      (r.isValid = false → r'.errorMsg = r.errorMsg) := by
  have hparse : (parse 100 ⟨0, 0, 0, 0⟩ .new "SELECT a FROM t".toList).isSome = true := by
    rw [parse_rowwise]
    decide +kernel
  obtain ⟨x, hx⟩ := Option.isSome_iff_exists.mp hparse
  have htokens : tokens "SELECT a FROM t".toList =
      tokens "SELECT  a\n\tFROM -- the table\nt".toList := by
    rw [tokens, tokens, lexemes_rulesAt]
    rfl
  exact ⟨x.1, x.2, .of_parse hx, parses_layout htokens (.of_parse hx)⟩

end Hsql
