import Hsql.Lexer.Complete
import Hsql.Parser.Accept
import Hsql.Parser.Rename

/-! Where the tokens are only shows in the lengths of statements and in the numbers of `?` nodes:
whether a text is valid depends on its tokens alone. So a character that no rule matches cuts the
text off unnoticed. -/

namespace Hsql
open Bison Flex Vals Lexer

section
variable {n : NT} {rhs : List Sym}

theorem seen_effect_heap {h : Vals TokenKind.Val NT.Val rhs → Location → ParserState →
      Option (n.Val × ParserState)}
    (a : Vals TokenKind.Val NT.Val rhs → Heap → Option (n.Val × Heap))
    (heq : ∀ vs l s, (h vs l s).map (fun x => (n.rename id (fun _ => none) x.1, x.2.heap)) =
      a (renameVals id (fun _ => none) rhs vs) s.heap) :
    (effect rhs h).Seen id (fun _ => none) (fun _ => ()) ParserState.heap :=
  ⟨fun vs _ z => a vs z, heq⟩

end

section
attribute [local simp] NT.rename Member.rename renameVals TokenKind.rename
  SelectStatement.rename OrderDescription.rename LimitDescription.rename forall_terminal
  forall_nonterminal forall_nil

/-- Up to lengths, the actions only look at the heap. -/
theorem seen_heap (n : NT) :
    ∀ p ∈ productions n, p.Seen id (fun _ => none) (fun _ => ()) ParserState.heap := by
  by_cases hn : n ∈ NT.effectful
  · simp only [NT.effectful, List.mem_cons, List.not_mem_nil, or_false] at hn
    rcases hn with rfl | rfl | rfl | rfl | rfl | rfl
    · simp only [productions, inputRules, List.forall_mem_cons]
      refine ⟨seen_effect_heap (fun vs h => vs.1.map fun _ => ((), h)) ?_, List.forall_mem_nil _⟩
      rintro ⟨l, ⟨⟩⟩ _ s
      cases l <;> rfl
    · simp only [productions, statementListRules, List.forall_mem_cons]
      refine ⟨seen_effect_heap (fun vs h => vs.1.map fun x => (vector (some x), h)) ?_,
        seen_effect_heap (fun vs h =>
          vs.2.2.1.bind fun x => (pushBack vs.1 (some x)).map fun l => (l, h)) ?_, List.forall_mem_nil _⟩
      · rintro ⟨x, ⟨⟩⟩ yylloc s
        cases x with
        | none => rfl
        | some x => simp [ParserState.measure, vector, SQLStatement.rename_eq]
      · rintro ⟨l, ⟨⟩, x, ⟨⟩⟩ yylloc s
        cases x with
        | none => rfl
        | some x => cases l <;> simp [ParserState.measure, pushBack, SQLStatement.rename_eq]
    · simp only [productions, selectClauseRules, List.forall_mem_cons]
      refine ⟨seen_effect_heap (fun vs h =>
        some (some { SelectStatement.new h.selects with
          selectDistinct := vs.2.1, selectList := vs.2.2.1, fromTable := vs.2.2.2.1,
          whereClause := vs.2.2.2.2.1, groupBy := vs.2.2.2.2.2.1 },
          { h with selects := h.selects + 1 })) ?_, List.forall_mem_nil _⟩
      simp [ParserState.newSelect, SelectStatement.new]
    · simp only [productions, orderDescRules, List.forall_mem_cons]
      refine ⟨seen_effect_heap (fun vs h =>
          some (some ⟨vs.2.2.2.1, vs.1, some vs.2.2.1, h.orders⟩, { h with orders := h.orders + 1 })) ?_,
        seen_effect_heap (fun vs h =>
          some (some ⟨vs.2.1, vs.1, none, h.orders⟩, { h with orders := h.orders + 1 })) ?_,
        List.forall_mem_nil _⟩ <;>
        simp [ParserState.newOrder]
    · simp only [productions, optLimitRules, List.forall_mem_cons]
      refine ⟨seen_effect_heap (fun vs h =>
          some (some ⟨vs.2.1, none, h.limits⟩, { h with limits := h.limits + 1 })) ?_,
        seen_effect_heap (fun vs h =>
          some (some ⟨vs.2.1, vs.2.2.2.1, h.limits⟩, { h with limits := h.limits + 1 })) ?_,
        seen_effect_heap (fun vs h =>
          some (some ⟨vs.2.2.2.1, vs.2.1, h.limits⟩, { h with limits := h.limits + 1 })) ?_,
        (natural_constant _).seen, List.forall_mem_nil _⟩ <;>
        simp [ParserState.newLimit]
    · simp only [productions, paramExprRules, List.forall_mem_cons]
      refine ⟨seen_effect_heap (fun _ h =>
          some (some (.makeParameter h.params), { h with params := h.params + 1 })) ?_,
        (natural_rule ?_).seen, List.forall_mem_nil _⟩
      · simp [ParserState.newParam, Expr.makeParameter, Expr.new, Expr.rename]
      · simp [Expr.makeNamedParameter, Expr.new, Expr.rename]
  · intro p hp
    exact (natural rfl hn p hp).seen

end

/-- What is left of a run when its places are forgotten. -/
abbrev forgetImage : Image actions := seen id (fun _ => none) (fun _ => ()) ParserState.heap

theorem forgetImage_respected : forgetImage.Respected := seen_respected seen_heap

/-- Inputs with the same tokens look the same. -/
theorem input_forget {xs ys : List (Sigma TokenKind.Val × Location)}
    (h : xs.map Prod.fst = ys.map Prod.fst) :
    xs.map forgetImage.input = ys.map forgetImage.input := by
  have hinput (xs : List (Sigma TokenKind.Val × Location)) : xs.map forgetImage.input =
      (xs.map Prod.fst).map fun t => (⟨t.1, t.1.rename id t.2⟩, ()) := by
    rw [List.map_map]
    rfl
  rw [hinput, hinput, h]

theorem startConfig_forget {sql sql' : Str} (h : tokens sql = tokens sql') (s : ParserState) :
    Config.Alike forgetImage (startConfig actions sql s) (startConfig actions sql' s) := by
  refine ⟨rfl, input_forget ?_, rfl, rfl, rfl⟩
  show ((Location.zero.tokens (lexemes sql)).map Prod.fst) =
    (Location.zero.tokens (lexemes sql')).map Prod.fst
  rw [tokens_map_fst, tokens_map_fst]
  exact congrArg (List.map fun t : Token => (⟨t.kind, t.val⟩ : Sigma TokenKind.Val)) h

/-- Parsing the text can come out valid. -/
def Valid (sql : Str) : Prop :=
  ∃ heap result heap' r, Parses heap result sql heap' r ∧ r.isValid = true

theorem Valid.of_tokens {sql sql' : Str} (h : tokens sql = tokens sql') (hvalid : Valid sql) :
    Valid sql' := by
  obtain ⟨heap, result, heap', r, ⟨o, hrun, ho⟩, hr⟩ := hvalid
  obtain ⟨o', hrun', hout⟩ := hrun.alike forgetImage_respected
    (show forgetImage.place (eof sql) = forgetImage.place (eof sql') from rfl)
    (startConfig_forget h (.start heap result))
  cases o with
  | accept stack s =>
    cases o' with
    | accept stack' s' =>
      exact ⟨heap, result, s'.heap, s'.result.setIsValid true, ⟨_, hrun', rfl⟩, rfl⟩
    | reject => exact hout.elim
    | crash => exact hout.elim
  | reject stack t p s =>
    obtain ⟨-, rfl⟩ := Prod.mk.inj (Option.some.inj ho)
    cases hr
  | crash => cases ho

/-! Where the scanner stops. -/

/-- The text in front of the first character that only the rule for unknown characters matches, or
that ends the string. -/
def consumed (sql : Str) : Str := texts ((lexemes sql).filter fun l => l.act ≠ .stop)

/-- The run of the scanner up to there. -/
theorem lexes_consumed (sql : Str) : ∃ L q s, Lexes rules .INITIAL (cStr sql) L q s ∧
    consumed sql = texts L ∧ tokens sql = Flex.tokens L := by
  obtain ⟨L, q, s, hL, hend⟩ := exists_lexes rules_progress .INITIAL (cStr sql)
  have hlex := lexemes_of_lexes hL
  have hgoesOn : ∀ l ∈ L, decide (l.act ≠ .stop) = true := by
    intro l hl
    have hnext := hL.next_ne_none l hl .INITIAL
    refine decide_eq_true fun hact => hnext ?_
    rw [hact]
    rfl
  have hstops : ∀ l ∈ scan rules 0 q s, l.act = .stop := by
    rcases hend with rfl | ⟨n, r, hm, hn, hstop⟩
    · exact List.forall_mem_nil _
    · rw [scan_eq hm hn, hstop]
      refine List.forall_mem_singleton.mpr ?_
      cases hact : r.action (s.take n) <;> rw [hact] at hstop <;> first | rfl | cases hstop
  have hnone : (scan rules 0 q s).filter (fun l => l.act ≠ .stop) = [] := by
    refine List.filter_eq_nil_iff.mpr fun l hl => ?_
    simp [hstops l hl]
  have hempty : Flex.tokens (scan rules 0 q s) = [] := by
    refine List.filterMap_eq_nil_iff.mpr fun l hl => ?_
    rw [hstops l hl]
    rfl
  refine ⟨L, q, s, hL, ?_, ?_⟩
  · rw [consumed, hlex, List.filter_append, hnone, List.append_nil, List.filter_eq_self.mpr hgoesOn]
  · rw [tokens, hlex, Flex.tokens_append, hempty, List.append_nil]

theorem tokens_consumed (sql : Str) : tokens (consumed sql) = tokens sql := by
  obtain ⟨L, q, s, hL, hconsumed, htokens⟩ := lexes_consumed sql
  have hnul : cStr (texts L) = texts L := by
    refine (cStr_eq_self_iff _).mpr fun hmem => notMem_cStr sql ?_
    rw [hL.text_eq]
    exact List.mem_append_left _ hmem
  have hrun : Lexes rules .INITIAL (cStr (texts L)) L q [] := by
    rw [hnul]
    exact hL.truncate
  rw [hconsumed, htokens, tokens, lexemes_of_lexes hrun, scan_nil, List.append_nil]

/-- **A text is cut off unnoticed exactly where the part in front of the cut is a text of its own.**
The scanner's rule for unknown characters answers like the end of the input. -/
theorem valid_complete_iff (sql : Str) :
    (∀ heap result heap' r, Parses heap result sql heap' r → r.isValid = true → Complete sql) ↔
      Complete sql ∨ ¬ Valid (consumed sql) := by
  constructor
  · intro h
    by_contra hcon
    rw [not_or, not_not] at hcon
    obtain ⟨hcomplete, hvalid⟩ := hcon
    obtain ⟨heap, result, heap', r, hparses, hr⟩ := hvalid.of_tokens (tokens_consumed sql)
    exact hcomplete (h heap result heap' r hparses hr)
  · rintro (hcomplete | hinvalid) heap result heap' r hparses hr
    · exact hcomplete
    · have hvalid : Valid sql := ⟨heap, result, heap', r, hparses, hr⟩
      exact absurd (hvalid.of_tokens (tokens_consumed sql).symm) hinvalid

/-- `$` and what follows it are not seen. -/
theorem valid_complete_dollar : ¬ ∀ sql heap result heap' r,
    Parses heap result sql heap' r → r.isValid = true → Complete sql := by
  intro h
  have hparse : (parse 100 ⟨0, 0, 0, 0⟩ .new "SELECT * FROM t $ x".toList).any
      (fun x => x.2.isValid) = true := by
    rw [parse_rowwise]
    decide +kernel
  obtain ⟨x, hx, hvalid⟩ := (Option.any_eq_true _ _).mp hparse
  have hcomplete := h _ _ _ _ _ (.of_parse hx) hvalid
  rw [complete_rulesAt] at hcomplete
  exact absurd hcomplete (by decide +kernel)

end Hsql
