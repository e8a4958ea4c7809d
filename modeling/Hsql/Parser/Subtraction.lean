import Hsql.Lexer.Minus
import Hsql.Parser.Literals

/-! Subtractions of a number. The scanner takes a sign in front of a digit for a part of the number,
and the parser never gets a number directly behind an operand. -/

namespace Hsql
open Bison Flex Lexer

/-- The tokens that an operand can end with: a name, a number or a parenthesis. -/
def operandEnds : List TokenKind := [.IDENTIFIER, .INTVAL, .FLOATVAL, .ch ')']

def numbers : List TokenKind := [.INTVAL, .FLOATVAL]

/-- Symbols that no reduction between the end of an operand and a number leads to. -/
def apart : List NT := [.optUnique, .optNotExists, .optVirtual, .optTemporary, .foreignKeyAction,
  .columnType, .triggerType, .triggerEvent, .optExists, .optOrReplace, .setOperator, .setType,
  .optAll, .optDistinct, .caseExpr, .nullLiteral, .tableRefCommalist]

/-- States behind the end of an operand, as far as reductions in front of a number lead. -/
def BehindOperand (q : Nat) : Prop :=
  (∃ t ∈ operandEnds, ∃ p, (automaton.row p).act (some t) = .shift q) ∨
    ∃ n, n ∉ apart ∧ ∃ p, automaton.goto p n = some q

/-- The state takes no number, and a reduction in front of one does not lead apart. -/
def refuses (q : Nat) : Bool := numbers.all fun u =>
  match (automaton.row q).act (some u) with
  | .shift _ => false
  | @Act.reduce _ _ _ n _ => decide (n ∉ apart)
  | _ => true

theorem refuses_shift {t : TokenKind} (ht : t ∈ operandEnds) {q p : Nat}
    (h : (automaton.row q).act (some t) = .shift p) : refuses p = true := by
  have hrow := row_all (fun _ row => shiftsOn (fun _ => false) row.default &&
    row.acts.all fun x => !operandEnds.any (fun t => x.1 == some t) || shiftsOn refuses x.2) (fun _ _ => rfl)
    (by decide +kernel) q
  rw [Bool.and_eq_true, List.all_eq_true] at hrow
  rcases act_cases (automaton.row q) (some t) with hmem | hdefault
  · have hentry := hrow.2 _ hmem
    rw [h] at hentry
    have hany : operandEnds.any (fun t' => some t == some t') = true :=
      List.any_eq_true.mpr ⟨t, ht, beq_self_eq_true _⟩
    rw [hany] at hentry
    exact hentry
  · rw [hdefault] at h
    rw [h] at hrow
    cases hrow.1

theorem refuses_goto {n : NT} (hn : n ∉ apart) : ∀ x ∈ Tables.gotos n, refuses x.2 = true := by
  cases n <;> first | exact absurd (by decide) hn | decide +kernel

theorem BehindOperand.refuses {q : Nat} (h : BehindOperand q) : refuses q = true := by
  rcases h with ⟨t, ht, p, hshift⟩ | ⟨n, hn, p, hgoto⟩
  · exact refuses_shift ht hshift
  · exact refuses_goto hn _ (goto_mem hgoto)

theorem barred {u : TokenKind} (hu : u ∈ numbers) : Barred automaton u BehindOperand := by
  constructor
  · intro q p hq hact
    have hrefuses := List.all_eq_true.mp hq.refuses u hu
    rw [hact] at hrefuses
    cases hrefuses
  · intro q q' p n r hq hact hgoto
    have hrefuses := List.all_eq_true.mp hq.refuses u hu
    rw [hact] at hrefuses
    exact Or.inr ⟨n, of_decide_eq_true hrefuses, q', hgoto⟩

/-- No number stands directly behind the end of an operand. -/
theorem not_valid_of_number {sql : Str} {t u : TokenKind} (ht : t ∈ operandEnds) (hu : u ∈ numbers)
    {pre post : List TokenKind} (h : codes sql = pre ++ t :: u :: post) : ¬ Valid sql := by
  intro hvalid
  obtain ⟨d, hbuilds, -⟩ := (valid_iff sql).mp hvalid
  rw [← input_codes] at h
  exact Config.Runs.not_adjacent (barred hu) (fun hshift => Or.inl ⟨t, ht, _, hshift⟩)
    (fun hact => absurd (act_accept hact).2 (Option.some_ne_none _)) hbuilds h

/-! Subtractions with and without spaces. -/

/-- The lexemes of a name, of a number, or of a text in parentheses. -/
inductive OperandLexemes : List (Lexeme Start Token) → Prop where
  | identifier {w name : Str} : OperandLexemes [⟨w, .token ⟨.IDENTIFIER, name⟩⟩]
  | number {w : Str} {t : Token} (ht : t.Numeric) : OperandLexemes [⟨w, .token t⟩]
  | parens (L : List (Lexeme Start Token)) :
      OperandLexemes (⟨['('], .token (.ch '(')⟩ :: L ++ [⟨[')'], .token (.ch ')')⟩])

/-- Between these texts the scanner reads `e` as an operand. -/
def ReadsOperand (pre e post : Str) : Prop := '\x00' ∉ pre ++ e ∧
  ∃ L M, Lexes rules .INITIAL (pre ++ (e ++ cStr post)) L .INITIAL (e ++ cStr post) ∧
    Lexes rules .INITIAL (e ++ cStr post) M .INITIAL (cStr post) ∧ OperandLexemes M

/-- The difference may as well be written without spaces: if the text is accepted with them, then
it is without, with the same statements but for their lengths. -/
def SpacesOptional (pre e d post : Str) : Prop := ∀ heap heap' r,
  Parses heap .new (pre ++ e ++ " - ".toList ++ d ++ post) heap' r → r.isValid = true →
    ∃ heap'' r', Parses heap .new (pre ++ e ++ "-".toList ++ d ++ post) heap'' r' ∧
      r'.isValid = true ∧ r'.statements.map (Option.map (SQLStatement.rename id fun _ => none)) =
        r.statements.map (Option.map (SQLStatement.rename id fun _ => none))

theorem OperandLexemes.last {M : List (Lexeme Start Token)} (h : OperandLexemes M) :
    ∃ N l t, M = N ++ [l] ∧ l.act = .token t ∧ t.kind ∈ operandEnds := by
  cases h with
  | identifier => exact ⟨[], _, _, rfl, rfl, List.mem_cons_self⟩
  | @number w t ht =>
    refine ⟨[], _, t, rfl, rfl, ?_⟩
    rcases ht with ht | ht <;> rw [ht] <;> decide
  | parens L => exact ⟨_ :: L, _, _, rfl, rfl, by decide⟩

theorem not_valid_unspaced {pre e d post : Str} (hd : Mantissa d)
    (h : ReadsOperand pre e (" - ".toList ++ d ++ post)) :
    ¬ Valid (pre ++ e ++ "-".toList ++ d ++ post) := by
  obtain ⟨hnul, L, M, hL, hM, hoperand⟩ := h
  obtain ⟨N, l, t, rfl, hact, ht⟩ := hoperand.last
  -- the number opens with a digit, so the scanner takes the sign for a part of it
  obtain ⟨c, v, rfl, hc⟩ := hd.head
  have hcut (w : Str) (hw : '\x00' ∉ w) : cStr (w ++ (c :: v) ++ post) = w ++ c :: cStr (v ++ post) := by
    have hc' : c ≠ '\x00' := by
      rintro rfl
      exact absurd hc (by decide)
    rw [List.append_assoc, cStr_append hw]
    exact congrArg (w ++ ·) (List.takeWhile_cons_of_pos (by simpa using hc'))
  rw [hcut _ (by decide)] at hL hM
  have hrun := hL.trans hM
  rw [← List.append_assoc L] at hrun
  have htext : texts (L ++ N ++ [l]) = pre ++ e := by
    have heq := hrun.text_eq
    rw [← List.append_assoc pre] at heq
    exact (List.append_cancel_right heq).symm
  have hminus : Lexes rules .INITIAL (pre ++ e ++ '-' :: c :: cStr (v ++ post)) (L ++ N ++ [l])
      .INITIAL ('-' :: c :: cStr (v ++ post)) := by
    have hsign : t.kind ≠ .ch '-' := by
      intro heq
      rw [heq] at ht
      exact absurd ht (by decide)
    have hkeep := lexes_minus hrun hact hsign
    rw [htext] at hkeep
    exact hkeep
  obtain ⟨n, r, u, hm, hn, hnumber, hu⟩ := munch_minus hc (cStr (v ++ post))
  have hone := Lexes.single .INITIAL hm hn (by rw [hnumber]; rfl)
  have hcstr : cStr (pre ++ e ++ "-".toList ++ c :: v ++ post) =
      pre ++ e ++ '-' :: c :: cStr (v ++ post) := by
    rw [hcut _ (by simpa using hnul), List.append_assoc]
    rfl
  have hall := hminus.trans hone
  rw [← hcstr] at hall
  obtain ⟨rest, hcodes⟩ := codes_prefix hall
  rw [hnumber] at hcodes
  have hnum : u.kind ∈ numbers := by
    rcases hu with hu | hu <;> rw [hu] <;> decide
  -- so a number stands directly behind the operand
  have hadjacent : codes (pre ++ e ++ "-".toList ++ c :: v ++ post) =
      (Flex.tokens (L ++ N)).map Token.kind ++ t.kind :: u.kind :: rest := by
    rw [← hcodes]
    simp only [Flex.tokens, List.filterMap_append, List.map_append, List.append_assoc]
    simp [hact, Flex.Action.token?]
  exact not_valid_of_number ht hnum hadjacent

/-- **A difference always needs its spaces.** Without them the scanner takes the sign for a part of
the number, and no accepted text has a number directly behind an operand. -/
theorem not_spacesOptional {pre e d post : Str} (hd : Mantissa d)
    (h : ReadsOperand pre e (" - ".toList ++ d ++ post))
    (hvalid : Valid (pre ++ e ++ " - ".toList ++ d ++ post)) : ¬ SpacesOptional pre e d post := by
  intro hspaces
  obtain ⟨heap', r, hparses, hr⟩ := hvalid.exists_parses ⟨0, 0, 0, 0⟩ .new
  obtain ⟨heap'', r', hparses', hr', -⟩ := hspaces _ _ _ hparses hr
  exact not_valid_unspaced hd h ⟨_, _, _, _, hparses', hr'⟩

theorem mantissa_one : Mantissa ['1'] :=
  ⟨['1'], List.cons_ne_nil _ _, List.forall_mem_singleton.mpr (by decide), Or.inl rfl⟩

theorem readsOperand_select :
    ReadsOperand "SELECT ".toList ['a'] (" - ".toList ++ ['1'] ++ " FROM t".toList) := by
  have hname : Spelled ['a'] ⟨.IDENTIFIER, ['a']⟩ :=
    .identifier (by decide) (List.forall_mem_nil _)
      (Keyword.forall_text (P := fun w => lower ['a'] ≠ lower w) (by decide +kernel))
  have hsplit : cStr (" - ".toList ++ ['1'] ++ " FROM t".toList) = ' ' :: "- 1 FROM t".toList := by
    decide
  rw [ReadsOperand, hsplit]
  obtain ⟨L, hL, -⟩ := lexes_select (s := ['a'] ++ ' ' :: "- 1 FROM t".toList) fun c hc => by
    obtain rfl := Option.mem_some_iff.mp hc
    decide
  have hM : Lexes rules .INITIAL (['a'] ++ ' ' :: "- 1 FROM t".toList)
      [⟨['a'], .token ⟨.IDENTIFIER, ['a']⟩⟩] .INITIAL (' ' :: "- 1 FROM t".toList) := by
    refine hname.lexes fun c hc => ?_
    obtain rfl := Option.mem_some_iff.mp hc
    decide
  exact ⟨by decide, L, _, hL, hM, .identifier⟩

theorem valid_spaced : Valid ("SELECT ".toList ++ ['a'] ++ " - ".toList ++ ['1'] ++ " FROM t".toList) := by
  have hrun : ((parse 100 ⟨0, 0, 0, 0⟩ .new
      ("SELECT ".toList ++ ['a'] ++ " - ".toList ++ ['1'] ++ " FROM t".toList)).any
        fun x => x.2.isValid) = true := by
    rw [parse_rowwise]
    decide +kernel
  obtain ⟨x, hx, hr⟩ := (Option.any_eq_true _ _).mp hrun
  exact ⟨_, _, _, _, .of_parse hx, hr⟩

theorem not_spacesOptional_select :
    ¬ SpacesOptional "SELECT ".toList ['a'] ['1'] " FROM t".toList :=
  not_spacesOptional mantissa_one readsOperand_select valid_spaced

/-- In `SELECT a-1 FROM t` there is no difference. -/
theorem spaces_needed : ¬ ∀ pre e d post : Str, Mantissa d →
    ReadsOperand pre e (" - ".toList ++ d ++ post) →
      Valid (pre ++ e ++ " - ".toList ++ d ++ post) → SpacesOptional pre e d post := by
  intro h
  have hspaces := h _ _ _ _ mantissa_one readsOperand_select valid_spaced
  obtain ⟨heap', r, hparses, hr⟩ := valid_spaced.exists_parses ⟨0, 0, 0, 0⟩ .new
  obtain ⟨heap'', r', hparses', hr', -⟩ := hspaces _ _ _ hparses hr
  exact not_valid_unspaced mantissa_one readsOperand_select ⟨_, _, _, _, hparses', hr'⟩

end Hsql
