import Hsql.Lexer.Complete
import Hsql.Parser.Accept

/-! Locations are exact: the counters say where the scanner is, and a syntax error is reported at
the first character of its token. -/

namespace Hsql
open Bison Flex

/-- Newlines before a place. -/
def line (before : Str) : Nat := before.count '\n'

/-- Characters between the last newline before a place and the place. -/
def column (before : Str) : Nat := (before.reverse.takeWhile (· ≠ '\n')).length

/-- The location behind a lexeme that lies between these two places. -/
def Location.exact (before behind : Str) : Location where
  firstLine := line before
  firstColumn := column before
  lastLine := line behind
  lastColumn := column behind
  totalColumn := behind.length

namespace Location

/-- The counters for the end of what was read. -/
structure At (l : Location) (behind : Str) : Prop where
  lastLine : l.lastLine = line behind
  lastColumn : l.lastColumn = column behind
  totalColumn : l.totalColumn = behind.length

theorem at_count {l : Location} {behind : Str} (h : l.At behind) (c : Char) :
    (l.count c).At (behind ++ [c]) := by
  have hline : line (behind ++ [c]) = line behind + [c].count '\n' := List.count_append
  have hlength : (behind ++ [c]).length = behind.length + 1 := List.length_append
  have hcolumn : column (behind ++ [c]) = if c = '\n' then 0 else column behind + 1 := by
    unfold column
    rw [List.reverse_append, List.reverse_singleton, List.singleton_append, List.takeWhile_cons]
    by_cases hc : c = '\n' <;> simp [hc]
  unfold count
  by_cases hc : c = '\n'
  · rw [if_pos hc]
    constructor
    · rw [hline, ← h.lastLine, hc]
      rfl
    · rw [hcolumn, if_pos hc]
    · rw [hlength, ← h.totalColumn]
  · rw [if_neg hc]
    constructor
    · rw [hline, ← h.lastLine, List.count_singleton, beq_eq_false_iff_ne.mpr hc]
      rfl
    · rw [hcolumn, if_neg hc, ← h.lastColumn]
    · rw [hlength, ← h.totalColumn]

theorem at_foldl {l : Location} {behind : Str} (h : l.At behind) (yytext : Str) :
    (yytext.foldl count l).At (behind ++ yytext) := by
  induction yytext generalizing l behind with
  | nil => rwa [List.append_nil]
  | cons c yytext ih =>
    have hrest := ih (at_count h c)
    rwa [List.append_assoc] at hrest

theorem count_first (l : Location) (c : Char) :
    (l.count c).firstLine = l.firstLine ∧ (l.count c).firstColumn = l.firstColumn := by
  unfold count
  split_ifs <;> exact ⟨rfl, rfl⟩

theorem foldl_first (l : Location) (yytext : Str) :
    (yytext.foldl count l).firstLine = l.firstLine ∧
      (yytext.foldl count l).firstColumn = l.firstColumn := by
  induction yytext generalizing l with
  | nil => exact ⟨rfl, rfl⟩
  | cons c yytext ih =>
    have hfirst := count_first l c
    have hrest := ih (l.count c)
    exact ⟨hrest.1.trans hfirst.1, hrest.2.trans hfirst.2⟩

/-- A match takes the location from one place to the next. -/
theorem advance_eq {l : Location} {before : Str} (h : l.At before) (yytext : Str) :
    l.advance yytext = exact before (before ++ yytext) := by
  have hstart : At { l with firstLine := l.lastLine, firstColumn := l.lastColumn } before :=
    ⟨h.lastLine, h.lastColumn, h.totalColumn⟩
  have hend := at_foldl hstart yytext
  have hfirst := foldl_first { l with firstLine := l.lastLine, firstColumn := l.lastColumn } yytext
  unfold advance exact
  generalize yytext.foldl count { l with firstLine := l.lastLine, firstColumn := l.lastColumn } = r
    at hend hfirst ⊢
  have hline : r.firstLine = line before := hfirst.1.trans h.lastLine
  have hcolumn : r.firstColumn = column before := hfirst.2.trans h.lastColumn
  rw [← hline, ← hcolumn, ← hend.lastLine, ← hend.lastColumn, ← hend.totalColumn]

theorem at_exact (before behind : Str) : (exact before behind).At behind := ⟨rfl, rfl, rfl⟩

theorem at_after (L : List (Lexeme Start Token)) : (zero.after L).At (texts L) := by
  have hrun : ∀ (L : List (Lexeme Start Token)) (l : Location) (before : Str), l.At before →
      (l.after L).At (before ++ texts L) := by
    intro L
    induction L with
    | nil =>
      intro l before h
      rwa [texts_nil, List.append_nil]
    | cons x L ih =>
      intro l before h
      have hx : (l.advance x.text).At (before ++ x.text) := by
        rw [advance_eq h]
        exact at_exact _ _
      have hrest := ih _ _ hx
      rwa [List.append_assoc, ← texts_cons] at hrest
  exact hrun L zero [] ⟨rfl, rfl, rfl⟩

/-- The location when a lexeme has been matched. -/
theorem after_append_singleton (M : List (Lexeme Start Token)) (x : Lexeme Start Token) :
    zero.after (M ++ [x]) = exact (texts M) (texts M ++ x.text) := by
  unfold after
  rw [List.foldl_append]
  exact advance_eq (at_after M) x.text

/-- A token of the text comes from a lexeme, with the location behind it. -/
theorem tokens_eq_append {L : List (Lexeme Start Token)} {l : Location}
    {pre rest : List (Sigma TokenKind.Val × Location)} {t : Sigma TokenKind.Val} {p : Location}
    (h : l.tokens L = pre ++ (t, p) :: rest) : ∃ M x N tok, L = M ++ x :: N ∧
      x.act = .token tok ∧ t = ⟨tok.kind, tok.val⟩ ∧ p = l.after (M ++ [x]) ∧
        rest = p.tokens N := by
  induction L generalizing l pre with
  | nil => exact absurd h.symm (List.append_ne_nil_of_right_ne_nil _ (List.cons_ne_nil _ _))
  | cons x L ih =>
    have hskip (h : (l.advance x.text).tokens L = pre ++ (t, p) :: rest) : ∃ M y N tok,
        x :: L = M ++ y :: N ∧ y.act = .token tok ∧ t = ⟨tok.kind, tok.val⟩ ∧
          p = l.after (M ++ [y]) ∧ rest = p.tokens N := by
      obtain ⟨M, y, N, tok, rfl, hact, ht, hp, hrest⟩ := ih h
      exact ⟨x :: M, y, N, tok, rfl, hact, ht, hp, hrest⟩
    unfold tokens at h
    cases hact : x.act with
    | token tok =>
      rw [hact] at h
      cases pre with
      | nil =>
        obtain ⟨hpair, hrest⟩ := List.cons_eq_cons.mp h
        obtain ⟨rfl, rfl⟩ := Prod.mk.inj hpair
        exact ⟨[], x, L, tok, rfl, hact, rfl, rfl, hrest.symm⟩
      | cons y pre =>
        obtain ⟨-, hrest⟩ := List.cons_eq_cons.mp h
        obtain ⟨M, z, N, tok', rfl, hact', ht, hp, hrest⟩ := ih hrest
        exact ⟨x :: M, z, N, tok', rfl, hact', ht, hp, hrest⟩
    | skip =>
      rw [hact] at h
      exact hskip h
    | BEGIN q =>
      rw [hact] at h
      exact hskip h
    | stop =>
      rw [hact] at h
      exact hskip h

end Location

/-! Errors. -/

/-- A row whose action needs no lookahead is no error. -/
def settled (row : Row grammar) : Bool :=
  !row.acts.isEmpty || match row.default with
    | .error => false
    | _ => true

/-- The states that are entered. -/
def entered (q : Nat) : Bool := decide (q < 502) && q != 85

theorem settled_of_entered {q : Nat} (h : entered q = true) : settled (automaton.row q) = true := by
  have hrow := row_all (fun q row => !entered q || settled row) (fun q hq => ?_)
    (by decide +kernel) q
  · rw [h] at hrow
    exact hrow
  · have hlength : Tables.states.length = 502 := by
      decide +kernel
    have hout : entered q = false := by
      unfold entered
      rw [decide_eq_false (not_lt.mpr (hlength ▸ hq))]
      rfl
    rw [hout]
    rfl

theorem entered_shift {q p : Nat} {t : Option TokenKind}
    (h : (automaton.row q).act t = .shift p) : entered p = true :=
  shift_all entered (by decide +kernel) h

theorem entered_goto {q p : Nat} {n : NT} (h : automaton.goto q n = some p) : entered p = true := by
  have hall : ∀ n, ∀ x ∈ Tables.gotos n, entered x.2 = true := by
    intro n
    cases n <;> decide +kernel
  exact hall n _ (goto_mem h)

theorem settled_linked {V : NT → Type} {st : List (Entry TokenKind.Val V)}
    (h : Linked automaton st) : settled (automaton.row (topState st)) = true := by
  cases st with
  | nil => exact settled_of_entered rfl
  | cons e st =>
    cases e with
    | token q t a => exact settled_of_entered (entered_shift h.1)
    | value q n v => exact settled_of_entered (entered_goto h.1)

/-- The parser stops with a syntax error in front of these tokens of the text. -/
def FailsAt (heap : Heap) (result : SQLParserResult) (sql : Str) (rest : List Token) : Prop :=
  ∃ c stack t p s, (startConfig actions sql (.start heap result)).Steps automaton (eof sql) c ∧
    c.step automaton (eof sql) = .inr (.reject stack t p s) ∧
      c.input.map Prod.fst = rest.map fun t => ⟨t.kind, t.val⟩

theorem start_reads (M : Semantics grammar TokenKind.Val Location) (sql : Str) (s : M.S) :
    (startConfig M sql s).Reads (Location.zero.tokens (lexemes sql)) := by
  refine ⟨[], rfl, fun q t a rest h => ?_⟩
  cases h

theorem start_looks (M : Semantics grammar TokenKind.Val Location) (sql : Str) (s : M.S) :
    (startConfig M sql s).Looks (eof sql) := by
  intro h
  cases h

/-- A text that is not valid has a syntax error. -/
theorem exists_failsAt {heap heap' : Heap} {result result' : SQLParserResult} {sql : Str}
    (h : Parses heap result sql heap' result') (hvalid : result'.isValid = false) :
    ∃ rest, FailsAt heap result sql rest := by
  obtain ⟨o, hrun, ho⟩ := h
  obtain ⟨c, hsteps, hstep⟩ := Config.Runs.exists_steps hrun
  have hreads := hsteps.inv (I := Config.Reads (Location.zero.tokens (lexemes sql)))
    Config.step_reads (start_reads _ _ _)
  obtain ⟨pre, hpre, -⟩ := hreads
  cases o with
  | accept stack s =>
    cases ho
    cases hvalid
  | crash => cases ho
  | reject stack t p s =>
    have hfst := congrArg (List.map Prod.fst) hpre
    rw [tokens_map_fst, List.map_append] at hfst
    obtain ⟨toks, rest, -, -, hrest⟩ := List.map_eq_append_iff.mp hfst
    exact ⟨rest, c, stack, t, p, s, hsteps, hstep, hrest.symm⟩

/-- A syntax error is reported at the first character of the token that is not shifted. -/
theorem error_at {heap heap' : Heap} {result result' : SQLParserResult} {sql : Str} {tok : Token}
    {rest : List Token} (h : Parses heap result sql heap' result')
    (hfails : FailsAt heap result sql (tok :: rest)) :
    ∃ M x N, lexemes sql = M ++ x :: N ∧ x.act = .token tok ∧ Flex.tokens N = rest ∧
      result'.errorLine = some (line (texts M) : Int) ∧
        result'.errorColumn = some (column (texts M) : Int) := by
  obtain ⟨c, stack, t, p, s, hsteps, hstep, hrest⟩ := hfails
  obtain ⟨o, hrun, ho⟩ := h
  obtain rfl := Config.Runs.unique hrun (hsteps.runs (.stop hstep))
  obtain ⟨hlink, hlooks, pre, hpre, -⟩ := hsteps.inv (I := fun c => Linked automaton c.stack ∧
      c.Looks (eof sql) ∧ c.Reads (Location.zero.tokens (lexemes sql)))
    (fun hc hstep => ⟨Config.step_linked hc.1 hstep, Config.step_looks hc.2.1 hstep,
      Config.step_reads hc.2.2 hstep⟩)
    ⟨trivial, start_looks _ _ _, start_reads _ _ _⟩
  obtain ⟨hact, -, -, hpos, -⟩ := Config.step_reject hstep
  -- a state that is entered reads its lookahead before it finds an error
  have hacts : (automaton.row (topState c.stack)).acts.isEmpty = false := by
    have hsettled := settled_linked hlink
    by_contra hempty
    rw [Bool.not_eq_false] at hempty
    have hdefault : (automaton.row (topState c.stack)).default = .error := by
      rw [← hact]
      unfold Config.action Row.act
      rw [List.isEmpty_iff.mp hempty]
      rfl
    unfold settled at hsettled
    rw [hempty, hdefault] at hsettled
    cases hsettled
  cases hin : c.input with
  | nil =>
    rw [hin] at hrest
    cases hrest
  | cons y rest' =>
    obtain ⟨u, q⟩ := y
    rw [hin] at hpre hrest
    obtain ⟨M, x, N, tok', hlex, hx, rfl, rfl, rfl⟩ := Location.tokens_eq_append hpre
    have hahead : (c.ahead automaton (eof sql)).pos = Location.zero.after (M ++ [x]) := by
      unfold Config.ahead
      rw [hacts]
      have hread := Config.looks_read hlooks
      rw [hin] at hread
      exact hread
    obtain ⟨htok, htoks⟩ := List.cons_eq_cons.mp hrest
    obtain rfl : tok' = tok := by
      cases tok'
      cases tok
      cases htok
      rfl
    refine ⟨M, x, N, hlex, hx, ?_, ?_, ?_⟩
    · rw [tokens_map_fst] at htoks
      refine List.map_injective_iff.mpr ?_ htoks
      intro a b hab
      cases a
      cases b
      cases hab
      rfl
    · rw [← hpos, hahead, Location.after_append_singleton] at ho
      cases ho
      rfl
    · rw [← hpos, hahead, Location.after_append_singleton] at ho
      cases ho
      rfl

/-- What the scanner has matched is the text's beginning. -/
theorem texts_lexemes_isPrefix (sql : Str) : texts (lexemes sql) <+: sql := by
  obtain ⟨L, q, s, hL, hend⟩ := exists_lexes rules_progress .INITIAL (cStr sql)
  have hcut : cStr sql <+: sql := List.takeWhile_prefix _
  refine List.IsPrefix.trans ?_ hcut
  rw [lexemes_of_lexes hL, hL.text_eq, texts_append]
  rcases hend with rfl | ⟨n, r, hm, hn, hstop⟩
  · rw [scan_nil]
    exact List.prefix_rfl
  · rw [scan_eq hm hn, hstop]
    show texts L ++ (s.take n ++ []) <+: texts L ++ s
    rw [List.append_nil]
    exact (List.prefix_append_right_inj _).mpr (List.take_prefix n s)

/-- Locations are exact behind every lexeme, and so is the place of every syntax error at a
token. -/
theorem locations_exact (sql : Str) :
    (∀ M x N, lexemes sql = M ++ x :: N → texts (M ++ [x]) <+: sql ∧
      Location.zero.after (M ++ [x]) = .exact (texts M) (texts (M ++ [x]))) ∧
    ∀ heap result heap' result', Parses heap result sql heap' result' → result'.isValid = false →
      ∃ rest, FailsAt heap result sql rest ∧ ∀ tok rest', rest = tok :: rest' → ∃ M x N,
        lexemes sql = M ++ x :: N ∧ x.act = .token tok ∧ Flex.tokens N = rest' ∧
          result'.errorLine = some (line (texts M) : Int) ∧
            result'.errorColumn = some (column (texts M) : Int) := by
  refine ⟨fun M x N hlex => ⟨?_, ?_⟩, fun heap result heap' result' hparse hvalid => ?_⟩
  · refine List.IsPrefix.trans ?_ (texts_lexemes_isPrefix sql)
    have hsplit : M ++ x :: N = (M ++ [x]) ++ N := List.append_cons M x N
    rw [hlex, hsplit, texts_append (M ++ [x]) N]
    exact List.prefix_append _ _
  · rw [Location.after_append_singleton, texts_append, texts_cons, texts_nil, List.append_nil]
  · obtain ⟨rest, hfails⟩ := exists_failsAt hparse hvalid
    refine ⟨rest, hfails, ?_⟩
    rintro tok rest' rfl
    exact error_at hparse hfails

/-- The error of this text is at its last token, in column 1 of line 2. -/
example : (parse 100 ⟨0, 0, 0, 0⟩ .new "SELECT 'x\ny' FROM t\n )".toList).map
    (fun x => (x.2.errorLine, x.2.errorColumn)) = some (some 2, some 1) := by
  rw [parse_rowwise]
  decide +kernel

end Hsql
