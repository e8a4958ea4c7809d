import Hsql.Lexer.Numbers
import Hsql.Parser.Kinds

/-! Numeric literals in a query. The tail of a literal that the scanner takes for a word of its own
is an alias to the parser. -/

namespace Hsql
open Bison Flex Lexer

/-- The literal is one token. -/
def OneNumber (w : Str) : Prop := ∃ t : Token, tokens w = [t] ∧ t.Numeric

/-- No query that begins with the literal is accepted. -/
def Rejected (w : Str) : Prop := ∀ Q : Str, (∀ c ∈ Q.head?, blank.mem c = true) →
  ¬ Valid ("SELECT ".toList ++ w ++ Q)

theorem lexes_select {s : Str} (hs : ∀ c ∈ s.head?, blank.mem c = false) :
    ∃ L, Lexes rules .INITIAL ("SELECT ".toList ++ s) L .INITIAL s ∧
      Flex.tokens L = [.kw .SELECT] := by
  have hword : Lexes rules .INITIAL ("SELECT".toList ++ ' ' :: s)
      [⟨"SELECT".toList, .token (.kw .SELECT)⟩] .INITIAL (' ' :: s) := by
    refine (Spelled.keyword (k := .SELECT) rfl).lexes fun c hc => ?_
    obtain rfl := Option.mem_some_iff.mp hc
    decide
  obtain ⟨G, hG, hgap⟩ := lexes_blank (u := [' ']) (List.forall_mem_singleton.mpr (by decide)) hs
  refine ⟨_, hword.trans hG, ?_⟩
  rw [Flex.tokens_append, hgap]
  rfl

theorem oneNumber_of_mantissa {m : Str} (hm : Mantissa m) : OneNumber m := by
  obtain ⟨t, hspelled, ht⟩ := hm.spelled
  have hnul : '\x00' ∉ m := by
    intro h
    rcases hm.chars _ h with h | h
    · exact absurd h (by decide)
    · exact absurd h (by decide)
  let x : Written := ⟨[], m, t, List.forall_mem_nil _, hspelled⟩
  have htokens : tokens ([x].flatMap Written.text ++ []) = [x].map Written.token :=
    Written.tokens_eq (by simp [Written.Separated]) (List.forall_mem_nil _)
      (List.forall_mem_singleton.mpr hnul)
  rw [List.append_nil, List.flatMap_singleton] at htokens
  exact ⟨t, htokens, ht⟩

/-- The tail of a literal that is a word: an exponent or hexadecimal digits. -/
structure Tail (c : Char) (v : Str) : Prop where
  head : alpha.mem c = true
  word : ∀ d ∈ v, wordChar.mem d = true
  not_keyword : ∀ k : Keyword, lower (c :: v) ≠ lower k.text

theorem Tail.exponent {e : Char} {ds : Str} (he : e = 'e' ∨ e = 'E')
    (hds : ∀ c ∈ ds, digit.mem c = true) : Tail e ds := by
  refine ⟨?_, fun d hd => wordChar_of_digit (hds d hd), lower_exponent hds⟩
  rcases he with rfl | rfl <;> decide

theorem Tail.hex {x : Char} {hs : Str} (hx : x = 'x' ∨ x = 'X')
    (hhs : ∀ c ∈ hs, hexDigit.mem c = true) : Tail x hs := by
  refine ⟨?_, fun d hd => ?_, lower_hex hx⟩
  · rcases hx with rfl | rfl <;> decide
  · exact wordChar_of_hexDigit (hhs d hd)

/-- The scanner cuts such a literal in two. -/
theorem lexes_tail {m : Str} (hm : Mantissa m) {c : Char} {v : Str} (h : Tail c v) {s : Str}
    (hs : ∀ d ∈ s.head?, wordChar.mem d = false) : ∃ L t, t.Numeric ∧
      Lexes rules .INITIAL (m ++ c :: v ++ s) L .INITIAL s ∧
        Flex.tokens L = [t, ⟨.IDENTIFIER, c :: v⟩] := by
  obtain ⟨t, ht, hfirst⟩ := lexes_mantissa hm h.head (v ++ s)
  have hsecond := lexes_word h.head h.word h.not_keyword hs
  rw [List.append_assoc]
  exact ⟨_, t, ht, hfirst.trans hsecond, rfl⟩

theorem mantissa_nonblank {m : Str} (hm : Mantissa m) (s : Str) :
    ∀ c ∈ (m ++ s).head?, blank.mem c = false := by
  obtain ⟨d, v, rfl, hd⟩ := hm.head
  intro c hc
  obtain rfl := Option.mem_some_iff.mp hc
  exact CharClass.mem_of_disjoint (k := digit) (by decide) hd

/-- The kinds of the tokens read so far begin those of the text. -/
theorem codes_prefix {sql : Str} {L : List (Lexeme Start Token)} {q : Start} {s : Str}
    (h : Lexes rules .INITIAL (cStr sql) L q s) :
    (Flex.tokens L).map Token.kind <+: codes sql := by
  rw [codes, tokens, lexemes_of_lexes h, Flex.tokens_append, List.map_append]
  exact List.prefix_append _ _

/-- In front of this the parser has an alias, and an alias ends the expression. -/
theorem follow_sign {t u : TokenKind} (ht : t = .INTVAL ∨ t = .FLOATVAL)
    (hu : u = .ch '+' ∨ u = .INTVAL) :
    follow automaton 40 [] [.kw .SELECT, t, .IDENTIFIER, u] = .rejected := by
  rw [automaton_eq_rowwise]
  rcases ht with rfl | rfl <;> rcases hu with rfl | rfl <;> decide +kernel

theorem not_rejected_of_tail {m : Str} (hm : Mantissa m) {c : Char} {v : Str} (h : Tail c v)
    (hnul : '\x00' ∉ m ++ c :: v) : ¬ Rejected (m ++ c :: v) := by
  intro hrejected
  have hcut : cStr ("SELECT ".toList ++ (m ++ c :: v) ++ " FROM t".toList) =
      "SELECT ".toList ++ (m ++ c :: v ++ " FROM t".toList) := by
    rw [List.append_assoc, cStr_eq_self_iff]
    simp only [List.mem_append]
    rintro (h | h | h)
    · exact absurd h (by decide)
    · exact hnul (List.mem_append.mpr h)
    · exact absurd h (by decide)
  obtain ⟨L, t, ht, hL, htokens⟩ := lexes_tail hm h (s := " FROM t".toList) fun d hd => by
    obtain rfl := Option.mem_some_iff.mp hd
    decide
  obtain ⟨S, hS, hselect⟩ := lexes_select (s := m ++ c :: v ++ " FROM t".toList) (by
    rw [List.append_assoc]
    exact mantissa_nonblank hm _)
  have hrun := hS.trans hL
  rw [← hcut] at hrun
  have hcodes : codes ("SELECT ".toList ++ (m ++ c :: v) ++ " FROM t".toList) =
      [.kw .SELECT, t.kind, .IDENTIFIER] ++ codes " FROM t".toList := by
    rw [codes, tokens, lexemes_of_lexes hrun, Flex.tokens_append, Flex.tokens_append, hselect,
      htokens, List.map_append]
    rfl
  have hvalid : Valid ("SELECT ".toList ++ (m ++ c :: v) ++ " FROM t".toList) := by
    have hselectable : ∀ sql, ((parse 100 ⟨0, 0, 0, 0⟩ .new sql).any fun x => x.2.isValid) = true →
        Valid sql := by
      intro sql hsql
      obtain ⟨x, hx, hr⟩ := (Option.any_eq_true _ _).mp hsql
      exact ⟨_, _, _, _, .of_parse hx, hr⟩
    rcases ht with ht | ht
    · refine (hselectable "SELECT 1 e FROM t".toList (by
        rw [parse_rowwise]
        decide +kernel)).of_codes ?_
      rw [hcodes, ht, codes_rulesAt, codes_rulesAt]
      decide +kernel
    · refine (hselectable "SELECT 1.0 e FROM t".toList (by
        rw [parse_rowwise]
        decide +kernel)).of_codes ?_
      rw [hcodes, ht, codes_rulesAt, codes_rulesAt]
      decide +kernel
  refine hrejected " FROM t".toList (fun d hd => ?_) hvalid
  obtain rfl := Option.mem_some_iff.mp hd
  decide

theorem not_oneNumber_of_tail {m : Str} (hm : Mantissa m) {c : Char} {v : Str} (h : Tail c v)
    (hnul : '\x00' ∉ m ++ c :: v) : ¬ OneNumber (m ++ c :: v) := by
  rintro ⟨u, hu, -⟩
  obtain ⟨L, t, -, hL, htokens⟩ := lexes_tail hm h (s := []) (by simp)
  rw [List.append_nil, ← (cStr_eq_self_iff _).mpr hnul] at hL
  rw [tokens, lexemes_of_lexes hL, Flex.tokens_append, htokens] at hu
  cases hu

/-- An exponent with a sign: the sign ends the alias, and nothing goes on behind it. -/
theorem rejected_of_sign {m : Str} (hm : Mantissa m) {e sign : Char} (he : e = 'e' ∨ e = 'E')
    (hsign : sign = '+' ∨ sign = '-') {ds : Str} (hne : ds ≠ [])
    (hds : ∀ c ∈ ds, digit.mem c = true) : Rejected (m ++ e :: sign :: ds) := by
  intro Q hQ
  have htail : Tail e [] := Tail.exponent he (List.forall_mem_nil _)
  have hnul : '\x00' ∉ "SELECT ".toList ++ (m ++ e :: sign :: ds) := by
    simp only [List.mem_append, List.mem_cons]
    rintro (h | h | h | h | h)
    · exact absurd h (by decide)
    · rcases hm.chars _ h with h | h <;> exact absurd h (by decide)
    · rcases he with rfl | rfl <;> exact absurd h (by decide)
    · rcases hsign with rfl | rfl <;> exact absurd h (by decide)
    · exact absurd (hds _ h) (by decide)
  have hcut : cStr ("SELECT ".toList ++ (m ++ e :: sign :: ds) ++ Q) =
      "SELECT ".toList ++ (m ++ [e] ++ sign :: (ds ++ cStr Q)) := by
    rw [cStr_append hnul]
    simp only [List.append_assoc, List.cons_append, List.nil_append]
  obtain ⟨L, t, ht, hL, htokens⟩ := lexes_tail hm htail (s := sign :: (ds ++ cStr Q)) fun d hd => by
    obtain rfl := Option.mem_some_iff.mp hd
    rcases hsign with rfl | rfl <;> decide
  obtain ⟨S, hS, hselect⟩ := lexes_select (s := m ++ [e] ++ sign :: (ds ++ cStr Q)) (by
    rw [List.append_assoc]
    exact mantissa_nonblank hm _)
  have hlast : ∃ M p s u, Lexes rules .INITIAL (sign :: (ds ++ cStr Q)) M p s ∧
      Flex.tokens M = [u] ∧ (u.kind = .ch '+' ∨ u.kind = .INTVAL) := by
    rcases hsign with rfl | rfl
    · exact ⟨_, _, _, _, lexes_plus _, rfl, Or.inl rfl⟩
    · have hinteger : '-' :: ds ∈ integer.lang := (mem_integer _).mpr ⟨ds, hne, hds, Or.inr rfl⟩
      have hrest : ∀ c ∈ (cStr Q).head?, blank.mem c = true := cStr_head hQ
      exact ⟨_, _, _, _, (Spelled.integer hinteger).lexes hrest, rfl, Or.inr rfl⟩
  obtain ⟨M, p, s, u, hM, hu, hkind⟩ := hlast
  have hrun := hS.trans (hL.trans hM)
  rw [← hcut] at hrun
  have hprefix := codes_prefix hrun
  rw [Flex.tokens_append, Flex.tokens_append, hselect, htokens, hu] at hprefix
  exact not_valid_of_follow (follow_sign ht hkind) hprefix

theorem alpha_notMem_mantissa {m : Str} (hm : Mantissa m) : ∀ c ∈ m, alpha.mem c = false := by
  intro c hc
  rcases hm.chars c hc with h | rfl
  · exact CharClass.mem_of_disjoint (k := digit) (by decide) h
  · decide

/-- Neither the characters of a number nor those of a word are signs. -/
theorem sign_notMem {m : Str} (hm : Mantissa m) {c : Char} {v : Str} (h : Tail c v) {s : Char}
    (hs : digit.mem s = false ∧ s ≠ '.' ∧ wordChar.mem s = false ∧ alpha.mem s = false) :
    s ∉ m ++ c :: v := by
  rw [List.mem_append, List.mem_cons]
  rintro (hmem | rfl | hmem)
  · rcases hm.chars s hmem with hd | hd
    · rw [hs.1] at hd
      cases hd
    · exact hs.2.1 hd
  · have hhead := h.head
    rw [hs.2.2.2] at hhead
    cases hhead
  · have hword := h.word s hmem
    rw [hs.2.2.1] at hword
    cases hword

theorem oneNumber_or_rejected_iff {w : Str} (hw : SQLiteNumber w) :
    OneNumber w ∨ Rejected w ↔ (∀ c ∈ w, alpha.mem c = false) ∨ '+' ∈ w ∨ '-' ∈ w := by
  have htail : ∀ {m : Str} {c : Char} {v : Str}, Mantissa m → Tail c v →
      (OneNumber (m ++ c :: v) ∨ Rejected (m ++ c :: v) ↔
        (∀ d ∈ m ++ c :: v, alpha.mem d = false) ∨ '+' ∈ m ++ c :: v ∨ '-' ∈ m ++ c :: v) := by
    intro m c v hm h
    have hnul := sign_notMem hm h (s := '\x00') (by decide)
    refine iff_of_false ?_ ?_
    · rintro (hone | hrejected)
      · exact not_oneNumber_of_tail hm h hnul hone
      · exact not_rejected_of_tail hm h hnul hrejected
    · rintro (hno | hplus | hminus)
      · have hhead := hno c (List.mem_append_right _ List.mem_cons_self)
        rw [h.head] at hhead
        cases hhead
      · exact sign_notMem hm h (by decide) hplus
      · exact sign_notMem hm h (by decide) hminus
  cases hw with
  | plain hm =>
    exact iff_of_true (Or.inl (oneNumber_of_mantissa hm)) (Or.inl (alpha_notMem_mantissa hm))
  | @exponent m sign ds e hm he hsign hne hds =>
    rcases hsign with rfl | rfl | rfl
    · exact htail hm (Tail.exponent he hds)
    · refine iff_of_true (Or.inr (rejected_of_sign hm he (Or.inl rfl) hne hds)) (Or.inr (Or.inl ?_))
      simp
    · refine iff_of_true (Or.inr (rejected_of_sign hm he (Or.inr rfl) hne hds)) (Or.inr (Or.inr ?_))
      simp
  | @hex hs x hx hne hhs =>
    have hzero : Mantissa ['0'] :=
      ⟨['0'], List.cons_ne_nil _ _, List.forall_mem_singleton.mpr (by decide), Or.inl rfl⟩
    exact htail hzero (Tail.hex hx hhs)

/-- **Exactly where a number goes on with a letter or a quoted name it is split from it**; of the
numeric literals of SQLite these are the hexadecimal ones and those with an exponent, and only a
sign in the exponent makes the parser notice. -/
theorem numbers_whole_iff (sql : Str) {w : Str} (hw : SQLiteNumber w) :
    (¬ Split sql ↔ ∀ L l t rest, Lexes rules .INITIAL (cStr sql) (L ++ [l]) .INITIAL rest →
      l.act = .token t → t.Numeric → ¬ WordAhead rest) ∧
    (OneNumber w ∨ Rejected w ↔ (∀ c ∈ w, alpha.mem c = false) ∨ '+' ∈ w ∨ '-' ∈ w) :=
  ⟨not_split_iff sql, oneNumber_or_rejected_iff hw⟩

theorem numbers_whole_decimal : SQLiteNumber "2.50".toList ∧
    (OneNumber "2.50".toList ∨ Rejected "2.50".toList) := by
  have hdigits : ∀ c ∈ ['5', '0'], digit.mem c = true := by
    simp only [List.forall_mem_cons]
    exact ⟨by decide, by decide, List.forall_mem_nil _⟩
  have hnumber : SQLiteNumber "2.50".toList := .plain ⟨['2'], List.cons_ne_nil _ _,
    List.forall_mem_singleton.mpr (by decide), Or.inr ⟨['5', '0'], hdigits, rfl⟩⟩
  refine ⟨hnumber, (numbers_whole_iff [] hnumber).2.mpr (Or.inl ?_)⟩
  show ∀ c ∈ ['2', '.', '5', '0'], alpha.mem c = false
  simp only [List.forall_mem_cons]
  exact ⟨by decide, by decide, by decide, by decide, List.forall_mem_nil _⟩

/-- `1e5` is the number 1 with the alias `e5`. -/
theorem numbers_whole_exponent : ¬ ∀ w, SQLiteNumber w → OneNumber w ∨ Rejected w := by
  intro h
  have hone : Mantissa ['1'] :=
    ⟨['1'], List.cons_ne_nil _ _, List.forall_mem_singleton.mpr (by decide), Or.inl rfl⟩
  have hdigit : ∀ c ∈ ['5'], digit.mem c = true := List.forall_mem_singleton.mpr (by decide)
  have hnumber : SQLiteNumber ['1', 'e', '5'] :=
    .exponent hone (Or.inl rfl) (Or.inl rfl) (List.cons_ne_nil _ _) hdigit
  rcases (oneNumber_or_rejected_iff hnumber).mp (h _ hnumber) with hno | hplus | hminus
  · exact absurd (hno 'e' (by decide)) (by decide)
  · exact absurd hplus (by decide)
  · exact absurd hminus (by decide)

end Hsql
