import Hsql.Lexer.Names

/-! Numbers and what stands directly behind them. The rules of numbers and of words know nothing of
each other, so a letter behind a digit starts a word. -/

namespace Hsql
open Flex Regex Lexer

/-! The rules of a lexeme, by its first character. -/

/-- A number opens with a digit, or with a minus sign in front of one. -/
theorem integer_head {c : Char} {v : Str} (h : c :: v ∈ integer.lang) :
    digit.mem c = true ∨ c = '-' := by
  obtain ⟨ds, -, hds, heq⟩ := (mem_integer _).mp h
  rcases heq with rfl | heq
  · exact Or.inl (hds c List.mem_cons_self)
  · exact Or.inr (List.cons_eq_cons.mp heq).1

theorem decimal_head {c : Char} {v : Str} (h : c :: v ∈ decimal.pattern.lang) :
    digit.mem c = true ∨ c = '-' := by
  obtain ⟨u, hu, ds, -, heq⟩ := (mem_decimal _).mp h
  cases u with
  | nil =>
    obtain ⟨d, hd, -⟩ := digit_mem_integer hu
    exact absurd hd List.not_mem_nil
  | cons d u =>
    rw [(List.cons_eq_cons.mp heq).1]
    exact integer_head hu

theorem lower_ne_underscore {x c : Char} (h : x.toLower = c.toLower) (hc : alpha.mem c = true)
    (hx : keywordChar.mem x = true) : alpha.mem x = true := by
  have hlower : ∀ n < 128, alpha.mem (Char.ofNat n) = true → (Char.ofNat n).toLower ≠ '_' := by
    decide
  have hlt : c.toNat < 128 := by
    simp only [alpha, CharClass.mem, List.any_cons, List.any_nil, Bool.or_false, Bool.false_xor,
      Bool.or_eq_true, Bool.and_eq_true, decide_eq_true_eq] at hc
    have hZ : 'Z'.toNat = 90 := rfl
    have hz : 'z'.toNat = 122 := rfl
    omega
  have hne := hlower c.toNat hlt
  rw [Char.ofNat_toNat] at hne
  have hx' : x ≠ '_' := by
    rintro rfl
    exact hne hc h.symm
  simp only [keywordChar, alpha, CharClass.mem, List.any_cons, List.any_nil, Bool.or_false,
    Bool.false_xor, Bool.or_eq_true] at hx ⊢
  rcases hx with hx | hx | hx
  · exact Or.inl hx
  · exact Or.inr hx
  · exact absurd ((CharClass.le_and_le_iff _ _).mp hx) hx'

/-- Keywords open with a letter. -/
theorem keyword_head {k : Keyword} {w : Str} (hw : w ∈ (caseInsensitive k.text).lang) :
    ∃ c v, w = c :: v ∧ alpha.mem c = true := by
  have hall := Keyword.forall_text (P := fun w => (w.head?.all alpha.mem) = true)
    (by decide +kernel)
  obtain ⟨hne, hchars⟩ := keyword_lang hw
  obtain ⟨c, v, rfl⟩ := List.exists_cons_of_ne_nil hne
  obtain ⟨d, u, hd⟩ := List.exists_cons_of_ne_nil (keyword_text k).1
  have hhead := hall k
  rw [hd] at hhead
  have hlower := (mem_caseInsensitive _ _).mp hw
  rw [hd, List.map_cons, List.map_cons] at hlower
  exact ⟨c, v, rfl, lower_ne_underscore (List.cons_eq_cons.mp hlower).1 hhead
    (hchars c List.mem_cons_self)⟩

/-- What each rule's lexemes open with. -/
theorem rule_head {r : LexRule} (hr : r ∈ rules) (hq : r.active .INITIAL = true) {c : Char}
    {v : Str} (hw : c :: v ∈ r.pattern.lang) :
    (r = commentStart ∧ c = '-') ∨ (r = whitespace ∧ blank.mem c = true) ∨
      ((∃ k, r = keyword k) ∧ alpha.mem c = true) ∨ (r ∈ operators ∧ operatorChar.mem c = true) ∨
      (r = character ∧ punctuation.mem c = true) ∨
      ((r = decimal ∨ r = intval) ∧ (digit.mem c = true ∨ c = '-')) ∨
      (r = pointDecimal ∧ c = '.') ∨ (r = quotedIdentifier ∧ quoteChar.mem c = true) ∨
      (r = identifier ∧ alpha.mem c = true) ∨ (r = string ∧ c = '\'') ∨ r = unknown := by
  rcases mem_rules_cases hr with rfl | rfl | rfl | rfl | ⟨k, rfl⟩ | hop | rfl | rfl | rfl | rfl |
    rfl | rfl | rfl | rfl
  · have heq := (mem_lang_lit _ _).mp hw
    simp [(List.cons_eq_cons.mp heq).1]
  · exact absurd hq (by decide)
  · exact absurd hq (by decide)
  · have hblank := ((mem_lang_plus_cls _ _).mp hw).2 c List.mem_cons_self
    simp [hblank]
  · obtain ⟨d, u, heq, hd⟩ := keyword_head hw
    rw [← (List.cons_eq_cons.mp heq).1] at hd
    simp [hd]
  · have hchar := (operators_chars hop hw).2 c List.mem_cons_self
    simp [hop, hchar]
  · obtain ⟨d, hd, heq⟩ := (mem_lang_cls _ _).mp hw
    rw [← (List.cons_eq_cons.mp heq).1] at hd
    simp [hd]
  · have hhead := decimal_head hw
    simp [hhead]
  · obtain ⟨ds, -, heq⟩ := (mem_fraction _).mp hw
    simp [(List.cons_eq_cons.mp heq).1]
  · have hhead := integer_head hw
    simp [hhead]
  · obtain ⟨q, body, q', hquote, -, -, -, heq⟩ := (mem_quotedIdentifier _).mp hw
    rw [← (List.cons_eq_cons.mp heq).1] at hquote
    simp [hquote]
  · obtain ⟨d, u, hd, -, heq⟩ := (mem_identifier _).mp hw
    rw [← (List.cons_eq_cons.mp heq).1] at hd
    simp [hd]
  · obtain ⟨u, -, heq⟩ := (mem_string _).mp hw
    simp [(List.cons_eq_cons.mp heq).1]
  · simp

theorem letter_rule {r : LexRule} (hr : r ∈ rules) (hq : r.active .INITIAL = true) {c : Char}
    {v : Str} (hc : alpha.mem c = true) (hw : c :: v ∈ r.pattern.lang) :
    (∃ k, r = keyword k) ∨ r = identifier ∨ r = unknown := by
  have hno (k : CharClass) (hk : alpha.disjoint k = true) : k.mem c = false :=
    CharClass.mem_of_disjoint hk hc
  have hne (d : Char) (hd : alpha.mem d = false) : c ≠ d := by
    rintro rfl
    rw [hc] at hd
    cases hd
  have hhead := rule_head hr hq hw
  simp only [hne '-' (by decide), hne '.' (by decide), hne '\'' (by decide), hno blank (by decide),
    hno operatorChar (by decide), hno punctuation (by decide), hno digit (by decide),
    hno quoteChar (by decide), Bool.false_eq_true, and_false, false_or, or_false] at hhead
  exact hhead.imp And.left fun h => h.imp_left And.left

theorem digit_rule {r : LexRule} (hr : r ∈ rules) (hq : r.active .INITIAL = true) {c : Char}
    {v : Str} (hc : digit.mem c = true) (hw : c :: v ∈ r.pattern.lang) :
    (r = decimal ∨ r = intval) ∨ r = unknown := by
  have hno (k : CharClass) (hk : digit.disjoint k = true) : k.mem c = false :=
    CharClass.mem_of_disjoint hk hc
  have hne (d : Char) (hd : digit.mem d = false) : c ≠ d := by
    rintro rfl
    rw [hc] at hd
    cases hd
  have hhead := rule_head hr hq hw
  simp only [hne '-' (by decide), hne '.' (by decide), hne '\'' (by decide), hno blank (by decide),
    hno operatorChar (by decide), hno punctuation (by decide), hno alpha (by decide),
    hno quoteChar (by decide), Bool.false_eq_true, and_false, false_or, or_false] at hhead
  exact hhead.imp_left And.left

theorem mem_rules_identifier : identifier ∈ rules := by
  simp [rules]

/-- The token of a word: an IDENTIFIER or a keyword. -/
def Token.Word (t : Token) : Prop := t.kind = .IDENTIFIER ∨ ∃ k, t.kind = .kw k

def Token.Numeric (t : Token) : Prop := t.kind = .INTVAL ∨ t.kind = .FLOATVAL

/-- In front of a letter the scanner chooses a word. -/
theorem munch_letter {c : Char} (hc : alpha.mem c = true) (v : Str) : ∃ n r t,
    munch rules .INITIAL (c :: v) = some (n, r) ∧ r.action ((c :: v).take n) = .token t ∧ t.Word := by
  have hone : [c] ∈ identifier.pattern.lang :=
    (mem_identifier _).mpr ⟨c, [], hc, List.forall_mem_nil _, rfl⟩
  obtain ⟨m, hm, hle⟩ := Rule.longest_of_mem (r := identifier) (q := .INITIAL) rfl
    (show [c] <+: c :: v from ⟨v, rfl⟩) hone
  obtain ⟨n, r, hmunch, hmn⟩ := exists_munch mem_rules_identifier hm
  obtain ⟨hr, hn, hactive, hmem⟩ := munch_length_le hmunch
  obtain ⟨k, rfl⟩ : ∃ k, n = k + 1 := Nat.exists_eq_succ_of_ne_zero (Nat.pos_iff_ne_zero.mp (hle.trans hmn))
  have hword := hmem
  rw [List.take_succ_cons] at hword
  rcases letter_rule hr hactive hc hword with ⟨k, rfl⟩ | rfl | rfl
  · exact ⟨_, _, _, hmunch, rfl, Or.inr ⟨k, rfl⟩⟩
  · exact ⟨_, _, _, hmunch, rfl, Or.inl rfl⟩
  · -- the catch-all matches one character, and the rule of identifiers stands before it
    obtain ⟨d, -, heq⟩ := (mem_lang_cls _ _).mp hword
    have hk : k + 1 ≤ m := by
      have hlen := congrArg List.length heq
      rw [List.length_cons, List.length_take, List.length_singleton] at hlen
      rw [List.length_cons] at hn
      rw [List.length_singleton] at hle
      omega
    have hsplit : rules = rules.dropLast.dropLast.dropLast ++ identifier :: [string, unknown] := rfl
    rw [hsplit] at hmunch
    have hearly := munch_mem_of_le hmunch hm hk
    have hgoesOn : ∀ r ∈ rules.dropLast.dropLast.dropLast ++ [identifier],
        r.action [] ≠ .stop := by
      decide +kernel
    exact absurd rfl (hgoesOn _ hearly)

/-- The text goes on with a letter or with a name in quotes. -/
def WordAhead (s : Str) : Prop :=
  (∃ c ∈ s.head?, alpha.mem c = true) ∨ ∃ v ∈ quotedIdentifier.pattern.lang, v <+: s

theorem word_rule {r : LexRule} (hr : r ∈ rules) {w : Str} {t : Token}
    (hact : r.action w = .token t) (ht : t.Word) :
    (∃ k, r = keyword k) ∨ r = quotedIdentifier ∨ r = identifier := by
  rcases token_rule hr hact with ⟨k, h, -⟩ | hop | ⟨-, c, h⟩ | ⟨-, h⟩ | ⟨-, h⟩ | ⟨h, -⟩ | ⟨-, h⟩
  · exact Or.inl ⟨k, h⟩
  · have hkind := operators_kind hop hact
    unfold Token.Word at ht
    rcases ht with h | ⟨k, h⟩ <;> simp [h] at hkind
  · unfold Token.Word at ht
    rcases ht with h' | ⟨k, h'⟩ <;> cases h.symm.trans h'
  · unfold Token.Word at ht
    rcases ht with h' | ⟨k, h'⟩ <;> cases h.symm.trans h'
  · unfold Token.Word at ht
    rcases ht with h' | ⟨k, h'⟩ <;> cases h.symm.trans h'
  · exact Or.inr h
  · unfold Token.Word at ht
    rcases ht with h' | ⟨k, h'⟩ <;> cases h.symm.trans h'

/-- The scanner chooses a word exactly where the text goes on with one. -/
theorem munch_word_iff (s : Str) : (∃ n r t, munch rules .INITIAL s = some (n, r) ∧
    r.action (s.take n) = .token t ∧ t.Word) ↔ WordAhead s := by
  constructor
  · rintro ⟨n, r, t, hm, hact, ht⟩
    obtain ⟨hr, -, -, hmem⟩ := munch_length_le hm
    have hhead : ∀ {c v}, s.take n = c :: v → alpha.mem c = true → WordAhead s := by
      intro c v heq hc
      refine Or.inl ⟨c, ?_, hc⟩
      have hpre := List.take_prefix n s
      rw [heq] at hpre
      obtain ⟨u, rfl⟩ := hpre
      rfl
    rcases word_rule hr hact ht with ⟨k, rfl⟩ | rfl | rfl
    · obtain ⟨c, v, heq, hc⟩ := keyword_head hmem
      exact hhead heq hc
    · exact Or.inr ⟨_, hmem, List.take_prefix n s⟩
    · obtain ⟨c, v, hc, -, heq⟩ := (mem_identifier _).mp hmem
      exact hhead heq hc
  · rintro (⟨c, hc, halpha⟩ | ⟨v, hv, t, rfl⟩)
    · obtain ⟨v, rfl⟩ : ∃ v, s = c :: v := by
        cases s with
        | nil => cases hc
        | cons d v => exact ⟨v, by rw [Option.mem_some_iff.mp hc]⟩
      exact munch_letter halpha v
    · exact ⟨_, _, _, munch_quotedName hv t, rfl, Or.inl rfl⟩

theorem numeric_rule {r : LexRule} (hr : r ∈ rules) {w : Str} {t : Token}
    (hact : r.action w = .token t) (ht : t.Numeric) :
    r = decimal ∨ r = pointDecimal ∨ r = intval := by
  have hkind : t.kind ∈ [TokenKind.INTVAL, .FLOATVAL] := by
    rcases ht with h | h <;> simp [h]
  rcases token_rule hr hact with ⟨k, -, h⟩ | hop | ⟨-, c, h⟩ | ⟨h, -⟩ | ⟨h, -⟩ | ⟨-, h⟩ | ⟨-, h⟩
  · simp [h] at hkind
  · have hop' := operators_kind hop hact
    rcases ht with h | h <;> simp [h] at hop'
  · simp [h] at hkind
  · exact h.imp_right Or.inl
  · exact Or.inr (Or.inr h)
  · simp [h] at hkind
  · simp [h] at hkind

theorem newline_notMem_integer {w : Str} (hw : w ∈ integer.lang) : '\n' ∉ w := by
  obtain ⟨ds, -, hds, heq⟩ := (mem_integer _).mp hw
  have hdigits : '\n' ∉ ds := fun h => absurd (hds _ h) (by decide)
  rcases heq with rfl | rfl
  · exact hdigits
  · simpa using hdigits

theorem newline_notMem_number {r : LexRule} (hr : r = decimal ∨ r = pointDecimal ∨ r = intval)
    {w : Str} (hw : w ∈ r.pattern.lang) : '\n' ∉ w := by
  have hdigits : ∀ {ds : Str}, (∀ c ∈ ds, digit.mem c = true) → '\n' ∉ '.' :: ds := by
    intro ds hds h
    rcases List.mem_cons.mp h with h | h
    · exact absurd h (by decide)
    · exact absurd (hds _ h) (by decide)
  rcases hr with rfl | rfl | rfl
  · obtain ⟨u, hu, ds, hds, rfl⟩ := (mem_decimal _).mp hw
    rw [List.mem_append, not_or]
    exact ⟨newline_notMem_integer hu, hdigits hds⟩
  · obtain ⟨ds, hds, rfl⟩ := (mem_fraction _).mp hw
    exact hdigits hds
  · exact newline_notMem_integer hw

/-- Some number is directly followed by a word. -/
def Split (sql : Str) : Prop := ∃ L l l' M t t', lexemes sql = L ++ l :: l' :: M ∧
  l.act = .token t ∧ t.Numeric ∧ l'.act = .token t' ∧ t'.Word

/-- Behind a number the scanner is not in a comment. -/
theorem initial_of_numeric {p : Start} {s rest : Str} {L : List (Lexeme Start Token)}
    {l : Lexeme Start Token} {t : Token} (h : Lexes rules .INITIAL s (L ++ [l]) p rest)
    (hact : l.act = .token t) (ht : t.Numeric) : p = .INITIAL := by
  obtain ⟨q, s', -, hl, -⟩ := h.split
  obtain ⟨n, r, l', M, heq, hm, htext, -, -, hrule, q', hnext, hM⟩ :=
    hl.first (List.cons_ne_nil _ _)
  obtain ⟨rfl, rfl⟩ := List.cons_eq_cons.mp heq
  obtain ⟨hr, -, -, hmem⟩ := munch_length_le hm
  rw [hact] at hrule hnext
  have hnumber := numeric_rule hr hrule.symm ht
  obtain rfl := initial_of_token hm (newline_notMem_number hnumber hmem) (htext ▸ hrule.symm)
  cases hM
  exact (Option.some.inj hnext).symm

theorem not_split_iff (sql : Str) : ¬ Split sql ↔ ∀ L l t rest,
    Lexes rules .INITIAL (cStr sql) (L ++ [l]) .INITIAL rest → l.act = .token t → t.Numeric →
      ¬ WordAhead rest := by
  constructor
  · intro h L l t rest hrun hact ht hword
    refine h ?_
    obtain ⟨n, r, t', hm, hact', ht'⟩ := (munch_word_iff rest).mpr hword
    have hne : rest ≠ [] := by
      rintro rfl
      rcases hword with ⟨c, hc, -⟩ | ⟨v, hv, hpre⟩
      · cases hc
      · obtain rfl := List.prefix_nil.mp hpre
        obtain ⟨q, body, q', -, -, -, -, heq⟩ := (mem_quotedIdentifier _).mp hv
        cases heq
    obtain ⟨n', r', hm', hn'⟩ := rules_progress .INITIAL rest hne
    rw [hm] at hm'
    obtain ⟨rfl, rfl⟩ := Prod.mk.inj (Option.some.inj hm')
    have hlex := lexemes_of_lexes hrun
    rw [scan_eq hm hn', List.append_assoc, List.singleton_append] at hlex
    exact ⟨L, l, _, _, t, t', hlex, hact, ht, hact', ht'⟩
  · rintro h ⟨L, l, l', M, t, t', hlex, hact, ht, hact', ht'⟩
    rw [List.append_cons] at hlex
    obtain ⟨p, rest, n, r, hrun, hm, -, hl'⟩ := scan_eq_append rules_progress hlex
    obtain rfl := initial_of_numeric hrun hact ht
    refine h L l t rest hrun hact ht ((munch_word_iff rest).mp ⟨n, r, t', hm, ?_, ht'⟩)
    rw [← hact', hl']

/-! Literals with an exponent or in hexadecimal. -/

def hexDigit : CharClass := ⟨false, [('0', '9'), ('A', 'F'), ('a', 'f')]⟩

/-- Digits with an optional fraction. -/
def Mantissa (m : Str) : Prop := ∃ ds : Str, ds ≠ [] ∧ (∀ c ∈ ds, digit.mem c = true) ∧
  (m = ds ∨ ∃ fs : Str, (∀ c ∈ fs, digit.mem c = true) ∧ m = ds ++ '.' :: fs)

/-- The numeric literals of SQLite. -/
inductive SQLiteNumber : Str → Prop where
  | plain {m : Str} (hm : Mantissa m) : SQLiteNumber m
  | exponent {m sign ds : Str} {e : Char} (hm : Mantissa m) (he : e = 'e' ∨ e = 'E')
      (hsign : sign = [] ∨ sign = ['+'] ∨ sign = ['-']) (hne : ds ≠ [])
      (hds : ∀ c ∈ ds, digit.mem c = true) : SQLiteNumber (m ++ e :: (sign ++ ds))
  | hex {hs : Str} {x : Char} (hx : x = 'x' ∨ x = 'X') (hne : hs ≠ [])
      (hhs : ∀ c ∈ hs, hexDigit.mem c = true) : SQLiteNumber ('0' :: x :: hs)

theorem Mantissa.spelled {m : Str} (h : Mantissa m) : ∃ t, Spelled m t ∧ t.Numeric := by
  obtain ⟨ds, hne, hds, rfl | ⟨fs, hfs, rfl⟩⟩ := h
  · exact ⟨_, .integer ((mem_integer _).mpr ⟨m, hne, hds, Or.inl rfl⟩), Or.inl rfl⟩
  · exact ⟨_, .decimal ((mem_integer _).mpr ⟨ds, hne, hds, Or.inl rfl⟩) hfs, Or.inr rfl⟩

theorem Mantissa.head {m : Str} (h : Mantissa m) : ∃ c v, m = c :: v ∧ digit.mem c = true := by
  obtain ⟨ds, hne, hds, hm⟩ := h
  obtain ⟨c, v, rfl⟩ := List.exists_cons_of_ne_nil hne
  have hc := hds c List.mem_cons_self
  rcases hm with rfl | ⟨fs, -, rfl⟩
  · exact ⟨c, v, rfl, hc⟩
  · exact ⟨c, v ++ '.' :: fs, rfl, hc⟩

theorem Mantissa.chars {m : Str} (h : Mantissa m) : ∀ c ∈ m, digit.mem c = true ∨ c = '.' := by
  obtain ⟨ds, -, hds, rfl | ⟨fs, hfs, rfl⟩⟩ := h
  · exact fun c hc => Or.inl (hds c hc)
  · intro c hc
    rcases List.mem_append.mp hc with hc | hc
    · exact Or.inl (hds c hc)
    · rcases List.mem_cons.mp hc with rfl | hc
      · exact Or.inr rfl
      · exact Or.inl (hfs c hc)

theorem alpha_notMem_integer {w : Str} (hw : w ∈ integer.lang) : ∀ c ∈ w, alpha.mem c = false := by
  obtain ⟨ds, -, hds, heq⟩ := (mem_integer _).mp hw
  have hdigits : ∀ c ∈ ds, alpha.mem c = false := fun c hc =>
    CharClass.mem_of_disjoint (k := digit) (by decide) (hds c hc)
  rcases heq with rfl | rfl
  · exact hdigits
  · exact List.forall_mem_cons.mpr ⟨by decide, hdigits⟩

/-- A letter behind digits is no part of the number. -/
theorem munch_mantissa {m : Str} (hm : Mantissa m) {c : Char} (hc : alpha.mem c = true) (v : Str) :
    munch rules .INITIAL (m ++ c :: v) = munch rules .INITIAL m := by
  refine munch_append fun r hr hq w hw hpre hmem => ?_
  obtain ⟨u, rfl⟩ : ∃ u, w = c :: u := by
    cases w with
    | nil => exact absurd rfl hw
    | cons d u => exact ⟨u, by rw [(List.cons_prefix_cons.mp hpre).1]⟩
  obtain ⟨d, x, rfl, hd⟩ := hm.head
  have hletter : c ∈ d :: x ++ c :: u := List.mem_append_right _ List.mem_cons_self
  rcases digit_rule hr hq hd hmem with (rfl | rfl) | rfl
  · obtain ⟨y, hy, ds, hds, heq⟩ := (mem_decimal _).mp hmem
    rw [heq, List.mem_append, List.mem_cons] at hletter
    rcases hletter with h | rfl | h
    · rw [alpha_notMem_integer hy c h] at hc
      cases hc
    · exact absurd hc (by decide)
    · rw [CharClass.mem_of_disjoint (k := digit) (by decide) (hds c h)] at hc
      cases hc
  · rw [alpha_notMem_integer hmem c hletter] at hc
    cases hc
  · obtain ⟨y, -, heq⟩ := (mem_lang_cls _ _).mp hmem
    simp at heq

/-- A word ends where no character of words follows. -/
theorem munch_word {c d : Char} {v : Str} (hc : alpha.mem c = true) (hd : wordChar.mem d = false)
    (t : Str) : munch rules .INITIAL (c :: v ++ d :: t) = munch rules .INITIAL (c :: v) := by
  refine munch_append fun r hr hq w hw hpre hmem => ?_
  obtain ⟨u, rfl⟩ : ∃ u, w = d :: u := by
    cases w with
    | nil => exact absurd rfl hw
    | cons e u => exact ⟨u, by rw [(List.cons_prefix_cons.mp hpre).1]⟩
  have hbehind : d ∈ v ++ d :: u := List.mem_append_right _ List.mem_cons_self
  rcases letter_rule hr hq hc hmem with ⟨k, rfl⟩ | rfl | rfl
  · have hchar := (keyword_lang hmem).2 d (List.mem_cons_of_mem _ hbehind)
    have hsub : wordChar.mem d = true := by
      simp only [keywordChar, wordChar, CharClass.mem, List.any_cons, List.any_nil, Bool.or_false,
        Bool.false_xor, Bool.or_eq_true] at hchar ⊢
      tauto
    rw [hd] at hsub
    cases hsub
  · obtain ⟨e, x, -, hx, heq⟩ := (mem_identifier _).mp hmem
    rw [hx d ((List.cons_eq_cons.mp heq).2 ▸ hbehind)] at hd
    cases hd
  · obtain ⟨y, -, heq⟩ := (mem_lang_cls _ _).mp hmem
    simp at heq

theorem munch_separator {c : Char} (hc : c ∈ ['+', ';']) (t : Str) :
    munch rules .INITIAL (c :: t) = some (1, character) := by
  have hclasses : blank.mem c = false ∧ alpha.mem c = false ∧ operatorChar.mem c = false ∧
      digit.mem c = false ∧ quoteChar.mem c = false ∧ c ≠ '-' ∧ c ≠ '.' ∧ c ≠ '\'' ∧
        punctuation.mem c = true := by
    simp only [List.mem_cons, List.not_mem_nil, or_false] at hc
    rcases hc with rfl | rfl <;> decide
  have hall : munch rules .INITIAL ([c] ++ t) = munch rules .INITIAL [c] := by
    refine munch_append fun r hr hq w hw _ hmem => ?_
    have hhead := rule_head hr hq hmem
    have hchar : r = character ∨ r = unknown := by
      simpa [hclasses] using hhead
    -- both rules match one character only
    rcases hchar with rfl | rfl
    · obtain ⟨y, -, heq⟩ := (mem_lang_cls _ _).mp hmem
      exact hw (List.cons_eq_cons.mp heq).2
    · obtain ⟨y, -, heq⟩ := (mem_lang_cls _ _).mp hmem
      exact hw (List.cons_eq_cons.mp heq).2
  exact hall.trans (munch_character hclasses.2.2.2.2.2.2.2.2)

theorem lexes_mantissa {m : Str} (hm : Mantissa m) {c : Char} (hc : alpha.mem c = true) (v : Str) :
    ∃ t : Token, t.Numeric ∧
      Lexes rules .INITIAL (m ++ c :: v) [⟨m, .token t⟩] .INITIAL (c :: v) := by
  obtain ⟨t, hspelled, ht⟩ := hm.spelled
  obtain ⟨r, hmunch, hact⟩ := hspelled.munch
  have hpos : 0 < m.length := List.length_pos_iff.mpr hspelled.ne_nil
  have hone := Lexes.single .INITIAL ((munch_mantissa hm hc v).trans hmunch) hpos
    (by rw [List.take_left, hact]; rfl)
  rw [List.take_left, List.drop_left, hact] at hone
  exact ⟨t, ht, hone⟩

theorem lexes_word {c : Char} {v t : Str} (hc : alpha.mem c = true)
    (hv : ∀ d ∈ v, wordChar.mem d = true) (hk : ∀ k : Keyword, lower (c :: v) ≠ lower k.text)
    (ht : ∀ d ∈ t.head?, wordChar.mem d = false) : Lexes rules .INITIAL (c :: v ++ t)
      [⟨c :: v, .token ⟨.IDENTIFIER, c :: v⟩⟩] .INITIAL t := by
  have hmunch : munch rules .INITIAL (c :: v ++ t) = some ((c :: v).length, identifier) := by
    rw [← munch_identifier hc hv hk]
    cases t with
    | nil => rw [List.append_nil]
    | cons d t => exact munch_word hc (ht d rfl) t
  have hone := Lexes.single .INITIAL hmunch (Nat.succ_pos _) rfl
  rw [List.take_left, List.drop_left] at hone
  exact hone

theorem lexes_plus (t : Str) :
    Lexes rules .INITIAL ('+' :: t) [⟨['+'], .token (.ch '+')⟩] .INITIAL t := by
  have hone := Lexes.single .INITIAL (munch_separator (c := '+') (by decide) t) Nat.one_pos rfl
  exact hone

theorem wordChar_of_digit {c : Char} (h : digit.mem c = true) : wordChar.mem c = true := by
  simp only [digit, wordChar, CharClass.mem, List.any_cons, List.any_nil, Bool.or_false,
    Bool.false_xor, Bool.or_eq_true] at h ⊢
  tauto

theorem wordChar_of_hexDigit {c : Char} (h : hexDigit.mem c = true) : wordChar.mem c = true := by
  simp only [hexDigit, wordChar, CharClass.mem, List.any_cons, List.any_nil, Bool.or_false,
    Bool.false_xor, Bool.or_eq_true, Bool.and_eq_true, decide_eq_true_eq] at h ⊢
  have hZ : 'F'.toNat ≤ 'Z'.toNat := by decide
  have hz : 'f'.toNat ≤ 'z'.toNat := by decide
  omega

/-- The keywords are no tails of literals. -/
theorem lower_exponent {e : Char} {ds : Str} (hds : ∀ c ∈ ds, digit.mem c = true)
    (k : Keyword) : lower (e :: ds) ≠ lower k.text := by
  intro h
  have hmem : e :: ds ∈ (caseInsensitive k.text).lang := (mem_caseInsensitive _ _).mpr h
  have hchars := (keyword_lang hmem).2
  cases ds with
  | nil =>
    have hlen := Keyword.forall_text (P := fun w => w.length ≠ 1) (by decide +kernel)
    have heq := congrArg List.length h
    unfold lower at heq
    rw [List.length_map, List.length_map] at heq
    exact hlen k heq.symm
  | cons d ds =>
    have hd := hchars d (List.mem_cons_of_mem _ List.mem_cons_self)
    rw [CharClass.mem_of_disjoint (k := digit) (by decide) (hds d List.mem_cons_self)] at hd
    cases hd

theorem lower_hex {x : Char} {hs : Str} (hx : x = 'x' ∨ x = 'X') (k : Keyword) :
    lower (x :: hs) ≠ lower k.text := by
  intro h
  have hhead := Keyword.forall_text (P := fun w => (w.head?.all fun c => c.toLower != 'x') = true)
    (by decide +kernel) k
  have heq := congrArg List.head? h
  unfold lower at heq
  rw [List.head?_map, List.head?_map] at heq
  cases hk : k.text.head? with
  | none =>
    rw [hk] at heq
    cases heq
  | some c =>
    rw [hk] at heq hhead
    have hlow : x.toLower = c.toLower := Option.some.inj heq
    have hx' : x.toLower = 'x' := by
      rcases hx with rfl | rfl <;> decide
    rw [Option.all_some, ← hlow, hx'] at hhead
    cases hhead

end Hsql
