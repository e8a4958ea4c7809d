import Hsql.Lexer.Letters

/-! Where a match can end. Outside quotes a match never runs through a delimiter, and in a text
that is lexed completely no literal is left open; so the lexemes of such a text stay the same
when a delimiter and more text follow it. -/

namespace Hsql.Lexer
open Flex Regex

theorem mem_rules_cases {r : LexRule} (h : r ∈ rules) :
    r = commentStart ∨ r = commentText ∨ r = commentEnd ∨ r = whitespace ∨
      (∃ k, r = keyword k) ∨ r ∈ operators ∨ r = character ∨ r = decimal ∨ r = pointDecimal ∨
      r = intval ∨ r = quotedIdentifier ∨ r = identifier ∨ r = string ∨ r = unknown := by
  simp only [rules, List.mem_append, List.mem_cons, List.not_mem_nil, or_false,
    List.mem_map] at h
  rcases h with ((h | ⟨k, -, rfl⟩) | h) | h
  · tauto
  · exact Or.inr (Or.inr (Or.inr (Or.inr (Or.inl ⟨k, rfl⟩))))
  · tauto
  · tauto

theorem operators_lang {r : LexRule} (h : r ∈ operators) {w : Str} (hw : w ∈ r.pattern.lang) :
    w ∈ [['!', '='], ['<', '>'], ['<', '='], ['>', '='], ['|', '|']] := by
  simp only [operators, List.mem_cons, List.not_mem_nil, or_false] at h
  rcases h with rfl | rfl | rfl | rfl | rfl <;> simp_all [always]

/-- Characters that can stand behind the first one of a lexeme outside quotes. -/
def innerChar : CharClass :=
  ⟨false, [('A', 'Z'), ('a', 'z'), ('0', '9'), ('_', '_'), ('.', '.'), ('-', '-'), ('=', '='),
    ('>', '>'), ('|', '|')]⟩

theorem innerChar_of_keywordChar {c : Char} (h : keywordChar.mem c = true) :
    innerChar.mem c = true := by
  simp only [keywordChar, innerChar, CharClass.mem, List.any_cons, List.any_nil,
    Bool.or_false, Bool.false_xor, Bool.or_eq_true] at h ⊢
  tauto

theorem innerChar_of_wordChar {c : Char} (h : wordChar.mem c = true) :
    innerChar.mem c = true := by
  simp only [wordChar, innerChar, CharClass.mem, List.any_cons, List.any_nil,
    Bool.or_false, Bool.false_xor, Bool.or_eq_true] at h ⊢
  tauto

theorem innerChar_of_digit {c : Char} (h : digit.mem c = true) : innerChar.mem c = true := by
  simp only [digit, innerChar, CharClass.mem, List.any_cons, List.any_nil,
    Bool.or_false, Bool.false_xor, Bool.or_eq_true] at h ⊢
  tauto

theorem integer_inner {w : Str} (h : w ∈ integer.lang) : ∀ c ∈ w, innerChar.mem c = true := by
  obtain ⟨ds, -, hds, hw⟩ := (mem_integer w).mp h
  have hall : ∀ c ∈ ds, innerChar.mem c = true := fun c hc => innerChar_of_digit (hds c hc)
  rcases hw with rfl | rfl
  · exact hall
  · exact List.forall_mem_cons.mpr ⟨by decide, hall⟩

theorem rules_inner {r : LexRule} (hr : r ∈ rules) (hq : r.active .INITIAL = true) :
    r = whitespace ∨ r = quotedIdentifier ∨ r = string ∨
      ∀ w ∈ r.pattern.lang, ∀ c ∈ w.tail, innerChar.mem c = true := by
  rcases mem_rules_cases hr with rfl | rfl | rfl | rfl | ⟨k, rfl⟩ | hop | rfl | rfl | rfl | rfl |
    rfl | rfl | rfl | rfl
  · refine Or.inr (Or.inr (Or.inr fun w hw c hc => ?_))
    obtain rfl := (mem_lang_lit _ _).mp hw
    obtain rfl := List.mem_singleton.mp hc
    decide
  · exact absurd hq (by decide)
  · exact absurd hq (by decide)
  · exact Or.inl rfl
  · refine Or.inr (Or.inr (Or.inr fun w hw c hc => ?_))
    exact innerChar_of_keywordChar ((keyword_lang hw).2 c (List.mem_of_mem_tail hc))
  · refine Or.inr (Or.inr (Or.inr fun w hw c hc => ?_))
    have hw := operators_lang hop hw
    simp only [List.mem_cons, List.not_mem_nil, or_false] at hw
    rcases hw with rfl | rfl | rfl | rfl | rfl <;>
      (obtain rfl := List.mem_singleton.mp hc; decide)
  · refine Or.inr (Or.inr (Or.inr fun w hw c hc => ?_))
    obtain ⟨d, -, rfl⟩ := (mem_lang_cls _ _).mp hw
    exact absurd hc List.not_mem_nil
  · refine Or.inr (Or.inr (Or.inr fun w hw c hc => ?_))
    obtain ⟨u, hu, ds, hds, rfl⟩ := (mem_decimal w).mp hw
    rcases List.mem_append.mp (List.mem_of_mem_tail hc) with hc | hc
    · exact integer_inner hu c hc
    · rcases List.mem_cons.mp hc with rfl | hc
      · decide
      · exact innerChar_of_digit (hds c hc)
  · refine Or.inr (Or.inr (Or.inr fun w hw c hc => ?_))
    obtain ⟨ds, hds, rfl⟩ := (mem_fraction w).mp hw
    exact innerChar_of_digit (hds c hc)
  · refine Or.inr (Or.inr (Or.inr fun w hw c hc => ?_))
    exact integer_inner hw c (List.mem_of_mem_tail hc)
  · exact Or.inr (Or.inl rfl)
  · refine Or.inr (Or.inr (Or.inr fun w hw c hc => ?_))
    obtain ⟨d, v, -, hv, rfl⟩ := (mem_identifier w).mp hw
    exact innerChar_of_wordChar (hv c hc)
  · exact Or.inr (Or.inr (Or.inl rfl))
  · refine Or.inr (Or.inr (Or.inr fun w hw c hc => ?_))
    obtain ⟨d, -, rfl⟩ := (mem_lang_cls _ _).mp hw
    exact absurd hc List.not_mem_nil

/-! The first character of a lexeme. -/

/-- Characters that open a lexeme outside quotes, blanks apart. -/
def firstChar : CharClass :=
  ⟨false, [('A', 'Z'), ('a', 'z'), ('0', '9'), ('_', '_'), ('!', '!')] ++ punctuation.ranges⟩

theorem firstChar_of_keywordChar {c : Char} (h : keywordChar.mem c = true) :
    firstChar.mem c = true := by
  simp only [keywordChar, firstChar, CharClass.mem, List.cons_append, List.any_cons,
    List.any_nil, Bool.or_false, Bool.false_xor, Bool.or_eq_true] at h ⊢
  tauto

theorem firstChar_of_alpha {c : Char} (h : alpha.mem c = true) : firstChar.mem c = true := by
  simp only [alpha, firstChar, CharClass.mem, List.cons_append, List.any_cons,
    List.any_nil, Bool.or_false, Bool.false_xor, Bool.or_eq_true] at h ⊢
  tauto

theorem firstChar_of_digit {c : Char} (h : digit.mem c = true) : firstChar.mem c = true := by
  simp only [digit, firstChar, CharClass.mem, List.cons_append, List.any_cons,
    List.any_nil, Bool.or_false, Bool.false_xor, Bool.or_eq_true] at h ⊢
  tauto

theorem firstChar_of_punctuation {c : Char} (h : punctuation.mem c = true) :
    firstChar.mem c = true := by
  simp only [firstChar, CharClass.mem, List.cons_append, List.any_cons, List.nil_append,
    Bool.false_xor, Bool.or_eq_true]
  simp only [CharClass.mem, punctuation, CharClass.of, Bool.false_xor] at h
  simp only [punctuation, CharClass.of, h, or_true]

theorem integer_first {c : Char} {v : Str} (h : c :: v ∈ integer.lang) :
    firstChar.mem c = true := by
  obtain ⟨ds, hne, hds, hw⟩ := (mem_integer _).mp h
  rcases hw with rfl | hw
  · exact firstChar_of_digit (hds c List.mem_cons_self)
  · obtain ⟨rfl, -⟩ := List.cons_eq_cons.mp hw
    decide

theorem rules_first {r : LexRule} (hr : r ∈ rules) (hq : r.active .INITIAL = true)
    {c : Char} {v : Str} (hw : c :: v ∈ r.pattern.lang) :
    (r = whitespace ∧ blank.mem c = true) ∨ (r = quotedIdentifier ∧ quoteChar.mem c = true) ∨
      (r = string ∧ c = '\'') ∨ r = unknown ∨ firstChar.mem c = true := by
  have hop : ∀ w ∈ [['!', '='], ['<', '>'], ['<', '='], ['>', '='], ['|', '|']],
      (w.head?.all firstChar.mem) = true := by decide
  rcases mem_rules_cases hr with rfl | rfl | rfl | rfl | ⟨k, rfl⟩ | h | rfl | rfl | rfl | rfl |
    rfl | rfl | rfl | rfl
  · have h := (mem_lang_lit _ _).mp hw
    obtain ⟨rfl, -⟩ := List.cons_eq_cons.mp h
    exact Or.inr (Or.inr (Or.inr (Or.inr (by decide))))
  · exact absurd hq (by decide)
  · exact absurd hq (by decide)
  · exact Or.inl ⟨rfl, ((mem_lang_plus_cls _ _).mp hw).2 c List.mem_cons_self⟩
  · have h := (keyword_lang hw).2 c List.mem_cons_self
    simp only [firstChar_of_keywordChar h, or_true]
  · have h := hop _ (operators_lang h hw)
    rw [List.head?_cons, Option.all_some] at h
    simp only [h, or_true]
  · obtain ⟨d, hd, h⟩ := (mem_lang_cls _ _).mp hw
    obtain ⟨rfl, -⟩ := List.cons_eq_cons.mp h
    simp only [firstChar_of_punctuation hd, or_true]
  · obtain ⟨u, hu, ds, -, h⟩ := (mem_decimal _).mp hw
    cases u with
    | nil =>
      obtain ⟨ds, hne, -, h | h⟩ := (mem_integer _).mp hu
      · exact absurd h.symm hne
      · cases h
    | cons d u =>
      rw [List.cons_append, List.cons_eq_cons] at h
      rw [← h.1] at hu
      simp only [integer_first hu, or_true]
  · obtain ⟨ds, -, h⟩ := (mem_fraction _).mp hw
    obtain ⟨rfl, -⟩ := List.cons_eq_cons.mp h
    exact Or.inr (Or.inr (Or.inr (Or.inr (by decide))))
  · simp only [integer_first hw, or_true]
  · obtain ⟨q, b, q', hq, -, -, -, h⟩ := (mem_quotedIdentifier _).mp hw
    obtain ⟨rfl, -⟩ := List.cons_eq_cons.mp h
    exact Or.inr (Or.inl ⟨rfl, hq⟩)
  · obtain ⟨d, u, hd, -, h⟩ := (mem_identifier _).mp hw
    obtain ⟨rfl, -⟩ := List.cons_eq_cons.mp h
    simp only [firstChar_of_alpha hd, or_true]
  · obtain ⟨u, -, h⟩ := (mem_string _).mp hw
    obtain ⟨rfl, -⟩ := List.cons_eq_cons.mp h
    exact Or.inr (Or.inr (Or.inl ⟨rfl, rfl⟩))
  · exact Or.inr (Or.inr (Or.inr (Or.inl rfl)))

theorem quote_rule {r : LexRule} (hr : r ∈ rules) (hq : r.active .INITIAL = true)
    {c : Char} {v : Str} (hc : c = '\'' ∨ quoteChar.mem c = true)
    (hw : c :: v ∈ r.pattern.lang) : r = quotedIdentifier ∨ r = string ∨ r = unknown := by
  have hquote : c = '\'' ∨ c = '"' ∨ c = '`' := by
    simpa [quoteChar] using hc
  have hno : blank.mem c = false ∧ firstChar.mem c = false := by
    rcases hquote with rfl | rfl | rfl <;> decide
  have h := rules_first hr hq hw
  simp only [hno, Bool.false_eq_true, and_false, or_false, false_or] at h
  rcases h with h | h | h
  · exact Or.inl h.1
  · exact Or.inr (Or.inl h.1)
  · exact Or.inr (Or.inr h)

theorem blank_rule {r : LexRule} (hr : r ∈ rules) (hq : r.active .INITIAL = true)
    {c : Char} {v : Str} (hc : blank.mem c = true) (hw : c :: v ∈ r.pattern.lang) :
    r = whitespace ∨ r = unknown := by
  have hblank : c = ' ' ∨ c = '\t' ∨ c = '\n' := by
    simpa [blank] using hc
  have hno : quoteChar.mem c = false ∧ c ≠ '\'' ∧ firstChar.mem c = false := by
    rcases hblank with rfl | rfl | rfl <;> decide
  have h := rules_first hr hq hw
  simp only [hno, Bool.false_eq_true, and_false, or_false, false_or] at h
  exact h.imp_left And.left

/-! Quoted literals. -/

/-- No quoted identifier is a front part of another one. -/
theorem quotedIdentifier_append {u v : Str} (hu : u ∈ quotedIdentifier.pattern.lang)
    (huv : u ++ v ∈ quotedIdentifier.pattern.lang) : v = [] := by
  obtain ⟨q, body, q', hq, hq', hne, hbody, rfl⟩ := (mem_quotedIdentifier u).mp hu
  obtain ⟨p, body', p', hp, hp', hne', hbody', h⟩ := (mem_quotedIdentifier _).mp huv
  rw [List.cons_append, List.append_assoc, List.cons_eq_cons] at h
  rcases List.append_eq_append_iff.mp h.2 with ⟨a, ha, hb⟩ | ⟨a, ha, hb⟩
  · cases a with
    | nil =>
      rw [List.nil_append, List.cons_append, List.nil_append, List.cons_eq_cons] at hb
      exact hb.2
    | cons d a =>
      rw [List.cons_append, List.cons_append, List.nil_append, List.cons_eq_cons] at hb
      have hmem : q' ∈ body' := by
        rw [ha, hb.1]
        exact List.mem_append_right _ List.mem_cons_self
      have hnot := hbody' q' hmem
      simp only [quoteChar, CharClass.mem_of, List.mem_cons, List.not_mem_nil, or_false] at hq'
      rcases hq' with rfl | rfl <;> simp at hnot
  · cases a with
    | nil =>
      rw [List.nil_append, List.cons_append, List.nil_append, List.cons_eq_cons] at hb
      exact hb.2.symm
    | cons d a =>
      rw [List.cons_append, List.cons_eq_cons] at hb
      have hmem : p' ∈ body := by
        rw [ha, hb.1]
        exact List.mem_append_right _ List.mem_cons_self
      have hnot := hbody p' hmem
      simp only [quoteChar, CharClass.mem_of, List.mem_cons, List.not_mem_nil, or_false] at hp'
      rcases hp' with rfl | rfl <;> simp at hnot

theorem string_append {u v : Str} (hu : u ∈ string.pattern.lang) (hv : v ≠ [])
    (huv : u ++ v ∈ string.pattern.lang) : v ∈ string.pattern.lang ∧ v.head? = some '\'' := by
  obtain ⟨x, hx, rfl⟩ := (mem_string u).mp hu
  obtain ⟨y, hy, h⟩ := (mem_string _).mp huv
  obtain ⟨-, rfl⟩ := List.cons_eq_cons.mp h
  obtain ⟨w, hw, rfl⟩ := stringTail_append hx hv hy
  exact ⟨(mem_string _).mpr ⟨w, hw, rfl⟩, rfl⟩

/-! Texts that are lexed completely, without a comment. -/

def NoComment (L : List (Lexeme Start Token)) : Prop := ∀ l ∈ L, ∀ q, l.act ≠ .BEGIN q

instance (L : List (Lexeme Start Token)) : Decidable (NoComment L) :=
  inferInstanceAs (Decidable (∀ l ∈ L, ∀ q, l.act ≠ .BEGIN q))

theorem NoComment.start {q q' : Start} {s s' : Str} {L : List (Lexeme Start Token)}
    (h : Lexes rules q s L q' s') (hL : NoComment L) : q' = q := by
  induction h with
  | refl => rfl
  | cons hm hn hq _ ih =>
    obtain ⟨hl, hL⟩ := List.forall_mem_cons.mp hL
    rw [ih hL]
    dsimp only at hl
    cases hact : Rule.action _ _ with
    | BEGIN p => exact absurd hact (hl p)
    | skip => rw [hact] at hq; exact (Option.some.inj hq).symm
    | token t => rw [hact] at hq; exact (Option.some.inj hq).symm
    | stop => rw [hact] at hq; cases hq

/-- A lexeme that opens with a quote and does not end the input is a quoted literal. -/
theorem first_quote {s : Str} {n : Nat} {r : LexRule} {q' : Start} {c : Char} {v : Str}
    (hm : munch rules .INITIAL s = some (n, r)) (hn : 0 < n)
    (hq : (r.action (s.take n)).next .INITIAL = some q') (hs : s = c :: v)
    (hc : c = '\'' ∨ quoteChar.mem c = true) : r = quotedIdentifier ∨ r = string := by
  obtain ⟨hr, -, hactive, hmem⟩ := munch_length_le hm
  obtain ⟨k, rfl⟩ := Nat.exists_eq_succ_of_ne_zero hn.ne'
  rw [hs, List.take_succ_cons] at hmem
  rcases quote_rule hr hactive hc hmem with rfl | rfl | rfl
  · exact Or.inl rfl
  · exact Or.inr rfl
  · cases hq

/-- No string literal runs from within a complete text into what follows it. -/
theorem string_blocked {u : Str} {N : List (Lexeme Start Token)} {q : Start}
    (h : Lexes rules .INITIAL u N q []) (hN : NoComment N) (hu : u ≠ []) {c : Char} {t : Str}
    (hc : c ≠ '\'' ∨ u.getLast? ≠ some '\'') : string.pattern.Blocked u (c :: t) := by
  intro w hw hpre hmem
  have hhead : w.head? = some c := by
    cases w with
    | nil => exact absurd rfl hw
    | cons d w => rw [(List.cons_prefix_cons.mp hpre).1, List.head?_cons]
  generalize hp : Start.INITIAL = p at h
  generalize hnil : ([] : Str) = e at h
  induction h with
  | refl => exact hu hnil.symm
  | @cons q q' q'' s s'' n r L hm hn hq hL ih =>
    subst hp hnil
    obtain ⟨x, -, hx⟩ := (mem_string _).mp hmem
    cases s with
    | nil => exact hu rfl
    | cons d v =>
      rw [List.cons_append, List.cons_eq_cons] at hx
      obtain ⟨rfl, -⟩ := hx
      have hword := (munch_length_le hm).2.2.2
      obtain ⟨k, rfl⟩ := Nat.exists_eq_succ_of_ne_zero hn.ne'
      rcases first_quote hm hn hq rfl (Or.inl rfl) with rfl | rfl
      · obtain ⟨p, b, p', hp, -, -, -, heq⟩ := (mem_quotedIdentifier _).mp hword
        rw [List.take_succ_cons, List.cons_eq_cons] at heq
        rw [← heq.1] at hp
        exact absurd hp (by decide)
      · obtain ⟨hl, hN⟩ := List.forall_mem_cons.mp hN
        have hq' : q' = .INITIAL := (Option.some.inj hq).symm
        have hsplit := List.take_append_drop (k + 1) ('\'' :: v)
        by_cases hdrop : ('\'' :: v).drop (k + 1) = []
        · rw [hdrop, List.append_nil] at hsplit
          rw [hsplit] at hword
          obtain ⟨-, hquote⟩ := string_append hword hw hmem
          rw [hhead] at hquote
          rcases hc with hc | hc
          · exact hc (Option.some.inj hquote)
          · obtain ⟨y, hy, heq⟩ := (mem_string _).mp hword
            obtain ⟨z, rfl⟩ := stringTail_getLast hy
            rw [heq] at hc
            exact hc (by rw [← List.cons_append, List.getLast?_concat])
        · rw [← hsplit, List.append_assoc] at hmem
          obtain ⟨hrest, -⟩ := string_append hword
            (List.append_ne_nil_of_left_ne_nil hdrop w) hmem
          refine ih hN hdrop ?_ hrest hq'.symm rfl
          rw [← hsplit, List.getLast?_append_of_ne_nil _ hdrop] at hc
          exact hc

theorem quotedIdentifier_blocked {u : Str} {N : List (Lexeme Start Token)} {q : Start}
    (h : Lexes rules .INITIAL u N q []) (hu : u ≠ []) (t : Str) :
    quotedIdentifier.pattern.Blocked u t := by
  intro w hw _ hmem
  cases h with
  | refl => exact hu rfl
  | @cons _ q' _ _ _ n r L hm hn hq hL =>
    obtain ⟨p, b, p', hp, -, -, -, heq⟩ := (mem_quotedIdentifier _).mp hmem
    cases u with
    | nil => exact hu rfl
    | cons d v =>
      rw [List.cons_append, List.cons_eq_cons] at heq
      obtain ⟨rfl, -⟩ := heq
      have hword := (munch_length_le hm).2.2.2
      rcases first_quote hm hn hq rfl (Or.inr hp) with rfl | rfl
      · rw [← List.take_append_drop n (d :: v), List.append_assoc] at hmem
        exact hw (List.append_eq_nil_iff.mp (quotedIdentifier_append hword hmem)).2
      · obtain ⟨k, rfl⟩ := Nat.exists_eq_succ_of_ne_zero hn.ne'
        obtain ⟨y, -, heq⟩ := (mem_string _).mp hword
        rw [List.take_succ_cons, List.cons_eq_cons] at heq
        rw [heq.1] at hp
        exact absurd hp (by decide)

theorem blocked_of_tail {p : Regex} {u : Str} {c : Char} {t : Str} (hu : u ≠ [])
    (h : ∀ w ∈ p.lang, c ∉ w.tail) : p.Blocked u (c :: t) := by
  intro w hw hpre hmem
  cases w with
  | nil => exact hw rfl
  | cons d w =>
    obtain ⟨rfl, -⟩ := List.cons_prefix_cons.mp hpre
    refine h _ hmem ?_
    rw [List.tail_append_of_ne_nil hu]
    exact List.mem_append_right _ List.mem_cons_self

/-- What may follow a complete text `u` without touching its lexemes. -/
structure Delimits (c : Char) (u : Str) : Prop where
  inner : innerChar.mem c = false
  blank : blank.mem c = true → ∃ d ∈ u, blank.mem d = false
  quote : c ≠ '\'' ∨ u.getLast? ≠ some '\''

theorem munch_delimited {u : Str} {N : List (Lexeme Start Token)} {q : Start}
    (h : Lexes rules .INITIAL u N q []) (hN : NoComment N) (hu : u ≠ []) {c : Char} {t : Str}
    (hc : Delimits c u) : munch rules .INITIAL (u ++ c :: t) = munch rules .INITIAL u := by
  refine munch_append fun r hr hq => ?_
  rcases rules_inner hr hq with rfl | rfl | rfl | hinner
  · intro w hw hpre hmem
    have hall := ((mem_lang_plus_cls _ _).mp hmem).2
    cases w with
    | nil => exact hw rfl
    | cons d w =>
      obtain ⟨rfl, -⟩ := List.cons_prefix_cons.mp hpre
      have hd := hall d (List.mem_append_right _ List.mem_cons_self)
      obtain ⟨x, hx, hxb⟩ := hc.blank hd
      rw [hall x (List.mem_append_left _ hx)] at hxb
      cases hxb
  · exact quotedIdentifier_blocked h hu _
  · exact string_blocked h hN hu hc.quote
  · refine blocked_of_tail hu fun w hw hmem => ?_
    have hin := hinner w hw c hmem
    rw [hc.inner] at hin
    cases hin

end Hsql.Lexer
