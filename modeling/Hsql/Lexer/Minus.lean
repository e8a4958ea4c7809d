import Hsql.Lexer.Comments
import Hsql.Lexer.Numbers

/-! A minus sign directly in front of a digit belongs to the number, whatever stands in front of it;
between spaces it is a token of its own. -/

namespace Hsql
open Flex Regex Lexer

theorem minus_notMem_integer {c : Char} {w : Str} (hw : c :: w ∈ integer.lang) : '-' ∉ w := by
  obtain ⟨ds, -, hds, heq⟩ := (mem_integer _).mp hw
  intro hmem
  have hdigit : digit.mem '-' = true := by
    rcases heq with heq | heq
    · exact hds _ (heq ▸ List.mem_cons_of_mem c hmem)
    · exact hds _ ((List.cons_eq_cons.mp heq).2 ▸ hmem)
  exact absurd hdigit (by decide)

/-- A sign inside a string may have spaces around it. -/
theorem stringTail_spaced {u w : Str} (h : u ++ '-' :: w ∈ stringTail.lang) :
    u ++ ' ' :: '-' :: ' ' :: w ∈ stringTail.lang := by
  induction hlen : u.length using Nat.strong_induction_on generalizing u with
  | _ n ih =>
    cases u with
    | nil =>
      have htail := (cons_mem_stringTail (by decide) w).mp h
      have hblank := (cons_mem_stringTail (by decide : ' ' ≠ '\'') w).mpr htail
      have hsign := (cons_mem_stringTail (by decide : '-' ≠ '\'') _).mpr hblank
      exact (cons_mem_stringTail (by decide : ' ' ≠ '\'') _).mpr hsign
    | cons c u =>
      by_cases hc : c = '\''
      · -- the quote is the first of two, since the string goes on
        subst hc
        rcases (quote_mem_stringTail _).mp h with hnil | ⟨v, hv, heq⟩
        · exact absurd hnil (List.append_ne_nil_of_right_ne_nil _ (List.cons_ne_nil _ _))
        · cases u with
          | nil => exact absurd (List.cons_eq_cons.mp heq).1 (by decide)
          | cons d u =>
            obtain ⟨rfl, rfl⟩ := List.cons_eq_cons.mp heq
            refine (quote_mem_stringTail _).mpr (Or.inr ⟨_, ih u.length ?_ hv rfl, rfl⟩)
            rw [← hlen, List.length_cons, List.length_cons]
            omega
      · refine (cons_mem_stringTail hc _).mpr (ih u.length ?_ ((cons_mem_stringTail hc _).mp h) rfl)
        rw [← hlen, List.length_cons]
        omega

/-- Between quotes and in a comment a sign may as well have spaces around it. No other rule matches
a text with a sign behind its first character, but for the start of a comment. -/
theorem rule_minus {r : LexRule} (hr : r ∈ rules) {u w : Str} (hu : u ≠ [])
    (hmem : u ++ '-' :: w ∈ r.pattern.lang) :
    u = ['-'] ∨ u ++ ' ' :: '-' :: ' ' :: w ∈ r.pattern.lang := by
  obtain ⟨c, v, rfl⟩ := List.exists_cons_of_ne_nil hu
  have hbehind : '-' ∈ (c :: v ++ '-' :: w).tail := by simp
  rcases mem_rules_cases hr with rfl | rfl | rfl | rfl | ⟨k, rfl⟩ | hop | rfl | rfl | rfl | rfl |
    rfl | rfl | rfl | rfl
  · have heq := (mem_lang_lit _ _).mp hmem
    obtain ⟨rfl, heq⟩ := List.cons_eq_cons.mp heq
    cases v with
    | nil => exact Or.inl rfl
    | cons d v => simp at heq
  · refine Or.inr ((mem_commentText _).mpr ?_)
    have hline := (mem_commentText _).mp hmem
    simpa using hline
  · have heq := (mem_lang_chr _ _).mp hmem
    simp at heq
  · have hblank := ((mem_lang_plus_cls _ _).mp hmem).2 '-' (List.mem_of_mem_tail hbehind)
    exact absurd hblank (by decide)
  · have hchar := (keyword_lang hmem).2 '-' (List.mem_of_mem_tail hbehind)
    exact absurd hchar (by decide)
  · have hchar := (operators_chars hop hmem).2 '-' (List.mem_of_mem_tail hbehind)
    exact absurd hchar (by decide)
  · obtain ⟨d, -, heq⟩ := (mem_lang_cls _ _).mp hmem
    simp at heq
  · obtain ⟨y, hy, ds, hds, heq⟩ := (mem_decimal _).mp hmem
    obtain ⟨a, ha, -⟩ := digit_mem_integer hy
    obtain ⟨d, y, rfl⟩ := List.exists_cons_of_ne_nil (List.ne_nil_of_mem ha)
    have hrest : v ++ '-' :: w = y ++ '.' :: ds := (List.cons_eq_cons.mp heq).2
    have hsign : '-' ∈ y ++ '.' :: ds := hrest ▸ hbehind
    rcases List.mem_append.mp hsign with h | h
    · exact absurd h (minus_notMem_integer hy)
    · rcases List.mem_cons.mp h with h | h
      · exact absurd h (by decide)
      · exact absurd (hds _ h) (by decide)
  · obtain ⟨ds, hds, heq⟩ := (mem_fraction _).mp hmem
    rw [heq] at hbehind
    exact absurd (hds _ hbehind) (by decide)
  · exact absurd hbehind (minus_notMem_integer hmem)
  · obtain ⟨q, body, q', hq, hq', hne, hbody, heq⟩ := (mem_quotedIdentifier _).mp hmem
    obtain rfl := (List.cons_eq_cons.mp heq).1
    have hrest : v ++ '-' :: w = body ++ [q'] := (List.cons_eq_cons.mp heq).2
    rcases List.eq_nil_or_concat' w with rfl | ⟨x, d, rfl⟩
    · obtain ⟨-, hd⟩ := List.append_inj' hrest rfl
      rw [← List.singleton_inj.mp hd] at hq'
      exact absurd hq' (by decide)
    · obtain ⟨rfl, hd⟩ : v ++ '-' :: x = body ∧ [d] = [q'] := by
        refine List.append_inj' ?_ rfl
        rw [← hrest, List.append_assoc]
        rfl
      obtain rfl := List.singleton_inj.mp hd
      refine Or.inr ((mem_quotedIdentifier _).mpr ⟨c, v ++ ' ' :: '-' :: ' ' :: x, d, hq, hq', ?_, ?_, ?_⟩)
      · exact List.append_ne_nil_of_right_ne_nil _ (List.cons_ne_nil _ _)
      · intro y hy
        rcases List.mem_append.mp hy with hy | hy
        · exact hbody y (List.mem_append_left _ hy)
        · simp only [List.mem_cons] at hy
          rcases hy with rfl | rfl | rfl | hy
          · decide
          · decide
          · decide
          · exact hbody y (List.mem_append_right _ (List.mem_cons_of_mem _ hy))
      · simp
  · obtain ⟨d, x, -, hx, heq⟩ := (mem_identifier _).mp hmem
    rw [heq] at hbehind
    exact absurd (hx _ hbehind) (by decide)
  · obtain ⟨y, hy, heq⟩ := (mem_string _).mp hmem
    obtain ⟨rfl, rfl⟩ := List.cons_eq_cons.mp heq
    exact Or.inr ((mem_string _).mpr ⟨_, stringTail_spaced hy, rfl⟩)
  · obtain ⟨d, -, heq⟩ := (mem_lang_cls _ _).mp hmem
    simp at heq

theorem minus_token {r : LexRule} (hr : r ∈ rules) (hmem : ['-'] ∈ r.pattern.lang) {t : Token}
    (hact : r.action ['-'] = .token t) : t.kind = .ch '-' := by
  rcases token_rule hr hact with ⟨k, rfl, -⟩ | hop | ⟨rfl, -⟩ | ⟨rfl | rfl, -⟩ | ⟨rfl, -⟩ |
    ⟨rfl | rfl, -⟩ | ⟨rfl, -⟩
  · have hchar := (keyword_lang hmem).2 '-' List.mem_cons_self
    exact absurd hchar (by decide)
  · have hchar := (operators_chars hop hmem).2 '-' List.mem_cons_self
    exact absurd hchar (by decide)
  · exact congrArg Token.kind (Flex.Action.token.inj hact).symm
  · obtain ⟨y, hy, ds, -, heq⟩ := (mem_decimal _).mp hmem
    have hpoint : '.' ∈ ['-'] := heq ▸ List.mem_append_right _ List.mem_cons_self
    exact absurd hpoint (by decide)
  · obtain ⟨ds, -, heq⟩ := (mem_fraction _).mp hmem
    exact absurd (List.cons_eq_cons.mp heq).1 (by decide)
  · obtain ⟨d, hd, hdigit⟩ := digit_mem_integer hmem
    obtain rfl := List.mem_singleton.mp hd
    exact absurd hdigit (by decide)
  · obtain ⟨q, body, q', hq, -, -, -, heq⟩ := (mem_quotedIdentifier _).mp hmem
    rw [← (List.cons_eq_cons.mp heq).1] at hq
    exact absurd hq (by decide)
  · obtain ⟨d, v, hd, -, heq⟩ := (mem_identifier _).mp hmem
    rw [← (List.cons_eq_cons.mp heq).1] at hd
    exact absurd hd (by decide)
  · obtain ⟨y, -, heq⟩ := (mem_string _).mp hmem
    exact absurd (List.cons_eq_cons.mp heq).1 (by decide)

/-- What was read in front of a sign between spaces is read in front of one without spaces too. -/
theorem lexes_minus {p : Start} {s u : Str} {L : List (Lexeme Start Token)}
    {l : Lexeme Start Token} {t : Token}
    (h : Lexes rules p s (L ++ [l]) .INITIAL (' ' :: '-' :: ' ' :: u)) (hact : l.act = .token t)
    (ht : t.kind ≠ .ch '-') :
    Lexes rules p (texts (L ++ [l]) ++ '-' :: u) (L ++ [l]) .INITIAL ('-' :: u) := by
  refine h.replace fun M N q hMN hN _ hrun => ?_
  obtain ⟨n, r, l', N', hcons, hm, -, hlen, hn, hrule, -⟩ := hrun.first hN
  have hle : n ≤ (texts N).length := by
    rw [hcons, texts_cons, List.length_append, ← hlen]
    exact Nat.le_add_right _ _
  have hne : texts N ≠ [] := List.length_pos_iff.mp (Nat.lt_of_lt_of_le hn hle)
  have hshort : munch rules q (texts N) = some (n, r) := by
    have htake := munch_take hm hle
    rwa [List.take_left] at htake
  rw [hm, ← hshort]
  refine munch_append fun r' hr' hq w hw hpre hmem => ?_
  obtain ⟨w, rfl⟩ : ∃ v, w = '-' :: v := by
    cases w with
    | nil => exact absurd rfl hw
    | cons d v => exact ⟨v, by rw [(List.cons_prefix_cons.mp hpre).1]⟩
  rcases rule_minus hr' hne hmem with heq | hspaced
  · -- a sign alone is not the token that was read last
    have hlength : (texts N).length = 1 := by rw [heq]; rfl
    have hone : N' = [] := by
      by_contra hN'
      obtain ⟨x, N'', rfl⟩ := List.exists_cons_of_ne_nil hN'
      have hx := hrun.text_ne_nil x (by rw [hcons]; simp)
      rw [hcons, texts_cons, texts_cons, List.length_append, List.length_append, ← hlen] at hlength
      have hpos := List.length_pos_iff.mpr hx
      omega
    rw [hone] at hcons
    obtain ⟨rfl, hl⟩ : L = M ∧ [l] = [l'] := by
      rw [hcons] at hMN
      exact List.append_inj' hMN rfl
    obtain rfl := List.singleton_inj.mp hl
    have hsign : l.text = ['-'] := by
      rw [hcons, texts_cons, texts_nil, List.append_nil] at heq
      exact heq
    obtain ⟨hr, -, -, hword⟩ := munch_length_le hshort
    rw [heq, hlen, hsign] at hword
    rw [hact, hsign] at hrule
    exact ht (minus_token hr hword hrule.symm)
  · -- then the rule would have matched more of the text with spaces
    have hprefix : texts N ++ ' ' :: '-' :: ' ' :: w <+: texts N ++ ' ' :: '-' :: ' ' :: u := by
      rw [List.prefix_append_right_inj]
      simpa using (List.cons_prefix_cons.mp hpre).2
    obtain ⟨m, hlongest, hm'⟩ := Rule.longest_of_mem hq hprefix hspaced
    have hmax := munch_max hm hr' hlongest
    rw [List.length_append, List.length_cons] at hm'
    omega

/-- The sign and the digit behind it begin a number. -/
theorem munch_minus {c : Char} (hc : digit.mem c = true) (v : Str) : ∃ n r t,
    munch rules .INITIAL ('-' :: c :: v) = some (n, r) ∧ 0 < n ∧
      r.action (('-' :: c :: v).take n) = .token t ∧ t.Numeric := by
  have hnumber : ['-', c] ∈ intval.pattern.lang :=
    (mem_integer _).mpr ⟨[c], List.cons_ne_nil _ _, List.forall_mem_singleton.mpr hc, Or.inr rfl⟩
  have hmem : intval ∈ rules := by
    unfold rules
    simp
  obtain ⟨m, hm, hle⟩ := Rule.longest_of_mem (r := intval) (q := .INITIAL) rfl
    (show ['-', c] <+: '-' :: c :: v from ⟨v, rfl⟩) hnumber
  obtain ⟨n, r, hmunch, hmn⟩ := exists_munch hmem hm
  obtain ⟨hr, hn, hactive, hlang⟩ := munch_length_le hmunch
  obtain ⟨k, rfl⟩ : ∃ k, n = k + 2 := ⟨n - 2, by rw [List.length_cons, List.length_singleton] at hle; omega⟩
  rw [List.take_succ_cons, List.take_succ_cons] at hlang
  have hone {K : CharClass} (h : '-' :: c :: v.take k ∈ (cls K).lang) : False := by
    obtain ⟨d, -, heq⟩ := (mem_lang_cls _ _).mp h
    simp at heq
  rcases rule_head hr hactive hlang with ⟨rfl, -⟩ | ⟨-, h⟩ | ⟨-, h⟩ | ⟨-, h⟩ | ⟨rfl, -⟩ |
    ⟨rfl | rfl, -⟩ | ⟨-, h⟩ | ⟨-, h⟩ | ⟨-, h⟩ | ⟨-, h⟩ | rfl
  · have heq := (mem_lang_lit _ _).mp hlang
    obtain rfl := (List.cons_eq_cons.mp (List.cons_eq_cons.mp heq).2).1
    exact absurd hc (by decide)
  · exact absurd h (by decide)
  · exact absurd h (by decide)
  · exact absurd h (by decide)
  · exact (hone hlang).elim
  · exact ⟨_, _, _, hmunch, Nat.succ_pos _, rfl, Or.inr rfl⟩
  · exact ⟨_, _, _, hmunch, Nat.succ_pos _, rfl, Or.inl rfl⟩
  · exact absurd h (by decide)
  · exact absurd h (by decide)
  · exact absurd h (by decide)
  · exact absurd h (by decide)
  · exact (hone hlang).elim

end Hsql
