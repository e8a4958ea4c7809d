import Mathlib
import Hsql.Lexer.Rules

/-! The languages of the lexer's patterns, spelled out on characters. -/

namespace Hsql.Lexer
open Flex Regex

theorem mem_letter (c x : Char) : (letter c).mem x = true ↔ x.toLower = c.toLower := by
  have hmem : (letter c).mem x = true ↔ x = c.toUpper ∨ x = c.toLower := by
    simp only [letter, CharClass.mem, List.any_cons, List.any_nil, Bool.or_false,
      Bool.false_xor, Bool.or_eq_true, CharClass.le_and_le_iff]
  rw [hmem]
  constructor
  · rintro (rfl | rfl)
    · exact Char.toLower_toUpper_eq_toLower c
    · exact Char.toLower_toLower_eq_toLower c
  · intro h
    by_cases hx : x.isUpper = true
    · have hup : x.toUpper = x := Char.toUpper_eq_of_not_isLower (Char.not_isLower_of_isUpper hx)
      left
      rw [← hup, ← Char.toUpper_toLower_eq_toUpper x, h, Char.toUpper_toLower_eq_toUpper]
    · right
      rw [← h, Char.toLower_eq_of_not_isUpper hx]

theorem mem_caseInsensitive (cs w : Str) :
    w ∈ (caseInsensitive cs).lang ↔ w.map Char.toLower = cs.map Char.toLower := by
  induction cs generalizing w with
  | nil => simp [caseInsensitive]
  | cons c cs ih =>
    rw [caseInsensitive, mem_lang_seq_cls]
    simp only [mem_letter, ih]
    constructor
    · rintro ⟨x, v, hx, hv, rfl⟩
      rw [List.map_cons, List.map_cons, hx, hv]
    · intro h
      cases w with
      | nil => simp at h
      | cons x v =>
        obtain ⟨hx, hv⟩ := List.cons_eq_cons.mp h
        exact ⟨x, v, hx, hv, rfl⟩

/-- Letters and the underscore: all that occurs in a keyword. -/
def keywordChar : CharClass := ⟨false, [('A', 'Z'), ('a', 'z'), ('_', '_')]⟩

theorem keywordChar_congr {x c : Char} (h : x.toLower = c.toLower)
    (hc : keywordChar.mem c = true) : keywordChar.mem x = true := by
  have key : ∀ n < 128, keywordChar.mem (Char.ofNat n) = true →
      keywordChar.mem (Char.ofNat n).toUpper = true ∧
        keywordChar.mem (Char.ofNat n).toLower = true := by decide
  have hlt : c.toNat < 128 := by
    simp only [keywordChar, CharClass.mem, List.any_cons, List.any_nil, Bool.or_false,
      Bool.false_xor, Bool.or_eq_true, Bool.and_eq_true, decide_eq_true_eq] at hc
    have hZ : 'Z'.toNat = 90 := rfl
    have hz : 'z'.toNat = 122 := rfl
    have h_ : '_'.toNat = 95 := rfl
    omega
  have hboth := key c.toNat hlt
  rw [Char.ofNat_toNat] at hboth
  obtain ⟨hup, hlow⟩ := hboth hc
  have hx : x = c.toUpper ∨ x = c.toLower := by
    have := (mem_letter c x).mpr h
    simpa only [letter, CharClass.mem, List.any_cons, List.any_nil, Bool.or_false,
      Bool.false_xor, Bool.or_eq_true, CharClass.le_and_le_iff] using this
  rcases hx with rfl | rfl
  · exact hup
  · exact hlow

theorem keyword_text (k : Keyword) :
    k.text ≠ [] ∧ ∀ c ∈ k.text, keywordChar.mem c = true := by
  have key : (Keyword.all.all fun k => !k.text.isEmpty && k.text.all keywordChar.mem) = true := by
    decide
  have hk := List.all_eq_true.mp key k k.mem_all
  simpa using hk

theorem keyword_lang {k : Keyword} {w : Str} (h : w ∈ (caseInsensitive k.text).lang) :
    w ≠ [] ∧ ∀ c ∈ w, keywordChar.mem c = true := by
  rw [mem_caseInsensitive] at h
  obtain ⟨hne, hall⟩ := keyword_text k
  constructor
  · rintro rfl
    exact hne (List.map_eq_nil_iff.mp h.symm)
  · intro c hc
    have hlow : c.toLower ∈ k.text.map Char.toLower := h ▸ List.mem_map_of_mem hc
    obtain ⟨d, hd, hdc⟩ := List.mem_map.mp hlow
    exact keywordChar_congr hdc.symm (hall d hd)

theorem mem_integer (w : Str) : w ∈ integer.lang ↔
    ∃ ds : Str, ds ≠ [] ∧ (∀ c ∈ ds, digit.mem c = true) ∧ (w = ds ∨ w = '-' :: ds) := by
  simp only [integer, mem_lang_seq, mem_lang_opt, mem_lang_chr, mem_lang_plus_cls]
  constructor
  · rintro ⟨_, rfl | rfl, ds, ⟨hne, hall⟩, rfl⟩
    · exact ⟨ds, hne, hall, Or.inl rfl⟩
    · exact ⟨ds, hne, hall, Or.inr rfl⟩
  · rintro ⟨ds, hne, hall, rfl | rfl⟩
    · exact ⟨[], Or.inl rfl, _, ⟨hne, hall⟩, rfl⟩
    · exact ⟨['-'], Or.inr rfl, ds, ⟨hne, hall⟩, rfl⟩

theorem mem_fraction (w : Str) :
    w ∈ fraction.lang ↔ ∃ ds : Str, (∀ c ∈ ds, digit.mem c = true) ∧ w = '.' :: ds := by
  simp only [fraction, mem_lang_seq_chr, mem_lang_star_cls]

theorem mem_decimal (w : Str) : w ∈ decimal.pattern.lang ↔
    ∃ u ∈ integer.lang, ∃ ds : Str, (∀ c ∈ ds, digit.mem c = true) ∧ w = u ++ '.' :: ds := by
  simp only [decimal, always, mem_lang_seq (a := integer), mem_fraction]
  constructor
  · rintro ⟨u, hu, _, ⟨ds, hds, rfl⟩, rfl⟩
    exact ⟨u, hu, ds, hds, rfl⟩
  · rintro ⟨u, hu, ds, hds, rfl⟩
    exact ⟨u, hu, _, ⟨ds, hds, rfl⟩, rfl⟩

theorem mem_identifier (w : Str) : w ∈ identifier.pattern.lang ↔
    ∃ c v, alpha.mem c = true ∧ (∀ d ∈ v, wordChar.mem d = true) ∧ w = c :: v := by
  simp only [identifier, always, mem_lang_seq_cls, mem_lang_star_cls]

theorem mem_quotedIdentifier (w : Str) : w ∈ quotedIdentifier.pattern.lang ↔
    ∃ q body q', quoteChar.mem q = true ∧ quoteChar.mem q' = true ∧ body ≠ [] ∧
      (∀ c ∈ body, c ∉ ['"', '\n', '`']) ∧ w = q :: (body ++ [q']) := by
  simp only [quotedIdentifier, always, mem_lang_seq_cls, mem_lang_seq (a := plus _),
    mem_lang_plus_cls, mem_lang_cls, CharClass.mem_except]
  constructor
  · rintro ⟨q, _, hq, ⟨body, ⟨hne, hbody⟩, _, ⟨q', hq', rfl⟩, rfl⟩, rfl⟩
    exact ⟨q, body, q', hq, hq', hne, hbody, rfl⟩
  · rintro ⟨q, body, q', hq, hq', hne, hbody, rfl⟩
    exact ⟨q, _, hq, ⟨body, ⟨hne, hbody⟩, _, ⟨q', hq', rfl⟩, rfl⟩, rfl⟩

/-! String literals: what follows the opening quote. -/

/-- A string's body and its closing quote. -/
def stringTail : Regex := .seq stringBody (.chr '\'')

theorem nil_notMem_stringTail : [] ∉ stringTail.lang := by
  rw [stringTail, mem_lang_seq]
  rintro ⟨u, -, v, hv, h⟩
  obtain rfl := (mem_lang_chr _ _).mp hv
  simp at h

theorem quote_mem_stringTail (w : Str) :
    '\'' :: w ∈ stringTail.lang ↔ w = [] ∨ ∃ v ∈ stringTail.lang, w = '\'' :: v := by
  rw [stringTail, mem_seq_cons, ← nullable_iff, stringBody, mem_lang_chr, List.cons_eq_cons]
  simp only [mem_star_cons, mem_lang_alt, mem_lang_plus_cls, mem_lang_lit, List.cons_eq_cons]
  constructor
  · rintro (⟨u, ⟨x, hx | hx, y, hy, rfl⟩, v, hv, rfl⟩ | ⟨-, -, rfl⟩)
    · have := hx.2 '\'' List.mem_cons_self
      simp at this
    · obtain rfl := hx.2
      exact Or.inr ⟨y ++ v, (mem_lang_seq _ _ _).mpr ⟨y, hy, v, hv, rfl⟩, rfl⟩
    · exact Or.inl rfl
  · rintro (rfl | ⟨v, hv, rfl⟩)
    · exact Or.inr ⟨rfl, trivial, rfl⟩
    · obtain ⟨y, hy, z, hz, rfl⟩ := (mem_lang_seq _ _ _).mp hv
      exact Or.inl ⟨'\'' :: y, ⟨['\''], Or.inr ⟨trivial, rfl⟩, y, hy, rfl⟩, z, hz, rfl⟩

theorem cons_mem_stringTail {c : Char} (hc : c ≠ '\'') (w : Str) :
    c :: w ∈ stringTail.lang ↔ w ∈ stringTail.lang := by
  have hstar : ∀ v : Str, c :: v ∈ stringBody.lang ↔ v ∈ stringBody.lang := by
    intro v
    rw [stringBody, mem_star_cons]
    simp only [mem_lang_alt, mem_lang_plus_cls, mem_lang_lit, List.cons_eq_cons, hc, false_and,
      or_false]
    constructor
    · rintro ⟨u, ⟨-, hu⟩, y, hy, rfl⟩
      cases u with
      | nil => exact hy
      | cons d u =>
        refine (mem_star_cons _ _ _).mpr ⟨u, Or.inl ?_, y, hy, rfl⟩
        exact (mem_lang_plus_cls _ _).mpr
          ⟨List.cons_ne_nil _ _, fun x hx => hu x (List.mem_cons_of_mem _ hx)⟩
    · intro hv
      exact ⟨[], ⟨List.cons_ne_nil _ _, by simpa using hc⟩, v, hv, rfl⟩
  rw [stringTail, mem_lang_seq, mem_lang_seq]
  constructor
  · rintro ⟨u, hu, v, hv, h⟩
    cases u with
    | nil =>
      obtain rfl := (mem_lang_chr _ _).mp hv
      exact absurd (List.cons_eq_cons.mp h).1.symm hc
    | cons d u =>
      obtain ⟨rfl, rfl⟩ := List.cons_eq_cons.mp h
      exact ⟨u, (hstar u).mp hu, v, hv, rfl⟩
  · rintro ⟨u, hu, v, hv, rfl⟩
    exact ⟨c :: u, (hstar u).mpr hu, v, hv, rfl⟩

theorem mem_string (w : Str) :
    w ∈ string.pattern.lang ↔ ∃ v ∈ stringTail.lang, w = '\'' :: v := by
  rw [string, always, mem_lang_seq_chr, stringTail]

/-- Two literals, one a front part of the other: the longer one goes on with a doubled quote. -/
theorem stringTail_append {u v : Str} (hu : u ∈ stringTail.lang) (hv : v ≠ [])
    (huv : u ++ v ∈ stringTail.lang) : ∃ w ∈ stringTail.lang, v = '\'' :: w := by
  induction hlen : u.length using Nat.strong_induction_on generalizing u with
  | _ n ih =>
    cases u with
    | nil => exact absurd hu nil_notMem_stringTail
    | cons c u =>
      by_cases hc : c = '\''
      · subst hc
        rcases (quote_mem_stringTail u).mp hu with rfl | ⟨u', hu', rfl⟩
        · rcases (quote_mem_stringTail _).mp huv with h | h
          · exact absurd h hv
          · exact h
        · rcases (quote_mem_stringTail _).mp huv with h | ⟨x, hx, h⟩
          · simp at h
          · obtain ⟨-, rfl⟩ := List.cons_eq_cons.mp h
            refine ih u'.length ?_ hu' hx rfl
            rw [← hlen, List.length_cons, List.length_cons]
            omega
      · rw [cons_mem_stringTail hc] at hu
        rw [List.cons_append, cons_mem_stringTail hc] at huv
        refine ih u.length ?_ hu huv rfl
        rw [← hlen, List.length_cons]
        omega

theorem stringTail_getLast {u : Str} (hu : u ∈ stringTail.lang) : ∃ v, u = v ++ ['\''] := by
  obtain ⟨v, -, w, hw, rfl⟩ := (mem_lang_seq _ _ _).mp hu
  exact ⟨v, by rw [(mem_lang_chr _ _).mp hw]⟩

end Hsql.Lexer
