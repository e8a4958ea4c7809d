import Hsql.Lexer.Strings

/-! Writing tokens and lexing them again. Each spelling is matched as a whole by the rule of its
token, and the blanks between two spellings stop every match. -/

namespace Hsql
open Flex Regex Lexer

def lower (w : Str) : Str := w.map Char.toLower

/-- The ways to write a token. -/
inductive Spelled : Str → Token → Prop where
  | keyword {k w} (h : lower w = lower k.text) : Spelled w (.kw k)
  | identifier {c v} (hc : alpha.mem c = true) (hv : ∀ d ∈ v, wordChar.mem d = true)
      (hk : ∀ k : Keyword, lower (c :: v) ≠ lower k.text) : Spelled (c :: v) ⟨.IDENTIFIER, c :: v⟩
  | quotedIdentifier {q q' body} (hq : quoteChar.mem q = true) (hq' : quoteChar.mem q' = true)
      (hne : body ≠ []) (hbody : ∀ c ∈ body, c ∉ ['"', '\n', '`']) :
      Spelled (q :: (body ++ [q'])) ⟨.IDENTIFIER, body⟩
  | string (s) : Spelled (quoted s) ⟨.STRING, escape s⟩
  | integer {w} (hw : w ∈ integer.lang) : Spelled w ⟨.INTVAL, atol w⟩
  | decimal {w ds} (hw : w ∈ integer.lang) (hds : ∀ c ∈ ds, digit.mem c = true) :
      Spelled (w ++ '.' :: ds) ⟨.FLOATVAL, w ++ '.' :: ds⟩
  | notEquals {w} (hw : w = ['!', '='] ∨ w = ['<', '>']) : Spelled w ⟨.NOTEQUALS, ()⟩
  | lessEq : Spelled ['<', '='] ⟨.LESSEQ, ()⟩
  | greaterEq : Spelled ['>', '='] ⟨.GREATEREQ, ()⟩
  | concat : Spelled ['|', '|'] ⟨.CONCAT, ()⟩
  | character {c} (hc : punctuation.mem c = true) : Spelled [c] (.ch c)

/-! Words that a rule cannot match, by the characters in them. -/

def keywordRules : List LexRule := Keyword.all.map keyword

def frontRules : List LexRule := [commentStart, commentText, commentEnd, whitespace]

theorem front_lang {r : LexRule} (hr : r ∈ frontRules) (hq : r.active .INITIAL = true) {w : Str}
    (hw : w ∈ r.pattern.lang) : w = ['-', '-'] ∨ w ≠ [] ∧ ∀ c ∈ w, blank.mem c = true := by
  simp only [frontRules, List.mem_cons, List.not_mem_nil, or_false] at hr
  rcases hr with rfl | rfl | rfl | rfl
  · exact Or.inl ((mem_lang_lit _ _).mp hw)
  · exact absurd hq (by decide)
  · exact absurd hq (by decide)
  · exact Or.inr ((mem_lang_plus_cls _ _).mp hw)

theorem keywordRules_lang {r : LexRule} (hr : r ∈ keywordRules) {w : Str}
    (hw : w ∈ r.pattern.lang) :
    (∃ k, r = keyword k ∧ lower w = lower k.text) ∧ w ≠ [] ∧
      ∀ c ∈ w, keywordChar.mem c = true := by
  obtain ⟨k, -, rfl⟩ := List.mem_map.mp hr
  exact ⟨⟨k, rfl, (mem_caseInsensitive _ _).mp hw⟩, keyword_lang hw⟩

/-- Words of the rules in front of the operators: a class of characters that none of these rules
reads rules them out. -/
theorem words_lang {r : LexRule} (hr : r ∈ frontRules ++ keywordRules)
    (hq : r.active .INITIAL = true) {w : Str} (hw : w ∈ r.pattern.lang) {c : Char} (hc : c ∈ w)
    (hblank : blank.mem c = false) (hkeyword : keywordChar.mem c = false) : w = ['-', '-'] := by
  rcases List.mem_append.mp hr with hr | hr
  · rcases front_lang hr hq hw with h | ⟨-, h⟩
    · exact h
    · rw [h c hc] at hblank
      cases hblank
  · have hall := (keywordRules_lang hr hw).2.2 c hc
    rw [hall] at hkeyword
    cases hkeyword

theorem lower_text_inj {k k' : Keyword} (h : lower k.text = lower k'.text) : k = k' := by
  have key : (Keyword.letters.1.map fun x =>
      (lower x.2).foldl (fun n c => 256 * n + c.toNat) 0).Nodup := by decide +kernel
  rw [Keyword.letters.2, List.map_map] at key
  refine List.inj_on_of_nodup_map key k.mem_all k'.mem_all ?_
  rw [Function.comp_apply, Function.comp_apply, h]

theorem rules_eq : rules = frontRules ++ keywordRules ++ operators ++
    [character, decimal, pointDecimal, intval, quotedIdentifier, identifier, string, unknown] := by
  rfl

theorem munch_keyword {k : Keyword} {w : Str} (h : lower w = lower k.text) :
    munch rules .INITIAL w = some (w.length, keyword k) := by
  obtain ⟨as, bs, hall, hk⟩ := List.eq_append_cons_of_mem k.mem_all
  have hmem : w ∈ (keyword k).pattern.lang := (mem_caseInsensitive _ _).mpr h
  have hsplit : rules = (frontRules ++ as.map keyword) ++ keyword k :: (bs.map keyword ++
      (operators ++ [character, decimal, pointDecimal, intval, quotedIdentifier, identifier,
        string, unknown])) := by
    rw [rules_eq, keywordRules, hall]
    simp only [List.map_append, List.map_cons, List.append_assoc, List.cons_append]
  rw [hsplit]
  refine munch_all _ rfl hmem fun r hr hq hw => ?_
  obtain ⟨hne, hletters⟩ := keyword_lang hmem
  rcases List.mem_append.mp hr with hr | hr
  · rcases front_lang hr hq hw with rfl | ⟨-, hblank⟩
    · exact absurd (hletters '-' List.mem_cons_self) (by decide)
    · obtain ⟨c, hc⟩ := List.exists_mem_of_ne_nil w hne
      have hno := CharClass.mem_of_disjoint (k := keywordChar) (l := blank) (by decide)
        (hletters c hc)
      rw [hblank c hc] at hno
      cases hno
  · obtain ⟨k', hk', rfl⟩ := List.mem_map.mp hr
    have hlow : lower w = lower k'.text := (mem_caseInsensitive _ _).mp hw
    exact hk (lower_text_inj (h.symm.trans hlow) ▸ hk')

theorem munch_identifier {c : Char} {v : Str} (hc : alpha.mem c = true)
    (hv : ∀ d ∈ v, wordChar.mem d = true) (hk : ∀ k : Keyword, lower (c :: v) ≠ lower k.text) :
    munch rules .INITIAL (c :: v) = some ((c :: v).length, identifier) := by
  have hmem : c :: v ∈ identifier.pattern.lang := (mem_identifier _).mpr ⟨c, v, hc, hv, rfl⟩
  have hsplit : rules = (frontRules ++ keywordRules ++ operators ++
      [character, decimal, pointDecimal, intval, quotedIdentifier]) ++
      identifier :: [string, unknown] := by
    rw [rules_eq]
    simp only [List.append_assoc, List.cons_append, List.nil_append]
  have hno (k : CharClass) (hk : alpha.disjoint k = true) : k.mem c = false :=
    CharClass.mem_of_disjoint hk hc
  rw [hsplit]
  refine munch_all _ rfl hmem fun r hr hq hw => ?_
  have hpoint : '.' ∉ c :: v := by
    rintro h
    rcases List.mem_cons.mp h with rfl | h
    · exact absurd hc (by decide)
    · exact absurd (hv _ h) (by decide)
  simp only [List.mem_append, List.mem_cons, List.not_mem_nil, or_false] at hr
  rcases hr with ((hr | hr) | hr) | rfl | rfl | rfl | rfl | rfl
  · rcases front_lang hr hq hw with h | ⟨-, h⟩
    · rw [(List.cons_eq_cons.mp h).1] at hc
      exact absurd hc (by decide)
    · have hblank := h c List.mem_cons_self
      rw [hno blank (by decide)] at hblank
      cases hblank
  · obtain ⟨⟨k, -, hlow⟩, -⟩ := keywordRules_lang hr hw
    exact hk k hlow
  · have hop := operators_lang hr hw
    have hfirst := hno (.of ['!', '<', '>', '|']) (by decide)
    simp only [List.mem_cons, List.not_mem_nil, or_false, List.cons_eq_cons] at hop
    rcases hop with h | h | h | h | h <;> (rw [h.1] at hfirst; exact absurd hfirst (by decide))
  · obtain ⟨d, hd, heq⟩ := (mem_lang_cls _ _).mp hw
    rw [← (List.cons_eq_cons.mp heq).1, hno punctuation (by decide)] at hd
    cases hd
  · obtain ⟨u, -, ds, -, heq⟩ := (mem_decimal _).mp hw
    rw [heq] at hpoint
    exact hpoint (List.mem_append_right _ List.mem_cons_self)
  · obtain ⟨ds, -, heq⟩ := (mem_fraction _).mp hw
    rw [heq] at hpoint
    exact hpoint List.mem_cons_self
  · obtain ⟨ds, hne, hds, heq | heq⟩ := (mem_integer _).mp hw
    · have hd := hds c (heq ▸ List.mem_cons_self)
      rw [hno digit (by decide)] at hd
      cases hd
    · rw [(List.cons_eq_cons.mp heq).1] at hc
      exact absurd hc (by decide)
  · obtain ⟨q, b, q', hquote, -, -, -, heq⟩ := (mem_quotedIdentifier _).mp hw
    rw [← (List.cons_eq_cons.mp heq).1, hno quoteChar (by decide)] at hquote
    cases hquote

theorem digit_mem_integer {w : Str} (hw : w ∈ integer.lang) : ∃ d ∈ w, digit.mem d = true := by
  obtain ⟨ds, hne, hds, heq⟩ := (mem_integer w).mp hw
  obtain ⟨d, hd⟩ := List.exists_mem_of_ne_nil ds hne
  refine ⟨d, ?_, hds d hd⟩
  rcases heq with rfl | rfl
  · exact hd
  · exact List.mem_cons_of_mem _ hd

theorem point_notMem_integer {w : Str} (hw : w ∈ integer.lang) : '.' ∉ w := by
  intro h
  obtain ⟨ds, -, hds, rfl | rfl⟩ := (mem_integer w).mp hw
  · exact absurd (hds _ h) (by decide)
  · rcases List.mem_cons.mp h with h | h
    · simp at h
    · exact absurd (hds _ h) (by decide)

/-- All that occurs in an operator of two characters. -/
def operatorChar : CharClass := .of ['!', '<', '=', '>', '|']

theorem operators_chars {r : LexRule} (hr : r ∈ operators) {w : Str} (hw : w ∈ r.pattern.lang) :
    w.length = 2 ∧ ∀ c ∈ w, operatorChar.mem c = true := by
  have hop := operators_lang hr hw
  simp only [List.mem_cons, List.not_mem_nil, or_false] at hop
  rcases hop with rfl | rfl | rfl | rfl | rfl <;> simp [operatorChar]

theorem munch_integer {w : Str} (hw : w ∈ integer.lang) :
    munch rules .INITIAL w = some (w.length, intval) := by
  have hsplit : rules = (frontRules ++ keywordRules ++ operators ++
      [character, decimal, pointDecimal]) ++
      intval :: [quotedIdentifier, identifier, string, unknown] := by
    rw [rules_eq]
    simp only [List.append_assoc, List.cons_append, List.nil_append]
  obtain ⟨d, hd, hdigit⟩ := digit_mem_integer hw
  have hno (k : CharClass) (hk : digit.disjoint k = true) : k.mem d = false :=
    CharClass.mem_of_disjoint hk hdigit
  rw [hsplit]
  refine munch_all _ rfl hw fun r hr hq hmem => ?_
  simp only [List.mem_append (s := frontRules ++ keywordRules ++ operators),
    List.mem_append (s := frontRules ++ keywordRules), List.mem_cons, List.not_mem_nil,
    or_false] at hr
  rcases hr with (hr | hr) | rfl | rfl | rfl
  · have heq := words_lang hr hq hmem hd (hno blank (by decide)) (hno keywordChar (by decide))
    rw [heq] at hd
    have hminus : d = '-' := by simpa using hd
    rw [hminus] at hdigit
    exact absurd hdigit (by decide)
  · have hop := (operators_chars hr hmem).2 d hd
    rw [hno operatorChar (by decide)] at hop
    cases hop
  · obtain ⟨e, he, rfl⟩ := (mem_lang_cls _ _).mp hmem
    rw [← List.mem_singleton.mp hd, hno punctuation (by decide)] at he
    cases he
  · obtain ⟨u, -, ds, -, heq⟩ := (mem_decimal _).mp hmem
    refine point_notMem_integer hw ?_
    rw [heq]
    exact List.mem_append_right _ List.mem_cons_self
  · obtain ⟨ds, -, heq⟩ := (mem_fraction _).mp hmem
    refine point_notMem_integer hw ?_
    rw [heq]
    exact List.mem_cons_self

theorem munch_decimal {u ds : Str} (hu : u ∈ integer.lang) (hds : ∀ c ∈ ds, digit.mem c = true) :
    munch rules .INITIAL (u ++ '.' :: ds) = some ((u ++ '.' :: ds).length, decimal) := by
  have hmem : u ++ '.' :: ds ∈ decimal.pattern.lang := (mem_decimal _).mpr ⟨u, hu, ds, hds, rfl⟩
  have hsplit : rules = (frontRules ++ keywordRules ++ operators ++ [character]) ++
      decimal :: [pointDecimal, intval, quotedIdentifier, identifier, string, unknown] := by
    rw [rules_eq]
    simp only [List.append_assoc, List.cons_append, List.nil_append]
  have hpoint : '.' ∈ u ++ '.' :: ds := List.mem_append_right _ List.mem_cons_self
  rw [hsplit]
  refine munch_all _ rfl hmem fun r hr hq hw => ?_
  simp only [List.mem_append (s := frontRules ++ keywordRules ++ operators),
    List.mem_append (s := frontRules ++ keywordRules), List.mem_cons, List.not_mem_nil,
    or_false] at hr
  rcases hr with (hr | hr) | rfl
  · rw [words_lang hr hq hw hpoint (by decide) (by decide)] at hpoint
    exact absurd hpoint (by decide)
  · exact absurd ((operators_chars hr hw).2 _ hpoint) (by decide)
  · obtain ⟨e, -, heq⟩ := (mem_lang_cls _ _).mp hw
    have hlen := congrArg List.length heq
    obtain ⟨d, hd, -⟩ := digit_mem_integer hu
    have hpos := List.length_pos_of_mem hd
    rw [List.length_append, List.length_cons, List.length_singleton] at hlen
    omega

theorem munch_operator (as : List LexRule) {bs : List LexRule} {r : LexRule} {w : Str}
    (hsplit : operators = as ++ r :: bs) (hq : r.active .INITIAL = true)
    (hw : w ∈ r.pattern.lang) (has : ∀ r' ∈ as, w ∉ r'.pattern.lang) :
    munch rules .INITIAL w = some (w.length, r) := by
  have hrules : rules = (frontRules ++ keywordRules ++ as) ++ r :: (bs ++ [character, decimal,
      pointDecimal, intval, quotedIdentifier, identifier, string, unknown]) := by
    rw [rules_eq, hsplit]
    simp only [List.append_assoc, List.cons_append]
  obtain ⟨hlen, hchars⟩ := operators_chars (hsplit ▸ by simp) hw
  obtain ⟨c, hc⟩ := List.exists_mem_of_length_pos (hlen ▸ Nat.zero_lt_two)
  rw [hrules]
  refine munch_all _ hq hw fun r' hr' hq' hmem => ?_
  rcases List.mem_append.mp hr' with hr' | hr'
  · have hno (k : CharClass) (hk : operatorChar.disjoint k = true) : k.mem c = false :=
      CharClass.mem_of_disjoint hk (hchars c hc)
    rw [words_lang hr' hq' hmem hc (hno blank (by decide)) (hno keywordChar (by decide))]
      at hchars
    exact absurd (hchars '-' List.mem_cons_self) (by decide)
  · exact has r' hr' hmem

theorem munch_character {c : Char} (hc : punctuation.mem c = true) :
    munch rules .INITIAL [c] = some (1, character) := by
  have hmem : [c] ∈ character.pattern.lang := (mem_lang_cls _ _).mpr ⟨c, hc, rfl⟩
  have hsplit : rules = (frontRules ++ keywordRules ++ operators) ++ character ::
      [decimal, pointDecimal, intval, quotedIdentifier, identifier, string, unknown] := rules_eq
  have hno (k : CharClass) (hk : punctuation.disjoint k = true) : k.mem c = false :=
    CharClass.mem_of_disjoint hk hc
  rw [hsplit]
  refine munch_all _ rfl hmem fun r hr hq hw => ?_
  rcases List.mem_append.mp hr with hr | hr
  · have heq := words_lang hr hq hw List.mem_cons_self (hno blank (by decide))
      (hno keywordChar (by decide))
    simp at heq
  · have hlen := (operators_chars hr hw).1
    simp at hlen

theorem mem_rules_quotedIdentifier : quotedIdentifier ∈ rules := by
  simp [rules]

/-- A quoted identifier is chosen as a whole, whatever follows it. -/
theorem munch_quotedName {v : Str} (hv : v ∈ quotedIdentifier.pattern.lang) (t : Str) :
    munch rules .INITIAL (v ++ t) = some (v.length, quotedIdentifier) := by
  obtain ⟨m, hm, hle⟩ := Rule.longest_of_mem (r := quotedIdentifier) (q := .INITIAL) rfl
    ⟨t, rfl⟩ hv
  obtain ⟨n, r, hmunch, hmn⟩ := exists_munch mem_rules_quotedIdentifier hm
  obtain ⟨hr, hn, hactive, hmem⟩ := munch_length_le hmunch
  have hlen := hle.trans hmn
  rw [prefix_of_le_length hlen] at hmem
  obtain ⟨q, body, q', hquote, -, -, -, hv'⟩ := (mem_quotedIdentifier v).mp hv
  have hfirst : q :: (body ++ [q'] ++ t.take (n - v.length)) ∈ r.pattern.lang := by
    rwa [← List.cons_append, ← hv']
  rcases quote_rule hr hactive (Or.inr hquote) hfirst with rfl | rfl | rfl
  · have hrest := quotedIdentifier_append hv hmem
    have heq : n = v.length := by
      rcases List.take_eq_nil_iff.mp hrest with h | rfl
      · omega
      · rw [List.append_nil] at hn
        exact hn.antisymm hlen
    rw [hmunch, heq]
  · obtain ⟨x, -, heq⟩ := (mem_string _).mp hfirst
    rw [(List.cons_eq_cons.mp heq).1] at hquote
    exact absurd hquote (by decide)
  · -- the catch-all matches one character, a quoted identifier at least three
    obtain ⟨d, -, heq⟩ := (mem_lang_cls _ _).mp hfirst
    simp at heq

theorem munch_quotedIdentifier {w : Str} (hw : w ∈ quotedIdentifier.pattern.lang) :
    munch rules .INITIAL w = some (w.length, quotedIdentifier) := by
  have hall := munch_quotedName hw []
  rwa [List.append_nil] at hall

theorem substr_inner (c d : Char) (body : Str) :
    substr (c :: (body ++ [d])) 1 ((c :: (body ++ [d])).length - 1) = body := by
  simp [substr]

/-- Every spelling is a match of one rule, and that rule's action is the token. -/
theorem Spelled.munch {w : Str} {t : Token} (h : Spelled w t) :
    ∃ r, Flex.munch rules .INITIAL w = some (w.length, r) ∧ r.action w = .token t := by
  cases h with
  | keyword h => exact ⟨_, munch_keyword h, rfl⟩
  | identifier hc hv hk => exact ⟨_, munch_identifier hc hv hk, rfl⟩
  | @quotedIdentifier q q' body hq hq' hne hbody =>
    have hw := (mem_quotedIdentifier _).mpr ⟨q, body, q', hq, hq', hne, hbody, rfl⟩
    refine ⟨_, munch_quotedIdentifier hw, ?_⟩
    have hbody := substr_inner q q' body
    simp only [Lexer.quotedIdentifier, always]
    rw [hbody]
  | string s =>
    have hmunch := munch_string (t := []) (quoted_mem s) (by simp)
    rw [List.append_nil] at hmunch
    refine ⟨_, hmunch, ?_⟩
    have hbody := substr_inner '\'' '\'' (escape s)
    simp only [Lexer.string, always, quoted]
    rw [hbody]
  | integer hw => exact ⟨_, munch_integer hw, rfl⟩
  | decimal hw hds => exact ⟨_, munch_decimal hw hds, rfl⟩
  | notEquals hw =>
    rcases hw with rfl | rfl
    · exact ⟨_, munch_operator [] rfl rfl (by simp [always]) (by simp), rfl⟩
    · exact ⟨_, munch_operator (operators.take 1) rfl rfl (by simp [always])
        (by simp [operators, always]), rfl⟩
  | lessEq =>
    exact ⟨_, munch_operator (operators.take 2) rfl rfl (by simp [always])
      (by simp [operators, always]), rfl⟩
  | greaterEq =>
    exact ⟨_, munch_operator (operators.take 3) rfl rfl (by simp [always])
      (by simp [operators, always]), rfl⟩
  | concat =>
    exact ⟨_, munch_operator (operators.take 4) rfl rfl (by simp [always])
      (by simp [operators, always]), rfl⟩
  | character hc => exact ⟨_, munch_character hc, rfl⟩

theorem Spelled.ne_nil {w : Str} {t : Token} (h : Spelled w t) : w ≠ [] := by
  cases h with
  | keyword h => exact (keyword_lang ((mem_caseInsensitive _ _).mpr h)).1
  | identifier => exact List.cons_ne_nil _ _
  | quotedIdentifier => exact List.cons_ne_nil _ _
  | string => exact List.cons_ne_nil _ _
  | integer hw => exact List.ne_nil_of_mem (digit_mem_integer hw).choose_spec.1
  | decimal => exact List.append_ne_nil_of_right_ne_nil _ (List.cons_ne_nil _ _)
  | notEquals hw => rcases hw with rfl | rfl <;> exact List.cons_ne_nil _ _
  | lessEq => exact List.cons_ne_nil _ _
  | greaterEq => exact List.cons_ne_nil _ _
  | concat => exact List.cons_ne_nil _ _
  | character => exact List.cons_ne_nil _ _

/-- A spelling does not open with a blank: only whitespace and the catch-all rule do. -/
theorem Spelled.head {w : Str} {t : Token} (h : Spelled w t) :
    ∀ c ∈ w.head?, blank.mem c = false := by
  intro c hc
  obtain ⟨v, rfl⟩ : ∃ v, w = c :: v := by
    cases w with
    | nil => exact absurd rfl h.ne_nil
    | cons d v => exact ⟨v, by rw [Option.mem_some_iff.mp hc]⟩
  obtain ⟨r, hmunch, haction⟩ := h.munch
  obtain ⟨hr, -, hactive, hmem⟩ := munch_length_le hmunch
  rw [List.take_length] at hmem
  by_contra hblank
  rw [Bool.not_eq_false] at hblank
  rcases blank_rule hr hactive hblank hmem with rfl | rfl
  · cases haction
  · cases haction

theorem Spelled.lexes {w : Str} {t : Token} (h : Spelled w t) {rest : Str}
    (hrest : ∀ c ∈ rest.head?, blank.mem c = true) :
    Lexes rules .INITIAL (w ++ rest) [⟨w, .token t⟩] .INITIAL rest := by
  obtain ⟨r, hmunch, haction⟩ := h.munch
  have hpos : 0 < w.length := List.length_pos_iff.mpr h.ne_nil
  have hword : Lexes rules .INITIAL w [⟨w, .token t⟩] .INITIAL [] := by
    have hone := Lexes.single .INITIAL hmunch hpos
      (by rw [List.take_length, haction]; rfl)
    rwa [List.take_length, List.drop_length, haction] at hone
  have hno : NoComment [(⟨w, .token t⟩ : Lexeme Start Token)] := by
    intro l hl q
    rw [List.mem_singleton.mp hl]
    exact fun h => by cases h
  have hmunch' : Flex.munch rules .INITIAL (w ++ rest) = some (w.length, r) := by
    cases rest with
    | nil => rwa [List.append_nil]
    | cons c rest =>
      have hc := hrest c rfl
      rw [munch_delimited hword hno h.ne_nil, hmunch]
      have hsingle : c = ' ' ∨ c = '\t' ∨ c = '\n' := by
        simpa [blank] using hc
      refine ⟨?_, fun _ => ?_, Or.inl ?_⟩
      · exact CharClass.mem_of_disjoint (k := blank) (by decide) hc
      · obtain ⟨d, v, hd⟩ := List.exists_cons_of_ne_nil h.ne_nil
        exact ⟨d, hd ▸ List.mem_cons_self, h.head d (hd ▸ rfl)⟩
      · rcases hsingle with rfl | rfl | rfl <;> decide
  have hone := Lexes.single .INITIAL hmunch' hpos
    (by rw [List.take_left, haction]; rfl)
  rwa [List.take_left, List.drop_left, haction] at hone

/-- One written token: its spelling behind a run of blanks. -/
structure Written where
  gap : Str
  word : Str
  token : Token
  gap_blank : ∀ c ∈ gap, blank.mem c = true
  spelled : Spelled word token

namespace Written

def text (x : Written) : Str := x.gap ++ x.word

/-- Spellings with blanks between any two of them. -/
def Separated (ws : List Written) : Prop := ∀ x ∈ ws.tail, x.gap ≠ []

theorem head_blank {x : Written} (hx : x.gap ≠ []) (t : Str) :
    ∀ c ∈ (x.text ++ t).head?, blank.mem c = true := by
  intro c hc
  obtain ⟨d, v, hd⟩ := List.exists_cons_of_ne_nil hx
  rw [text, hd, List.cons_append, List.cons_append, List.head?_cons] at hc
  have hmem := x.gap_blank d (hd ▸ List.mem_cons_self)
  rwa [Option.mem_some_iff.mp hc] at hmem

theorem lexes {ws : List Written} (h : Separated ws) {trail : Str}
    (htrail : ∀ c ∈ trail, blank.mem c = true) :
    ∃ L, Lexes rules .INITIAL (ws.flatMap text ++ trail) L .INITIAL [] ∧
      Flex.tokens L = ws.map token := by
  induction ws with
  | nil =>
    obtain ⟨L, hL, htokens⟩ := lexes_blank (t := []) htrail (by simp)
    rw [List.append_nil] at hL
    exact ⟨L, hL, htokens⟩
  | cons x ws ih =>
    have hrest : ∀ c ∈ (ws.flatMap text ++ trail).head?, blank.mem c = true := by
      cases ws with
      | nil => exact fun c hc => htrail c (List.mem_of_mem_head? hc)
      | cons y ws =>
        rw [List.flatMap_cons, List.append_assoc]
        exact head_blank (h y List.mem_cons_self) _
    obtain ⟨L, hL, htokens⟩ := ih fun y hy => h y (List.mem_of_mem_tail hy)
    have hword := x.spelled.lexes hrest
    have hhead : ∀ c ∈ (x.word ++ (ws.flatMap text ++ trail)).head?, blank.mem c = false := by
      rw [List.head?_append_of_ne_nil _ x.spelled.ne_nil]
      exact x.spelled.head
    obtain ⟨G, hG, hgap⟩ := lexes_blank x.gap_blank hhead
    refine ⟨G ++ ([⟨x.word, .token x.token⟩] ++ L), ?_, ?_⟩
    · rw [List.flatMap_cons, text, List.append_assoc, List.append_assoc]
      exact hG.trans (hword.trans hL)
    · rw [Flex.tokens_append, Flex.tokens_append, hgap, htokens]
      rfl

theorem tokens_eq {ws : List Written} (h : Separated ws) {trail : Str}
    (htrail : ∀ c ∈ trail, blank.mem c = true) (hnul : ∀ x ∈ ws, '\x00' ∉ x.word) :
    tokens (ws.flatMap text ++ trail) = ws.map token := by
  obtain ⟨L, hL, htokens⟩ := lexes h htrail
  have hblank : ∀ u : Str, (∀ c ∈ u, blank.mem c = true) → '\x00' ∉ u := by
    intro u hu hmem
    exact absurd (hu _ hmem) (by decide)
  have hcut : cStr (ws.flatMap text ++ trail) = ws.flatMap text ++ trail := by
    rw [cStr_eq_self_iff, List.mem_append, List.mem_flatMap]
    rintro (⟨x, hx, hmem⟩ | hmem)
    · rcases List.mem_append.mp hmem with hmem | hmem
      · exact hblank _ x.gap_blank hmem
      · exact hnul x hx hmem
    · exact hblank _ htrail hmem
  rw [← hcut] at hL
  rw [tokens, lexemes_of_lexes hL, scan_nil, List.append_nil, htokens]

theorem tokens_text (ws : List Written) (h : Separated ws) (trail : Str)
    (htrail : ∀ c ∈ trail, blank.mem c = true) (hnul : ∀ x ∈ ws, '\x00' ∉ x.word) :
    tokens (ws.flatMap text ++ trail) = ws.map token := tokens_eq h htrail hnul

/-- `sql.c_str()` ends at a NUL, so a literal with a NUL in it is not even closed. -/
theorem tokens_text_nul :
    ¬ ∀ ws : List Written, Separated ws → tokens (ws.flatMap text) = ws.map token := by
  intro h
  have hnul := h [⟨[], quoted ['\x00'], ⟨.STRING, escape ['\x00']⟩, by simp, .string _⟩]
    (by simp [Separated])
  have hempty : tokens (quoted ['\x00']) = [] := by
    rw [tokens, lexemes_rulesAt]
    rfl
  simp only [List.flatMap_cons, List.flatMap_nil, text, List.nil_append, List.append_nil,
    List.map_cons, List.map_nil, hempty] at hnul
  cases hnul

theorem tokens_text_select :
    tokens "Select\t'it''s' ".toList = [.kw .SELECT, ⟨.STRING, "it''s".toList⟩] :=
  tokens_text [⟨[], "Select".toList, .kw .SELECT, by simp, .keyword (by decide +kernel)⟩,
      ⟨['\t'], quoted "it's".toList, ⟨.STRING, escape "it's".toList⟩,
        List.forall_mem_singleton.mpr (by decide), .string _⟩]
    (by simp [Separated]) [' '] (List.forall_mem_singleton.mpr (by decide))
    (by decide)

end Written

end Hsql
