import Hsql.Lexer.Complete

/-! A comment, and the newline in its place. `COMMENT` is an inclusive start condition, so the
whitespace and string rules compete with the comment's own rules; the comment ends with its
newline only where neither of them matches more. -/

namespace Hsql
open Flex Regex Lexer

def comment (c : Str) : Str := '-' :: '-' :: (c ++ ['\n'])

/-- A string opened in `x` and still open behind it is closed by the next quote. -/
theorem stringTail_open {x : Str} {d : Char} {w : Str} (hd : d ≠ '\'')
    (h : x ++ d :: w ∈ stringTail.lang) (y : Str) :
    x ++ y ∈ stringTail.lang ↔ y ∈ stringTail.lang := by
  induction hlen : x.length using Nat.strong_induction_on generalizing x with
  | _ n ih =>
    cases x with
    | nil => rfl
    | cons c x =>
      by_cases hc : c = '\''
      · subst hc
        rcases (quote_mem_stringTail _).mp h with h | ⟨v, hv, h⟩
        · exact absurd h (List.append_ne_nil_of_right_ne_nil _ (List.cons_ne_nil _ _))
        · cases x with
          | nil => exact absurd (List.cons_eq_cons.mp h).1 hd
          | cons e x =>
            obtain ⟨rfl, rfl⟩ := List.cons_eq_cons.mp h
            have hlt : x.length < n := by
              rw [← hlen, List.length_cons, List.length_cons]
              omega
            rw [← ih x.length hlt hv rfl, List.cons_append, List.cons_append, quote_mem_stringTail]
            simp
      · rw [List.cons_append, cons_mem_stringTail hc] at h ⊢
        refine ih x.length ?_ h rfl
        rw [← hlen, List.length_cons]
        omega

theorem exists_stringTail {y : Str} (hy : '\'' ∈ y) : ∃ v, v ≠ [] ∧ v <+: y ∧
    v ∈ stringTail.lang := by
  induction y with
  | nil => exact absurd hy List.not_mem_nil
  | cons c y ih =>
    by_cases hc : c = '\''
    · refine ⟨[c], List.cons_ne_nil _ _, ⟨y, rfl⟩, ?_⟩
      rw [hc]
      exact (quote_mem_stringTail []).mpr (Or.inl rfl)
    · rcases List.mem_cons.mp hy with h | h
      · exact absurd h.symm hc
      · obtain ⟨v, hne, ⟨t, rfl⟩, hv⟩ := ih h
        exact ⟨c :: v, List.cons_ne_nil _ _, ⟨t, rfl⟩, (cons_mem_stringTail hc _).mpr hv⟩

/-- Where a match before `t` did not run into it, no string runs into a text with no more quotes
than `t` either. -/
theorem string_blocked_of_munch {p : Start} {u t t' : Str} {n : Nat} {r : LexRule}
    (hm : munch rules p (u ++ t) = some (n, r)) (hn : n ≤ u.length) (hu : u ≠ [])
    (hquote : '\'' ∈ t' → '\'' ∈ t) (hhead : t'.head? ≠ some '\'') :
    string.pattern.Blocked u t' := by
  intro w hw hpre hmem
  obtain ⟨d, v, rfl⟩ := List.exists_cons_of_ne_nil hw
  obtain ⟨c, x, rfl⟩ := List.exists_cons_of_ne_nil hu
  have hd : d ≠ '\'' := by
    obtain ⟨z, rfl⟩ := hpre
    rintro rfl
    exact hhead rfl
  obtain ⟨y, hy, heq⟩ := (mem_string _).mp hmem
  rw [List.cons_append, List.cons_eq_cons] at heq
  obtain ⟨rfl, rfl⟩ := heq
  have hopen := stringTail_open hd hy
  have hlast : '\'' ∈ d :: v := by
    obtain ⟨z, hz⟩ := stringTail_getLast ((hopen _).mp hy)
    rw [hz]
    simp
  obtain ⟨z, hz, hzt, hzmem⟩ := exists_stringTail (hquote (hpre.subset hlast))
  have hlong : '\'' :: x ++ z ∈ string.pattern.lang :=
    (mem_string _).mpr ⟨x ++ z, (hopen z).mpr hzmem, rfl⟩
  have hprefix : '\'' :: x ++ z <+: '\'' :: x ++ t := (List.prefix_append_right_inj _).mpr hzt
  obtain ⟨m, hm', hle⟩ := Rule.longest_of_mem (r := string) (q := p) rfl hprefix hlong
  have hmax := munch_max hm mem_rules_string hm'
  have hpos := List.length_pos_iff.mpr hz
  rw [List.length_append] at hle
  omega

theorem active_or_comment {r : LexRule} (hr : r ∈ rules) :
    r.active .INITIAL = true ∨ r = commentText ∨ r = commentEnd := by
  rcases mem_rules_cases hr with rfl | rfl | rfl | rfl | ⟨k, rfl⟩ | h | rfl | rfl | rfl | rfl |
    rfl | rfl | rfl | rfl
  case inr.inl => exact Or.inr (Or.inl rfl)
  case inr.inr.inl => exact Or.inr (Or.inr rfl)
  case inr.inr.inr.inr.inr.inl =>
    simp only [operators, List.mem_cons, List.not_mem_nil, or_false] at h
    rcases h with rfl | rfl | rfl | rfl | rfl <;> exact Or.inl rfl
  all_goals exact Or.inl rfl

theorem newline_blocked {p : Start} {r : LexRule} (hr : r ∈ rules) (hq : r.active p = true)
    {u : Str} (hu : u ≠ []) (t : Str) :
    r = whitespace ∨ r = string ∨ r.pattern.Blocked u ('\n' :: t) := by
  have htail (h : ∀ w ∈ r.pattern.lang, '\n' ∉ w.tail) : r.pattern.Blocked u ('\n' :: t) :=
    blocked_of_tail hu h
  by_cases hactive : r.active .INITIAL = true
  · rcases rules_inner hr hactive with rfl | rfl | rfl | hinner
    · exact Or.inl rfl
    · refine Or.inr (Or.inr (htail fun w hw hmem => ?_))
      obtain ⟨q, body, q', -, hq', -, hbody, rfl⟩ := (mem_quotedIdentifier w).mp hw
      rcases List.mem_append.mp hmem with hmem | hmem
      · exact hbody _ hmem (by simp)
      · rw [← List.mem_singleton.mp hmem] at hq'
        exact absurd hq' (by decide)
    · exact Or.inr (Or.inl rfl)
    · refine Or.inr (Or.inr (htail fun w hw hmem => ?_))
      exact absurd (hinner w hw _ hmem) (by decide)
  · have hcomment := (active_or_comment hr).resolve_left hactive
    refine Or.inr (Or.inr (htail fun w hw hmem => ?_))
    rcases hcomment with rfl | rfl
    · have hall := (mem_lang_star_cls _ _).mp hw '\n' (List.mem_of_mem_tail hmem)
      simp at hall
    · rw [(mem_lang_chr _ _).mp hw] at hmem
      simp at hmem

theorem whitespace_blocked {u : Str} (hu : ∃ d ∈ u, blank.mem d = false) (t : Str) :
    whitespace.pattern.Blocked u t := by
  intro w hw hpre hmem
  obtain ⟨d, hd, hblank⟩ := hu
  rw [((mem_lang_plus_cls _ _).mp hmem).2 d (List.mem_append_left _ hd)] at hblank
  cases hblank

/-- In front of a newline a match ends, unless it is whitespace or an open string. -/
theorem munch_newline {p : Start} {u t : Str} (hu : ∃ d ∈ u, blank.mem d = false)
    (hstring : string.pattern.Blocked u ('\n' :: t)) :
    munch rules p (u ++ '\n' :: t) = munch rules p u := by
  have hne : u ≠ [] := List.ne_nil_of_mem hu.choose_spec.1
  refine munch_append fun r hr hq => ?_
  rcases newline_blocked hr hq hne t with rfl | rfl | h
  · exact whitespace_blocked hu _
  · exact hstring
  · exact h

/-! The text with the newline in place of the comment. -/

theorem munch_newline_of_munch {p : Start} {u t X : Str} {n : Nat} {r : LexRule}
    (hm : munch rules p (u ++ t) = some (n, r)) (hn : n ≤ u.length)
    (hu : ∃ d ∈ u, blank.mem d = false) (hquote : '\'' ∈ X → '\'' ∈ t) :
    munch rules p (u ++ '\n' :: X) = munch rules p (u ++ t) := by
  have hne : u ≠ [] := List.ne_nil_of_mem hu.choose_spec.1
  have hstring : string.pattern.Blocked u ('\n' :: X) := by
    refine string_blocked_of_munch hm hn hne (fun h => hquote ?_) (by simp)
    simpa using h
  have hcut := munch_take hm hn
  rw [List.take_left] at hcut
  rw [munch_newline hu hstring, hcut, hm]

theorem lexes_newline {L : List (Lexeme Start Token)} {t b X : Str}
    (h : Lexes rules .INITIAL (texts L ++ t) L .INITIAL t)
    (hlast : ∀ l ∈ L.getLast?, l.act ≠ .BEGIN .INITIAL) (hb : ∀ c ∈ b, blank.mem c = true)
    (hX : ∀ c ∈ X.head?, blank.mem c = false) (hquote : '\'' ∈ X → '\'' ∈ t) :
    ∃ M, Lexes rules .INITIAL (texts L ++ '\n' :: (b ++ X)) M .INITIAL X ∧
      Flex.tokens M = Flex.tokens L := by
  have hnewline : ∀ c ∈ '\n' :: b, blank.mem c = true :=
    List.forall_mem_cons.mpr ⟨by decide, hb⟩
  have hquote' : '\'' ∈ b ++ X → '\'' ∈ t := by
    intro hmem
    rcases List.mem_append.mp hmem with hmem | hmem
    · exact absurd (hb _ hmem) (by decide)
    · exact hquote hmem
  rcases List.eq_nil_or_concat L with rfl | ⟨L₀, l, rfl⟩
  · exact lexes_blank hnewline hX
  · rw [List.concat_eq_append] at h hlast ⊢
    rw [List.getLast?_concat] at hlast
    by_cases hl : ∃ d ∈ l.text, blank.mem d = false
    · -- the last lexeme keeps its end, and so do those before it
      have hrun := h.replace (t := '\n' :: (b ++ X)) fun M N p hMN hN _ hN' => ?_
      · obtain ⟨B, hB, htokens⟩ := lexes_blank hnewline hX
        refine ⟨_, hrun.trans hB, ?_⟩
        rw [Flex.tokens_append, htokens, List.append_nil]
      · obtain ⟨n, r, l₁, N', rfl, hm, -, hlen, -⟩ := hN'.first hN
        refine munch_newline_of_munch hm ?_ ?_ hquote'
        · rw [hlen, texts_cons, List.length_append]
          exact Nat.le_add_right _ _
        · obtain ⟨d, hd, hblank⟩ := hl
          have hmem : l ∈ l₁ :: N' := by
            have hsuffix := congrArg List.getLast? hMN
            rw [List.getLast?_concat, List.getLast?_append_of_ne_nil _ hN] at hsuffix
            exact List.mem_of_getLast? hsuffix.symm
          exact ⟨d, List.mem_flatMap.mpr ⟨l, hmem, hd⟩, hblank⟩
    · -- the last lexeme is whitespace and takes in the newline
      have hblank : ∀ d ∈ l.text, blank.mem d = true := by
        intro d hd
        by_contra hne
        exact hl ⟨d, hd, by simpa using hne⟩
      obtain ⟨p, s, hL₀, hone, hs⟩ := h.split
      rw [texts_cons, texts_nil, List.append_nil] at hs
      subst hs
      obtain ⟨n, r, l', M, heq, hm, hword, hlen, hpos, hact, q, hq, hend⟩ :=
        hone.first (List.cons_ne_nil _ _)
      obtain ⟨rfl, rfl⟩ := List.cons_eq_cons.mp heq
      obtain rfl : q = .INITIAL := by
        cases hend
        rfl
      have hl₀ : l.text ≠ [] := List.length_pos_iff.mp (hlen ▸ hpos)
      have hp : p = .INITIAL ∧ l.act = .skip := by
        obtain ⟨d, v, hd⟩ := List.exists_cons_of_ne_nil hl₀
        obtain ⟨hr, -, hactive, hmem⟩ := munch_length_le hm
        rw [← hword, hd] at hmem
        cases p with
        | INITIAL =>
          rcases blank_rule hr hactive (hblank d (hd ▸ List.mem_cons_self)) hmem with rfl | rfl
          · exact ⟨rfl, hact⟩
          · rw [hact] at hq
            cases hq
        | COMMENT =>
          refine absurd ?_ (hlast l rfl)
          cases hact' : l.act with
          | BEGIN q' => rw [hact'] at hq; rw [Option.some.inj hq]
          | skip => rw [hact'] at hq; cases hq
          | token t => rw [hact'] at hq; cases hq
          | stop => rw [hact'] at hq; cases hq
      obtain ⟨rfl, hskip⟩ := hp
      have hlast' : l.text ++ '\n' :: b ≠ [] := List.append_ne_nil_of_left_ne_nil hl₀ _
      have hrun := hL₀.replace (t := l.text ++ '\n' :: (b ++ X)) fun M N p hMN hN _ hN' => ?_
      · have hall : ∀ c ∈ l.text ++ '\n' :: b, blank.mem c = true :=
          List.forall_mem_append.mpr ⟨hblank, hnewline⟩
        obtain ⟨B, hB, htokens⟩ := lexes_blank hall hX
        rw [List.append_assoc, List.cons_append] at hB
        refine ⟨L₀ ++ B, ?_, ?_⟩
        · rw [texts_append, texts_cons, texts_nil, List.append_nil, List.append_assoc]
          exact hrun.trans hB
        · have hnone : Flex.tokens [l] = [] := by simp [Flex.tokens, hskip, Action.token?]
          rw [Flex.tokens_append, htokens, Flex.tokens_append, hnone]
      · obtain ⟨n₁, r₁, l₁, N', rfl, hm₁, -, hlen₁, -⟩ := hN'.first hN
        have hle : n₁ ≤ (texts (l₁ :: N')).length := by
          rw [hlen₁, texts_cons, List.length_append]
          exact Nat.le_add_right _ _
        rw [← List.append_assoc] at hm₁
        rw [← List.append_assoc, ← List.append_assoc]
        refine munch_newline_of_munch hm₁ ?_ ?_ hquote'
        · rw [List.length_append]
          exact hle.trans (Nat.le_add_right _ _)
        · by_contra hno
          have hall : ∀ d ∈ texts (l₁ :: N') ++ l.text, blank.mem d = true := by
            intro d hd
            by_contra hne
            exact hno ⟨d, hd, by simpa using hne⟩
          have hmem : texts (l₁ :: N') ++ l.text ∈ whitespace.pattern.lang :=
            (mem_lang_plus_cls _ _).mpr ⟨List.append_ne_nil_of_right_ne_nil _ hl₀, hall⟩
          obtain ⟨m, hm', hle'⟩ := Rule.longest_of_mem (r := whitespace) (q := p) rfl
            ⟨t, rfl⟩ hmem
          have hmax := munch_max hm₁ mem_rules_whitespace hm'
          rw [List.length_append] at hle'
          omega

/-! The lexemes of a comment. -/

theorem mem_commentText (w : Str) : w ∈ commentText.pattern.lang ↔ '\n' ∉ w := by
  rw [commentText, inComment, mem_lang_star_cls]
  constructor
  · intro h hmem
    simpa using h _ hmem
  · intro h c hc
    have hne : c ≠ '\n' := fun heq => h (heq ▸ hc)
    simpa using hne

theorem dashes_rule {r : LexRule} (hr : r ∈ rules) (hq : r.active .INITIAL = true) {v : Str}
    (hw : '-' :: '-' :: v ∈ r.pattern.lang) : v = [] := by
  rcases mem_rules_cases hr with rfl | rfl | rfl | rfl | ⟨k, rfl⟩ | h | rfl | rfl | rfl | rfl |
    rfl | rfl | rfl | rfl
  · simpa using (mem_lang_lit _ _).mp hw
  · exact absurd hq (by decide)
  · exact absurd hq (by decide)
  · exact absurd (((mem_lang_plus_cls _ _).mp hw).2 '-' List.mem_cons_self) (by decide)
  · exact absurd ((keyword_lang hw).2 '-' List.mem_cons_self) (by decide)
  · have hop := operators_lang h hw
    simp at hop
  · obtain ⟨d, -, heq⟩ := (mem_lang_cls _ _).mp hw
    simp at heq
  · obtain ⟨u, hu, ds, -, heq⟩ := (mem_decimal _).mp hw
    obtain ⟨es, hne, hes, rfl | rfl⟩ := (mem_integer u).mp hu
    · obtain ⟨e, es, rfl⟩ := List.exists_cons_of_ne_nil hne
      have he := hes e List.mem_cons_self
      rw [← (List.cons_eq_cons.mp heq).1] at he
      exact absurd he (by decide)
    · obtain ⟨e, es, rfl⟩ := List.exists_cons_of_ne_nil hne
      have he := hes e List.mem_cons_self
      rw [← (List.cons_eq_cons.mp (List.cons_eq_cons.mp heq).2).1] at he
      exact absurd he (by decide)
  · obtain ⟨ds, -, heq⟩ := (mem_fraction _).mp hw
    simp at heq
  · obtain ⟨ds, hne, hds, heq | heq⟩ := (mem_integer _).mp hw
    · exact absurd (hds '-' (heq ▸ List.mem_cons_self)) (by decide)
    · rw [← (List.cons_eq_cons.mp heq).2] at hds
      exact absurd (hds '-' List.mem_cons_self) (by decide)
  · obtain ⟨q, b, q', hquote, -, -, -, heq⟩ := (mem_quotedIdentifier _).mp hw
    rw [← (List.cons_eq_cons.mp heq).1] at hquote
    exact absurd hquote (by decide)
  · obtain ⟨d, u, hd, -, heq⟩ := (mem_identifier _).mp hw
    rw [← (List.cons_eq_cons.mp heq).1] at hd
    exact absurd hd (by decide)
  · obtain ⟨u, -, heq⟩ := (mem_string _).mp hw
    simp at heq
  · obtain ⟨d, -, heq⟩ := (mem_lang_cls _ _).mp hw
    simp at heq

theorem lexes_dashes (u : Str) : Lexes rules .INITIAL ('-' :: '-' :: u)
    [⟨['-', '-'], .BEGIN .COMMENT⟩] .COMMENT u := by
  have hmem : ['-', '-'] ∈ commentStart.pattern.lang := (mem_lang_lit _ _).mpr rfl
  have hblocked : ∀ r ∈ rules, r.active .INITIAL = true → r.pattern.Blocked ['-', '-'] u := by
    intro r hr hq w hw _ hword
    exact hw (dashes_rule hr hq hword)
  have hmunch := munch_append hblocked
  have hall : munch rules .INITIAL ['-', '-'] = some (2, commentStart) :=
    munch_all [] rfl hmem (by simp)
  rw [hall] at hmunch
  exact Lexes.single _ hmunch Nat.zero_lt_two rfl

/-- A line that is no whitespace is read as a whole by the comment's own rules. -/
theorem munch_line {c : Str} (hc : '\n' ∉ c) (hne : c ≠ []) :
    ∃ r, munch rules .COMMENT c = some (c.length, r) ∧
      (r.action c).next .COMMENT = some .COMMENT ∧ (r.action c).token? = Option.none := by
  by_cases hdash : c = ['-', '-']
  · subst hdash
    have hmem : ['-', '-'] ∈ commentStart.pattern.lang := (mem_lang_lit _ _).mpr rfl
    exact ⟨commentStart, munch_all [] rfl hmem (by simp), rfl, rfl⟩
  · refine ⟨commentText, munch_all [commentStart] rfl ((mem_commentText c).mpr hc) ?_, rfl,
      rfl⟩
    intro r hr _ hmem
    rw [List.mem_singleton.mp hr] at hmem
    exact hdash ((mem_lang_lit _ _).mp hmem)

theorem lexes_line {c t : Str} (hc : '\n' ∉ c)
    (hmunch : c ≠ [] → munch rules .COMMENT (c ++ t) = munch rules .COMMENT c) :
    ∃ L, Lexes rules .COMMENT (c ++ t) L .COMMENT t ∧ Flex.tokens L = [] := by
  by_cases hne : c = []
  · rw [hne]
    exact ⟨[], .refl _ _, rfl⟩
  · obtain ⟨r, hline, hnext, htoken⟩ := munch_line hc hne
    have hrule := hmunch hne
    rw [hline] at hrule
    have hone := Lexes.single .COMMENT hrule (List.length_pos_iff.mpr hne)
    rw [List.take_left, List.drop_left] at hone
    refine ⟨_, hone hnext, ?_⟩
    simp [Flex.tokens, htoken]

theorem lexes_commentEnd {t : Str} (ht : ∀ c ∈ t.head?, blank.mem c = false) :
    Lexes rules .COMMENT ('\n' :: t) [⟨['\n'], .BEGIN .INITIAL⟩] .INITIAL t := by
  have hmem : ['\n'] ∈ commentEnd.pattern.lang := (mem_lang_chr _ _).mpr rfl
  have hblocked : ∀ r ∈ rules, r.active .COMMENT = true → r.pattern.Blocked ['\n'] t := by
    intro r hr _ w hw hpre hword
    rcases active_or_comment hr with hq | rfl | rfl
    · rcases blank_rule hr hq (by decide) hword with rfl | rfl
      · obtain ⟨d, v, rfl⟩ := List.exists_cons_of_ne_nil hw
        obtain ⟨z, rfl⟩ := hpre
        have hblank := ((mem_lang_plus_cls _ _).mp hword).2 d
          (List.mem_cons_of_mem _ List.mem_cons_self)
        rw [ht d rfl] at hblank
        cases hblank
      · obtain ⟨d, -, heq⟩ := (mem_lang_cls _ _).mp hword
        exact hw (List.cons_eq_cons.mp heq).2
    · exact (mem_commentText _).mp hword List.mem_cons_self
    · exact hw (List.cons_eq_cons.mp ((mem_lang_chr _ _).mp hword)).2
  have hall : munch rules .COMMENT ['\n'] = some (1, commentEnd) := by
    refine munch_all [commentStart, commentText] rfl hmem ?_
    intro r hr _ hword
    simp only [List.mem_cons, List.not_mem_nil, or_false] at hr
    rcases hr with rfl | rfl
    · have heq := (mem_lang_lit _ _).mp hword
      simp at heq
    · exact (mem_commentText _).mp hword List.mem_cons_self
  have hmunch := munch_append hblocked
  rw [hall] at hmunch
  exact Lexes.single _ hmunch Nat.zero_lt_one rfl

/-! A newline in place of the comment. -/

/-- The lexemes `L` are the scanner's over `P`, which `t` follows, up to a token boundary. -/
structure Boundary (P : Str) (L : List (Lexeme Start Token)) (t : Str) : Prop where
  text : P = texts L
  nul : '\x00' ∉ P
  lexes : Lexes rules .INITIAL (P ++ cStr t) L .INITIAL (cStr t)

/-- The comment ends with its own newline: its text is empty or not all blank, no blank follows
its newline, no string that opens with it runs past its end, and it does not follow the newline
of another comment. -/
structure EndsAtNewline (L : List (Lexeme Start Token)) (c Q : Str) : Prop where
  nul : '\x00' ∉ c
  text : c = [] ∨ ∃ d ∈ c, blank.mem d = false
  next : ∀ d ∈ Q.head?, blank.mem d = false
  literal : string.pattern.Blocked c ('\n' :: cStr Q)
  before : ∀ l ∈ L.getLast?, l.act ≠ .BEGIN .INITIAL

theorem cStr_head {Q : Str} {p : Char → Prop} (h : ∀ d ∈ Q.head?, p d) :
    ∀ d ∈ (cStr Q).head?, p d := by
  cases Q with
  | nil => exact h
  | cons c Q =>
    rw [cStr, List.takeWhile_cons]
    split_ifs
    · exact h
    · simp

theorem notMem_comment {c : Str} (hc : '\x00' ∉ c) : '\x00' ∉ comment c := by
  intro hmem
  simp only [comment, List.mem_cons, List.mem_append, List.not_mem_nil, or_false] at hmem
  rcases hmem with hmem | hmem | hmem | hmem
  · simp at hmem
  · simp at hmem
  · exact hc hmem
  · simp at hmem

theorem cStr_comment {c : Str} (hc : '\x00' ∉ c) (t : Str) :
    cStr (comment c ++ t) = '-' :: '-' :: (c ++ '\n' :: cStr t) := by
  rw [cStr_append (notMem_comment hc), comment]
  simp only [List.cons_append, List.append_assoc, List.nil_append]

theorem lexes_comment {c X : Str} (hc : '\n' ∉ c) (hX : ∀ d ∈ X.head?, blank.mem d = false)
    (htext : c = [] ∨ ∃ d ∈ c, blank.mem d = false)
    (hliteral : string.pattern.Blocked c ('\n' :: X)) :
    ∃ L, Lexes rules .INITIAL ('-' :: '-' :: (c ++ '\n' :: X)) L .INITIAL X ∧
      Flex.tokens L = [] := by
  obtain ⟨M, hM, htokens⟩ := lexes_line (t := '\n' :: X) hc fun hne =>
    munch_newline (htext.resolve_left hne) hliteral
  refine ⟨_, (lexes_dashes _).trans (hM.trans (lexes_commentEnd hX)), ?_⟩
  rw [Flex.tokens_append, Flex.tokens_append, htokens]
  rfl

theorem Boundary.tokens_eq {P t : Str} {L M : List (Lexeme Start Token)} {q : Start} {s : Str}
    (h : Boundary P L t) (hM : Lexes rules .INITIAL (cStr t) M q s) :
    tokens (P ++ t) = Flex.tokens L ++ Flex.tokens M ++ Flex.tokens (scan rules 0 q s) := by
  have hrun := h.lexes.trans hM
  rw [← cStr_append h.nul] at hrun
  rw [tokens, lexemes_of_lexes hrun, Flex.tokens_append, Flex.tokens_append]

theorem Boundary.tokens_newline {P t b Q : Str} {L : List (Lexeme Start Token)}
    (h : Boundary P L t) (hlast : ∀ l ∈ L.getLast?, l.act ≠ .BEGIN .INITIAL)
    (hb : ∀ c ∈ b, blank.mem c = true) (hQ : ∀ c ∈ Q.head?, blank.mem c = false)
    (hquote : '\'' ∈ cStr Q → '\'' ∈ cStr t) :
    tokens (P ++ '\n' :: (b ++ Q)) =
      Flex.tokens L ++ Flex.tokens (scan rules 0 .INITIAL (cStr Q)) := by
  have hrun := h.lexes
  rw [h.text] at hrun
  obtain ⟨M, hM, htokens⟩ := lexes_newline hrun hlast hb (cStr_head hQ) hquote
  have hnul : '\x00' ∉ '\n' :: b := by
    intro hmem
    rcases List.mem_cons.mp hmem with hmem | hmem
    · simp at hmem
    · exact absurd (hb _ hmem) (by decide)
  have hcut : cStr (P ++ '\n' :: (b ++ Q)) = P ++ '\n' :: (b ++ cStr Q) := by
    rw [cStr_append h.nul, ← List.cons_append, cStr_append hnul, List.cons_append]
  rw [← h.text, ← hcut] at hM
  rw [tokens, lexemes_of_lexes hM, Flex.tokens_append, htokens]

theorem tokens_comment {P c Q : Str} {L : List (Lexeme Start Token)} (hc : '\n' ∉ c)
    (h : Boundary P L (comment c ++ Q)) (hend : EndsAtNewline L c Q) :
    tokens (P ++ (comment c ++ Q)) = tokens (P ++ '\n' :: Q) := by
  have hcut := cStr_comment hend.nul Q
  obtain ⟨M, hM, htokens⟩ := lexes_comment hc (cStr_head hend.next) hend.text hend.literal
  rw [← hcut] at hM
  have hnewline := h.tokens_newline (b := []) hend.before (by simp) hend.next fun hmem => by
    rw [hcut]
    simp [hmem]
  rw [List.nil_append] at hnewline
  rw [h.tokens_eq hM, htokens, List.append_nil, hnewline]

/-! Where the comment does not end with its newline: some text behind it is then lost. -/

theorem munch_openString {w : Str} (hw : w ∈ string.pattern.lang) (hline : '\n' ∈ w) :
    munch rules .COMMENT w = some (w.length, string) := by
  obtain ⟨m, hm, hle⟩ := Rule.longest_of_mem (r := string) (q := .COMMENT) rfl
    (List.prefix_refl w) hw
  obtain ⟨n, r, hmunch, hmn⟩ := exists_munch mem_rules_string hm
  obtain ⟨hr, hn, -, hmem⟩ := munch_length_le hmunch
  obtain rfl : n = w.length := hn.antisymm (hle.trans hmn)
  rw [List.take_length] at hmem
  obtain ⟨x, hx, rfl⟩ := (mem_string w).mp hw
  rcases active_or_comment hr with hq | rfl | rfl
  · rcases quote_rule hr hq (Or.inl rfl) hmem with rfl | rfl | rfl
    · obtain ⟨q, body, q', hquote, -, -, -, heq⟩ := (mem_quotedIdentifier _).mp hmem
      rw [← (List.cons_eq_cons.mp heq).1] at hquote
      exact absurd hquote (by decide)
    · exact hmunch
    · obtain ⟨d, -, heq⟩ := (mem_lang_cls _ _).mp hmem
      rw [(List.cons_eq_cons.mp heq).2] at hx
      exact absurd hx nil_notMem_stringTail
  · exact absurd hline ((mem_commentText _).mp hmem)
  · have heq := (mem_lang_chr _ _).mp hmem
    simp at heq

theorem string_blocked_of_noQuote {u t : Str} (ht : '\'' ∉ t) : string.pattern.Blocked u t := by
  intro w hw hpre hmem
  obtain ⟨x, hx, heq⟩ := (mem_string _).mp hmem
  obtain ⟨v, rfl⟩ := stringTail_getLast hx
  have hlast := congrArg List.getLast? heq
  rw [List.getLast?_append_of_ne_nil _ hw, ← List.cons_append, List.getLast?_concat] at hlast
  exact ht (hpre.subset (List.mem_of_getLast? hlast))

theorem lexes_commentBlank {u t : Str} (hall : ∀ c ∈ u, blank.mem c = true) (hline : '\n' ∈ u)
    (hlen : 1 < u.length) (ht : ∀ c ∈ t.head?, blank.mem c = false) :
    Lexes rules .COMMENT (u ++ t) [⟨u, .skip⟩] .COMMENT t := by
  have hmunch := munch_blank (p := .COMMENT) (List.ne_nil_of_mem hline) hall ht
    fun _ => ⟨hline, hlen⟩
  have hone := Lexes.single .COMMENT hmunch (Nat.zero_lt_one.trans hlen)
  rw [List.take_left, List.drop_left] at hone
  exact hone rfl

/-- One more word behind the comment is lost when the comment's newline is read as whitespace. -/
theorem lexes_comment_lost {c b : Str} (hc : '\n' ∉ c) (hb : ∀ d ∈ b, blank.mem d = true)
    (hlost : (c ≠ [] ∧ ∀ d ∈ c, blank.mem d = true) ∨
      ((c = [] ∨ ∃ d ∈ c, blank.mem d = false) ∧ b ≠ [])) :
    ∃ L, Lexes rules .INITIAL ('-' :: '-' :: (c ++ '\n' :: (b ++ ['a']))) L .COMMENT [] ∧
      Flex.tokens L = [] := by
  obtain ⟨W, hW, hword⟩ := lexes_line (c := ['a']) (t := []) (by decide) fun _ => rfl
  have hnewline : ∀ d ∈ '\n' :: b, blank.mem d = true :=
    List.forall_mem_cons.mpr ⟨by decide, hb⟩
  have hnot : ∀ d ∈ ['a'].head?, blank.mem d = false := by
    intro d hd
    rw [← Option.some.inj hd]
    decide
  rcases hlost with ⟨hne, hblank⟩ | ⟨htext, hne⟩
  · have hall : ∀ d ∈ c ++ '\n' :: b, blank.mem d = true :=
      List.forall_mem_append.mpr ⟨hblank, hnewline⟩
    have hlen : 1 < (c ++ '\n' :: b).length := by
      have hpos := List.length_pos_iff.mpr hne
      rw [List.length_append, List.length_cons]
      omega
    have hrun := lexes_commentBlank (t := ['a']) hall (by simp) hlen hnot
    rw [List.append_assoc, List.cons_append] at hrun
    refine ⟨_, (lexes_dashes _).trans (hrun.trans hW), ?_⟩
    rw [Flex.tokens_append, Flex.tokens_append, hword]
    rfl
  · have hquote : '\'' ∉ '\n' :: (b ++ ['a']) := by
      intro hmem
      rw [← List.cons_append] at hmem
      rcases List.mem_append.mp hmem with hmem | hmem
      · exact absurd (hnewline _ hmem) (by decide)
      · simp at hmem
    obtain ⟨M, hM, htokens⟩ := lexes_line (t := '\n' :: (b ++ ['a'])) hc fun hcne =>
      munch_newline (htext.resolve_left hcne) (string_blocked_of_noQuote hquote)
    have hlen : 1 < ('\n' :: b).length := by
      have hpos := List.length_pos_iff.mpr hne
      rw [List.length_cons]
      omega
    have hrun := lexes_commentBlank (t := ['a']) hnewline List.mem_cons_self hlen hnot
    refine ⟨_, (lexes_dashes _).trans (hM.trans (hrun.trans hW)), ?_⟩
    rw [Flex.tokens_append, Flex.tokens_append, Flex.tokens_append, htokens, hword]
    rfl

theorem string_open_of_not_blocked {c t : Str} (h : ¬ string.pattern.Blocked c ('\n' :: t)) :
    ∃ x, c = '\'' :: x ∧ ∀ y, x ++ y ∈ stringTail.lang ↔ y ∈ stringTail.lang := by
  unfold Blocked at h
  push Not at h
  obtain ⟨w, hw, hpre, hmem⟩ := h
  obtain ⟨d, v, rfl⟩ := List.exists_cons_of_ne_nil hw
  obtain ⟨rfl, -⟩ := List.cons_prefix_cons.mp hpre
  obtain ⟨y, hy, heq⟩ := (mem_string _).mp hmem
  cases c with
  | nil => simp at heq
  | cons e x =>
    rw [List.cons_append, List.cons_eq_cons] at heq
    obtain ⟨rfl, rfl⟩ := heq
    exact ⟨x, rfl, stringTail_open (by decide) hy⟩

theorem cStr_of_mem {c : Str} (hc : '\x00' ∈ c) (t : Str) : cStr (c ++ t) = cStr c := by
  unfold cStr
  induction c with
  | nil => exact absurd hc List.not_mem_nil
  | cons d c ih =>
    rw [List.cons_append, List.takeWhile_cons, List.takeWhile_cons]
    split_ifs with hd
    · rw [ih ((List.mem_cons.mp hc).resolve_left fun heq => by simp [← heq] at hd)]
    · rfl

/-- Comments that can be replaced whatever stands behind the blanks that follow them. -/
theorem tokens_comment_iff {P c b : Str} {L : List (Lexeme Start Token)} (hc : '\n' ∉ c)
    (hb : ∀ d ∈ b, blank.mem d = true) (hbefore : ∀ l ∈ L.getLast?, l.act ≠ .BEGIN .INITIAL)
    (hP : ∀ Q : Str, (∀ d ∈ Q.head?, blank.mem d = false) →
      Boundary P L (comment c ++ (b ++ Q))) :
    (∀ Q : Str, (∀ d ∈ Q.head?, blank.mem d = false) →
      tokens (P ++ (comment c ++ (b ++ Q))) = tokens (P ++ '\n' :: (b ++ Q))) ↔
    '\x00' ∉ c ∧ (c = [] ∨ ∃ d ∈ c, blank.mem d = false) ∧ b = [] ∧
      ∀ Q, string.pattern.Blocked c ('\n' :: Q) := by
  constructor
  · intro h
    have hword : ∀ d ∈ ['a'].head?, blank.mem d = false := by
      intro d hd
      rw [← Option.some.inj hd]
      decide
    have hbnul : '\x00' ∉ b := fun hmem => absurd (hb _ hmem) (by decide)
    -- behind the newline the word `a` is one token
    have hkept := (hP ['a'] hword).tokens_newline hbefore hb hword (fun hmem => by
      exact absurd hmem (by decide))
    have hone : (Flex.tokens (scan rules 0 .INITIAL (cStr ['a']))).length = 1 := by
      rw [← scanBy_eq munch_rulesAt]
      decide +kernel
    have hlost {M : List (Lexeme Start Token)} {q : Start}
        (hM : Lexes rules .INITIAL (cStr (comment c ++ (b ++ ['a']))) M q [])
        (hnone : Flex.tokens M = []) : False := by
      have heq := h ['a'] hword
      rw [(hP ['a'] hword).tokens_eq hM, hkept, hnone, scan_nil, tokens_nil, List.append_nil,
        List.append_nil] at heq
      have hlen := congrArg List.length heq
      rw [List.length_append, hone] at hlen
      omega
    have hnul : '\x00' ∉ c := by
      intro hmem
      have hline : '\n' ∉ cStr c := fun hn => hc ((List.takeWhile_prefix _).subset hn)
      obtain ⟨M, hM, htokens⟩ := lexes_line (t := []) hline fun _ => by rw [List.append_nil]
      have hcut : cStr (comment c ++ (b ++ ['a'])) = '-' :: '-' :: (cStr c ++ []) := by
        have hdash : '\x00' ∉ ['-', '-'] := by decide
        have heq : comment c ++ (b ++ ['a']) = ['-', '-'] ++ (c ++ '\n' :: (b ++ ['a'])) := by
          simp [comment]
        rw [heq, cStr_append hdash, cStr_of_mem hmem, List.append_nil]
        rfl
      have hrun := (lexes_dashes _).trans hM
      rw [← hcut] at hrun
      refine hlost hrun ?_
      rw [Flex.tokens_append, htokens]
      rfl
    have hcut : cStr (comment c ++ (b ++ ['a'])) = '-' :: '-' :: (c ++ '\n' :: (b ++ ['a'])) := by
      rw [cStr_comment hnul, cStr_append hbnul]
      rfl
    have hnot : ¬ ((c ≠ [] ∧ ∀ d ∈ c, blank.mem d = true) ∨
        ((c = [] ∨ ∃ d ∈ c, blank.mem d = false) ∧ b ≠ [])) := by
      intro hcases
      obtain ⟨M, hM, htokens⟩ := lexes_comment_lost hc hb hcases
      rw [← hcut] at hM
      exact hlost hM htokens
    have htext : c = [] ∨ ∃ d ∈ c, blank.mem d = false := by
      by_contra hno
      push Not at hno
      refine hnot (Or.inl ⟨hno.1, fun d hd => ?_⟩)
      simpa using hno.2 d hd
    have hnil : b = [] := by
      by_contra hne
      exact hnot (Or.inr ⟨htext, hne⟩)
    refine ⟨hnul, htext, hnil, fun Q => ?_⟩
    by_contra hblocked
    obtain ⟨x, rfl, hopen⟩ := string_open_of_not_blocked hblocked
    -- a quote behind the newline closes the string that the comment opens
    have hquote : ∀ d ∈ ['\''].head?, blank.mem d = false := by
      intro d hd
      rw [← Option.some.inj hd]
      decide
    subst hnil
    have hstring : '\'' :: x ++ ['\n', '\''] ∈ string.pattern.lang := by
      refine (mem_string _).mpr ⟨x ++ ['\n', '\''], (hopen _).mpr ?_, rfl⟩
      exact (cons_mem_stringTail (by decide) _).mpr ((quote_mem_stringTail []).mpr (Or.inl rfl))
    have hmunch := munch_openString hstring (by simp)
    have hrun := Lexes.single .COMMENT hmunch (Nat.succ_pos _)
    rw [List.take_length, List.drop_length] at hrun
    have hrun' := (lexes_dashes _).trans (hrun rfl)
    have hcut' : cStr (comment ('\'' :: x) ++ ([] ++ ['\''])) =
        '-' :: '-' :: ('\'' :: x ++ ['\n', '\'']) := cStr_comment hnul _
    rw [← hcut'] at hrun'
    have hlost' := (hP ['\''] hquote).tokens_newline hbefore hb hquote fun _ => by
      rw [hcut']
      simp
    have heq := h ['\''] hquote
    rw [(hP ['\''] hquote).tokens_eq hrun', hlost'] at heq
    have hzero : (Flex.tokens (scan rules 0 .INITIAL (cStr ['\'']))).length = 0 := by
      rw [← scanBy_eq munch_rulesAt]
      decide +kernel
    have hliteral : (Flex.tokens [(⟨'\'' :: x ++ ['\n', '\''],
        string.action ('\'' :: x ++ ['\n', '\''])⟩ : Lexeme Start Token)]).length = 1 := rfl
    have hlen := congrArg List.length heq
    rw [List.length_append, List.length_append, List.length_append, hzero, Flex.tokens_append,
      List.length_append, hliteral] at hlen
    omega
  · rintro ⟨hnul, htext, rfl, hliteral⟩ Q hQ
    exact tokens_comment hc (hP Q hQ) ⟨hnul, htext, hQ, hliteral _, hbefore⟩

theorem comment_newline (P c : Str) (L : List (Lexeme Start Token)) (hc : '\n' ∉ c) :
    (∀ Q, Boundary P L (comment c ++ Q) → EndsAtNewline L c Q →
      tokens (P ++ (comment c ++ Q)) = tokens (P ++ '\n' :: Q)) ∧
    ∀ b : Str, (∀ d ∈ b, blank.mem d = true) → (∀ l ∈ L.getLast?, l.act ≠ .BEGIN .INITIAL) →
      (∀ Q : Str, (∀ d ∈ Q.head?, blank.mem d = false) →
        Boundary P L (comment c ++ (b ++ Q))) →
      ((∀ Q : Str, (∀ d ∈ Q.head?, blank.mem d = false) →
        tokens (P ++ (comment c ++ (b ++ Q))) = tokens (P ++ '\n' :: (b ++ Q))) ↔
      '\x00' ∉ c ∧ (c = [] ∨ ∃ d ∈ c, blank.mem d = false) ∧ b = [] ∧
        ∀ Q, string.pattern.Blocked c ('\n' :: Q)) :=
  ⟨fun _ h hend => tokens_comment hc h hend,
    fun _ hb hbefore hP => tokens_comment_iff hc hb hbefore hP⟩

/-- An indented line behind a comment is lost with it. -/
theorem comment_indented :
    ¬ ∀ (P c Q : Str) (L : List (Lexeme Start Token)), '\n' ∉ c → Boundary P L (comment c ++ Q) →
      tokens (P ++ (comment c ++ Q)) = tokens (P ++ '\n' :: Q) := by
  intro h
  have hlost := h [] " x".toList " SELECT".toList [] (by decide) ⟨rfl, by simp, .refl _ _⟩
  have hcodes := congrArg (List.map Token.kind) hlost
  rw [tokens, tokens, lexemes_rulesAt] at hcodes
  exact absurd hcodes (by decide +kernel)

theorem comment_newline_select :
    tokens ([] ++ (comment "x".toList ++ "SELECT".toList)) =
      tokens ([] ++ '\n' :: "SELECT".toList) := by
  have hliteral : ∀ Q, string.pattern.Blocked "x".toList ('\n' :: Q) := by
    intro Q w _ _ hmem
    obtain ⟨y, -, heq⟩ := (mem_string _).mp hmem
    simp at heq
  have hhead : ∀ d ∈ "SELECT".toList.head?, blank.mem d = false :=
    fun d hd => Option.some.inj hd ▸ by decide
  have hP : ∀ t, Boundary [] [] t := fun t => ⟨rfl, by simp, .refl _ _⟩
  have hx := comment_newline [] "x".toList [] (by decide)
  have hiff := hx.2 [] (by simp) (by simp) fun Q _ => hP _
  have hsame := hiff.mpr ⟨by decide, Or.inr ⟨'x', by decide, by decide⟩, rfl, hliteral⟩
  have hdirect := hx.1 "SELECT".toList (hP _)
    ⟨by decide, Or.inr ⟨'x', by decide, by decide⟩, hhead, hliteral _, by simp⟩
  exact hdirect.trans (hdirect.symm.trans (hsame "SELECT".toList hhead))

end Hsql
