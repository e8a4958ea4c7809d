import Hsql.Lexer.Boundary

/-! Texts that the lexer consumes to their end: every character belongs to a token, to
whitespace or to a comment, and no lexeme is the catch-all rule's end of input. -/

namespace Hsql
open Flex Regex Lexer

def codes (sql : Str) : List TokenKind := (tokens sql).map Token.kind

/-- The lexemes cover the text, and none of them ends the input. -/
structure Complete (sql : Str) : Prop where
  covers : texts (lexemes sql) = sql
  goesOn : ∀ l ∈ lexemes sql, l.act ≠ .stop

instance (sql : Str) : Decidable (Complete sql) :=
  decidable_of_iff (texts (lexemes sql) = sql ∧ ∀ l ∈ lexemes sql, l.act ≠ .stop)
    ⟨fun h => ⟨h.1, h.2⟩, fun h => ⟨h.covers, h.goesOn⟩⟩

theorem complete_rulesAt (sql : Str) : Complete sql ↔
    texts (scanBy rulesAt 0 .INITIAL (cStr sql)) = sql ∧
      ∀ l ∈ scanBy rulesAt 0 .INITIAL (cStr sql), l.act ≠ .stop := by
  rw [← congrFun lexemes_rulesAt sql]
  exact ⟨fun h => ⟨h.covers, h.goesOn⟩, fun h => ⟨h.1, h.2⟩⟩

theorem codes_rulesAt (sql : Str) :
    codes sql = (Flex.tokens (scanBy rulesAt 0 .INITIAL (cStr sql))).map Token.kind := by
  rw [codes, tokens, lexemes_rulesAt]

theorem mem_rules_whitespace : whitespace ∈ rules := by
  simp [rules]

theorem mem_rules_unknown : unknown ∈ rules := by
  simp [rules]

theorem mem_rules_string : string ∈ rules := by
  simp [rules]

theorem rules_progress : Progress rules := by
  intro q s hs
  cases s with
  | nil => exact absurd rfl hs
  | cons c v =>
    have hpre : [c] <+: c :: v := ⟨v, rfl⟩
    have hrule : ∃ r ∈ rules, ∃ n, r.longest q (c :: v) = some n ∧ 1 ≤ n := by
      by_cases hc : c = '\n'
      · have hmem : [c] ∈ whitespace.pattern.lang :=
          (mem_lang_plus_cls _ _).mpr ⟨List.cons_ne_nil _ _, by simp [hc, blank]⟩
        exact ⟨whitespace, mem_rules_whitespace, Rule.longest_of_mem rfl hpre hmem⟩
      · have hmem : [c] ∈ unknown.pattern.lang :=
          (mem_lang_cls _ _).mpr ⟨c, by simp [hc], rfl⟩
        exact ⟨unknown, mem_rules_unknown, Rule.longest_of_mem rfl hpre hmem⟩
    obtain ⟨r, hr, m, hm, hle⟩ := hrule
    obtain ⟨n, r', hn, hmn⟩ := exists_munch hr hm
    exact ⟨n, r', hn, hle.trans hmn⟩

theorem cStr_eq_self_iff (sql : Str) : cStr sql = sql ↔ '\x00' ∉ sql := by
  unfold cStr
  rw [List.takeWhile_eq_self_iff]
  constructor
  · intro h hmem
    simpa using h _ hmem
  · intro h c hc
    have hne : c ≠ '\x00' := fun heq => h (heq ▸ hc)
    simpa using hne

theorem cStr_append {u v : Str} (hu : '\x00' ∉ u) : cStr (u ++ v) = u ++ cStr v := by
  unfold cStr
  rw [List.takeWhile_append_of_pos]
  intro c hc
  have hne : c ≠ '\x00' := fun heq => hu (heq ▸ hc)
  simpa using hne

theorem notMem_cStr (sql : Str) : '\x00' ∉ cStr sql := by
  intro h
  simpa using List.mem_takeWhile_imp h

theorem lexemes_of_lexes {sql : Str} {L : List (Lexeme Start Token)} {q : Start} {s : Str}
    (h : Lexes rules .INITIAL (cStr sql) L q s) : lexemes sql = L ++ scan rules 0 q s :=
  h.scan_eq

theorem Complete.lexes {sql : Str} (h : Complete sql) :
    cStr sql = sql ∧ ∃ q, Lexes rules .INITIAL sql (lexemes sql) q [] := by
  obtain ⟨L, q, s, hL, hend⟩ := exists_lexes rules_progress .INITIAL (cStr sql)
  have hlex := lexemes_of_lexes hL
  rcases hend with rfl | ⟨n, r, hm, hn, hstop⟩
  · rw [scan_nil, List.append_nil] at hlex
    have htext := hL.text_eq
    rw [List.append_nil, ← hlex, h.covers] at htext
    rw [htext, ← hlex] at hL
    exact ⟨htext, q, hL⟩
  · rw [scan_eq hm hn, hstop] at hlex
    refine absurd ?_ (h.goesOn ⟨s.take n, r.action (s.take n)⟩ (by simp [hlex]))
    cases hact : r.action (s.take n) <;> rw [hact] at hstop <;> first | rfl | cases hstop

theorem complete_of_lexes {sql : Str} {L : List (Lexeme Start Token)} {q : Start}
    (hsql : '\x00' ∉ sql) (h : Lexes rules .INITIAL sql L q []) : Complete sql := by
  have hcut := (cStr_eq_self_iff sql).mpr hsql
  rw [← hcut] at h
  have hlex := lexemes_of_lexes h
  rw [scan_nil, List.append_nil] at hlex
  refine ⟨?_, fun l hl hact => ?_⟩
  · rw [hlex, ← List.append_nil (texts L), ← h.text_eq, hcut]
  · have hne := h.next_ne_none l (hlex ▸ hl) .INITIAL
    rw [hact] at hne
    exact hne rfl

/-- Blanks are chosen up to the first character that is none. In a comment this takes a newline
and another blank: a newline alone ends the comment. -/
theorem munch_blank {p : Start} {u t : Str} (hu : u ≠ []) (hall : ∀ c ∈ u, blank.mem c = true)
    (ht : ∀ c ∈ t.head?, blank.mem c = false) (hp : p = .COMMENT → '\n' ∈ u ∧ 1 < u.length) :
    munch rules p (u ++ t) = some (u.length, whitespace) := by
  obtain ⟨b, v, rfl⟩ := List.exists_cons_of_ne_nil hu
  have hb := hall b List.mem_cons_self
  have hword {r : LexRule} {m : Nat} (h : r.longest p (b :: v ++ t) = some (m + 1)) :
      r.active p = true ∧ m ≤ (v ++ t).length ∧ b :: (v ++ t).take m ∈ r.pattern.lang := by
    rw [Rule.longest, Option.ite_none_right_eq_some] at h
    obtain ⟨hlen, hmem⟩ := Regex.longest_eq_some h.2
    exact ⟨h.1, Nat.le_of_succ_le_succ hlen, hmem⟩
  have hle {r : LexRule} (hr : r ∈ rules) (hq : r.active .INITIAL = true) {m : Nat}
      (h : r.longest p (b :: v ++ t) = some m) : m ≤ (b :: v).length := by
    cases m with
    | zero => exact Nat.zero_le _
    | succ m =>
      obtain ⟨-, hlen, hmem⟩ := hword h
      rcases blank_rule hr hq hb hmem with rfl | rfl
      · by_contra hlt
        rw [Nat.not_le, List.length_cons, Nat.succ_lt_succ_iff] at hlt
        cases t with
        | nil =>
          rw [List.append_nil] at hlen
          exact hlt.not_ge hlen
        | cons d t =>
          have hblank := ((mem_lang_plus_cls _ _).mp hmem).2 d (List.mem_cons_of_mem _ ?_)
          · rw [ht d rfl] at hblank
            cases hblank
          · obtain ⟨k, hk⟩ := Nat.exists_eq_succ_of_ne_zero (Nat.sub_pos_of_lt hlt).ne'
            rw [List.take_append, hk, List.take_succ_cons]
            exact List.mem_append_right _ List.mem_cons_self
      · obtain ⟨d, -, heq⟩ := (mem_lang_cls _ _).mp hmem
        have hone := congrArg List.length (List.cons_eq_cons.mp heq).2
        rw [List.length_take, min_eq_left hlen, List.length_nil] at hone
        rw [hone]
        exact Nat.succ_pos _
  have hmem : b :: v ∈ whitespace.pattern.lang :=
    (mem_lang_plus_cls _ _).mpr ⟨List.cons_ne_nil _ _, hall⟩
  obtain ⟨n, hn, hlen⟩ := Rule.longest_of_mem (r := whitespace) (q := p) rfl ⟨t, rfl⟩ hmem
  obtain rfl := (hle mem_rules_whitespace rfl hn).antisymm hlen
  have hsplit : rules = [commentStart, commentText, commentEnd] ++ whitespace ::
      (Keyword.all.map keyword ++ operators ++ [character, decimal, pointDecimal, intval,
        quotedIdentifier, identifier, string, unknown]) := rfl
  have hactive {r : LexRule} (hr : r ∈ Keyword.all.map keyword ++ operators ++ [character, decimal,
      pointDecimal, intval, quotedIdentifier, identifier, string, unknown]) :
      r.active .INITIAL = true := by
    simp only [operators, List.mem_append, List.mem_map, List.mem_cons, List.not_mem_nil,
      or_false] at hr
    rcases hr with (⟨k, -, rfl⟩ | rfl | rfl | rfl | rfl | rfl) | rfl | rfl | rfl | rfl | rfl | rfl |
      rfl | rfl <;> rfl
  rw [hsplit]
  refine munch_of_longest hn (fun r hr m hm => ?_) fun r hr m hm => hle ?_ (hactive hr) hm
  · cases m with
    | zero => exact Nat.succ_pos _
    | succ m =>
      obtain ⟨hq, hlen, hmem⟩ := hword hm
      have hcomment (h : (· == Start.COMMENT) p = true) := hp (eq_of_beq h)
      simp only [List.mem_cons, List.not_mem_nil, or_false] at hr
      rcases hr with rfl | rfl | rfl
      · have heq := (mem_lang_lit _ _).mp hmem
        rw [(List.cons_eq_cons.mp heq).1] at hb
        exact absurd hb (by decide)
      · -- the comment's text stops before the newline among the blanks
        have hline := (mem_lang_star_cls _ _).mp hmem
        by_contra hge
        rw [not_lt, List.length_cons, Nat.succ_le_succ_iff] at hge
        rw [List.take_append, List.take_of_length_le hge] at hline
        have hnewline := hline '\n' ?_
        · simp at hnewline
        · rw [← List.cons_append]
          exact List.mem_append_left _ (hcomment hq).1
      · have heq := (List.cons_eq_cons.mp ((mem_lang_chr _ _).mp hmem)).2
        have hone := congrArg List.length heq
        rw [List.length_take, min_eq_left hlen, List.length_nil] at hone
        rw [hone]
        exact (hcomment hq).2
  · rw [hsplit]
    exact List.mem_append_right _ (List.mem_cons_of_mem _ hr)

theorem lexes_blank {u t : Str} (hall : ∀ c ∈ u, blank.mem c = true)
    (ht : ∀ c ∈ t.head?, blank.mem c = false) :
    ∃ L, Lexes rules .INITIAL (u ++ t) L .INITIAL t ∧ Flex.tokens L = [] := by
  by_cases hu : u = []
  · rw [hu]
    exact ⟨[], .refl _ _, rfl⟩
  · have hone := Lexes.single .INITIAL (munch_blank hu hall ht (by simp)) (List.length_pos_iff.mpr hu) rfl
    rw [List.drop_left] at hone
    exact ⟨_, hone, rfl⟩

/-! A complete text without comments keeps its lexemes in front of a delimiter. -/

theorem Complete.lexes_append {u : Str} (h : Complete u) (hno : NoComment (lexemes u)) {c : Char}
    {t : Str} (hc : ∀ v, v ≠ [] → v <:+ u → Delimits c v) :
    Lexes rules .INITIAL (u ++ c :: t) (lexemes u) .INITIAL (c :: t) := by
  obtain ⟨-, q, hu⟩ := h.lexes
  obtain rfl := hno.start hu
  have htext := hu.text_eq
  rw [List.append_nil] at htext
  have hrun := hu.replace (t := c :: t) fun M N p hMN hN hM hrun => ?_
  · rwa [← htext] at hrun
  · have hall : ∀ l ∈ lexemes u, ∀ q, l.act ≠ .BEGIN q := hno
    rw [hMN] at hall
    obtain ⟨hallM, hallN⟩ := List.forall_mem_append.mp hall
    obtain rfl := NoComment.start hM hallM
    rw [List.append_nil] at hM hrun ⊢
    have hne : texts N ≠ [] := by
      intro hnil
      rw [hnil] at hrun
      cases hrun with
      | refl => exact hN rfl
      | cons hm hn => exact absurd (munch_length_le hm).2.1 hn.not_ge
    refine munch_delimited hrun hallN hne (hc _ hne ?_)
    rw [htext, hMN, texts_append]
    exact List.suffix_append _ _

end Hsql
