import Hsql.Lexer.Complete

/-! String literals with doubled quotes. The literal ends exactly at its closing quote, whatever
its content, and the rest of the text is lexed as if it stood alone. -/

namespace Hsql
open Flex Regex Lexer

/-- A string's characters with every quote doubled. -/
def escape (s : Str) : Str := s.flatMap fun c => if c = '\'' then ['\'', '\''] else [c]

def quoted (s : Str) : Str := '\'' :: (escape s ++ ['\''])

theorem escape_cons (c : Char) (s : Str) :
    escape (c :: s) = (if c = '\'' then ['\'', '\''] else [c]) ++ escape s := rfl

theorem escape_mem_stringTail (s : Str) : escape s ++ ['\''] ∈ stringTail.lang := by
  induction s with
  | nil => exact (quote_mem_stringTail []).mpr (Or.inl rfl)
  | cons c s ih =>
    rw [escape_cons]
    split_ifs with hc
    · exact (quote_mem_stringTail _).mpr (Or.inr ⟨_, ih, rfl⟩)
    · exact (cons_mem_stringTail hc _).mpr ih

theorem quoted_mem (s : Str) : quoted s ∈ string.pattern.lang :=
  (mem_string _).mpr ⟨_, escape_mem_stringTail s, rfl⟩

theorem mem_quoted {c : Char} {s : Str} (h : c ∈ quoted s) : c = '\'' ∨ c ∈ s := by
  simp only [quoted, List.mem_cons, List.mem_append, List.not_mem_nil, or_false, escape,
    List.mem_flatMap] at h
  rcases h with h | ⟨d, hd, h⟩ | h
  · exact Or.inl h
  · split_ifs at h with hq
    · simp only [List.mem_cons, List.not_mem_nil, or_false, or_self] at h
      exact Or.inl h
    · exact Or.inr (List.mem_singleton.mp h ▸ hd)
  · exact Or.inl h

theorem prefix_of_le_length {v t : Str} {n : Nat} (hn : v.length ≤ n) :
    (v ++ t).take n = v ++ t.take (n - v.length) := by
  rw [List.take_append, List.take_of_length_le hn]

/-- A string literal is chosen as a whole in front of anything but another quote. -/
theorem munch_string {v t : Str} (hv : v ∈ string.pattern.lang) (ht : t.head? ≠ some '\'') :
    munch rules .INITIAL (v ++ t) = some (v.length, string) := by
  obtain ⟨m, hm, hle⟩ := Rule.longest_of_mem (r := string) (q := .INITIAL) rfl ⟨t, rfl⟩ hv
  obtain ⟨n, r, hmunch, hmn⟩ := exists_munch mem_rules_string hm
  obtain ⟨hr, hn, hactive, hmem⟩ := munch_length_le hmunch
  obtain ⟨x, hx, rfl⟩ := (mem_string v).mp hv
  obtain ⟨k, rfl⟩ : ∃ k, n = k + 1 :=
    Nat.exists_eq_succ_of_ne_zero ((Nat.succ_pos x.length).trans_le (hle.trans hmn)).ne'
  have hword := hmem
  rw [List.cons_append, List.take_succ_cons] at hword
  rcases quote_rule hr hactive (Or.inl rfl) hword with rfl | rfl | rfl
  · obtain ⟨q, b, q', hq, -, -, -, heq⟩ := (mem_quotedIdentifier _).mp hword
    rw [← (List.cons_eq_cons.mp heq).1] at hq
    exact absurd hq (by decide)
  · have hlen : k + 1 = ('\'' :: x).length := by
      by_contra hne
      have hlt : ('\'' :: x).length < k + 1 := (hle.trans hmn).lt_of_ne (Ne.symm hne)
      rw [prefix_of_le_length hlt.le] at hmem
      have htake : t.take (k + 1 - ('\'' :: x).length) ≠ [] := by
        rw [ne_eq, List.take_eq_nil_iff]
        rintro (h | rfl)
        · omega
        · rw [List.append_nil] at hn
          exact hlt.not_ge hn
      obtain ⟨-, hhead⟩ := string_append hv htake hmem
      rw [List.head?_take, if_neg (by omega)] at hhead
      exact ht hhead
    rw [hmunch, hlen]
  · -- the catch-all matches one character, a literal at least two
    obtain ⟨d, -, heq⟩ := (mem_lang_cls _ _).mp hmem
    have hone := congrArg List.length heq
    rw [List.length_take, min_eq_left hn, List.length_singleton] at hone
    have hlen := hle.trans hmn
    rw [hone, List.length_cons] at hlen
    cases x with
    | nil => exact absurd hx nil_notMem_stringTail
    | cons d x => simp at hlen

theorem tokens_quoted {P : Str} (hP : Complete P) (hno : NoComment (lexemes P))
    (hblank : ∀ c ∈ P.getLast?, blank.mem c = true) {s Q : Str} (hs : '\x00' ∉ s)
    (hQ : Q.head? ≠ some '\'') :
    tokens (P ++ quoted s ++ Q) = tokens P ++ [⟨.STRING, escape s⟩] ++ tokens Q := by
  have hnul : '\x00' ∉ quoted s := by
    intro h
    rcases mem_quoted h with h | h
    · simp at h
    · exact hs h
  have hPnul : '\x00' ∉ P := (cStr_eq_self_iff P).mp hP.lexes.1
  have hcut : cStr (P ++ quoted s ++ Q) = P ++ (quoted s ++ cStr Q) := by
    rw [cStr_append, List.append_assoc]
    simp only [List.mem_append, hPnul, hnul, or_self, not_false_eq_true]
  have hrun : Lexes rules .INITIAL (P ++ (quoted s ++ cStr Q)) (lexemes P) .INITIAL
      (quoted s ++ cStr Q) := by
    refine hP.lexes_append hno fun v hv hsuf => ⟨by decide, fun h => absurd h (by decide), ?_⟩
    obtain ⟨u, rfl⟩ := hsuf
    rw [List.getLast?_append_of_ne_nil _ hv] at hblank
    refine Or.inr fun hlast => ?_
    exact absurd (hblank _ hlast) (by decide)
  have hhead : (cStr Q).head? ≠ some '\'' := by
    cases Q with
    | nil => exact hQ
    | cons c Q =>
      rw [cStr, List.takeWhile_cons]
      split_ifs
      · exact hQ
      · simp
  have hmunch := munch_string (quoted_mem s) hhead
  have hstring : Lexes rules .INITIAL (quoted s ++ cStr Q) [⟨quoted s, .token ⟨.STRING, escape s⟩⟩]
      .INITIAL (cStr Q) := by
    have hone := Lexes.single .INITIAL hmunch (Nat.succ_pos _) rfl
    rw [List.take_left, List.drop_left] at hone
    have hbody : substr (quoted s) 1 ((quoted s).length - 1) = escape s := by
      simp [substr, quoted]
    rwa [show string.action (quoted s) = .token ⟨.STRING, escape s⟩ by rw [← hbody]; rfl] at hone
  have hall := hrun.trans hstring
  rw [← hcut] at hall
  rw [tokens, lexemes_of_lexes hall, Flex.tokens_append, Flex.tokens_append]
  rfl

/-- What the scanner keeps of a doubled quote is both its characters. -/
theorem escape_eq_self_iff (s : Str) : escape s = s ↔ '\'' ∉ s := by
  have hle : ∀ s : Str, s.length ≤ (escape s).length := by
    intro s
    induction s with
    | nil => exact le_rfl
    | cons c s ih =>
      rw [escape_cons, List.length_append, List.length_cons, add_comm]
      refine Nat.add_le_add ?_ ih
      split_ifs
      · exact one_le_two
      · exact le_rfl
  induction s with
  | nil => simp [escape]
  | cons c s ih =>
    rw [escape_cons, List.mem_cons, not_or]
    by_cases hc : c = '\''
    · subst hc
      have hlen := hle s
      constructor
      · intro h
        have heq := congrArg List.length h
        rw [if_pos rfl, List.length_append, List.length_cons, List.length_cons, List.length_cons]
          at heq
        simp only [List.length_nil] at heq
        omega
      · intro h
        exact absurd rfl h.1
    · have hrest := ih
      rw [if_neg hc, List.singleton_append, List.cons_inj_right]
      exact hrest.trans ⟨fun h => ⟨Ne.symm hc, h⟩, fun h => h.2⟩

theorem tokens_quoted_alone {s : Str} (hs : '\x00' ∉ s) :
    tokens (quoted s) = [⟨.STRING, escape s⟩] := by
  have hall := tokens_quoted (P := []) (Q := []) (by decide)
    (show NoComment (lexemes []) by decide) (by simp) hs (by simp)
  rw [List.nil_append, List.append_nil] at hall
  have hempty : tokens [] = [] := rfl
  rw [hall, hempty]
  rfl

/-- A string comes back from its literal exactly when it holds no quote. -/
theorem tokens_quoted_iff (s : Str) (hs : '\x00' ∉ s) :
    tokens (quoted s) = [⟨.STRING, s⟩] ↔ '\'' ∉ s := by
  have hone : ∀ a b : Str,
      ([⟨.STRING, a⟩] : List Token) = [⟨.STRING, b⟩] ↔ a = b := by
    intro a b
    constructor
    · intro h
      exact eq_of_heq (Token.mk.inj (List.cons_eq_cons.mp h).1).2
    · exact fun h => h ▸ rfl
  rw [tokens_quoted_alone hs, hone, escape_eq_self_iff]

theorem tokens_quoted_plain : tokens (quoted "a; -- b".toList) = [⟨.STRING, "a; -- b".toList⟩] :=
  (tokens_quoted_iff "a; -- b".toList (by decide)).mpr (by decide)

/-- The literal `'it''s'` keeps both quotes. -/
theorem tokens_quoted_doubled :
    ¬ ∀ s : Str, '\x00' ∉ s → tokens (quoted s) = [⟨.STRING, s⟩] := by
  intro h
  have hval := h "it's".toList (by decide)
  have hrun : tokens (quoted "it's".toList) = [⟨.STRING, "it''s".toList⟩] :=
    tokens_quoted_alone (by decide)
  rw [hrun] at hval
  have hbad := eq_of_heq (Token.mk.inj (List.cons_eq_cons.mp hval).1).2
  exact absurd hbad (by decide)

theorem codes_quoted (P : Str) (hP : Complete P) (hno : NoComment (lexemes P))
    (hblank : ∀ c ∈ P.getLast?, blank.mem c = true) (s Q : Str) (hs : '\x00' ∉ s)
    (hQ : Q.head? ≠ some '\'') :
    codes (P ++ quoted s ++ Q) = codes P ++ [.STRING] ++ codes Q ∧
      ∀ s', '\x00' ∉ s' → codes (P ++ quoted s ++ Q) = codes (P ++ quoted s' ++ Q) := by
  have hcodes : ∀ s', '\x00' ∉ s' →
      codes (P ++ quoted s' ++ Q) = codes P ++ [.STRING] ++ codes Q := by
    intro s' hs'
    rw [codes, tokens_quoted hP hno hblank hs' hQ, List.map_append, List.map_append]
    rfl
  exact ⟨hcodes s hs, fun s' hs' => by rw [hcodes s hs, hcodes s' hs']⟩

theorem codes_quoted_select :
    codes ("SELECT ".toList ++ quoted "a'; -- b".toList ++ ", ?".toList) =
      codes "SELECT ".toList ++ [.STRING] ++ codes ", ?".toList := by
  have hP : Complete "SELECT ".toList := by
    rw [complete_rulesAt]
    decide +kernel
  have hno : NoComment (lexemes "SELECT ".toList) := by
    rw [lexemes_rulesAt]
    decide +kernel
  exact (codes_quoted "SELECT ".toList hP hno (fun _ hc => Option.some.inj hc ▸ by decide)
    "a'; -- b".toList ", ?".toList (by decide) (by decide)).1

end Hsql
