import Hsql.Parser.Concatenation
import Hsql.Parser.Unread

/-! The lengths of the statements cut the text into pieces that are these statements alone, where
no trigger has a body and each statement is measured with its semicolon read. -/

namespace Hsql
open Bison Flex Lexer

/-! Lengths. -/

theorem Location.totalColumn_foldl (yytext : Str) (l : Location) :
    (yytext.foldl count l).totalColumn = l.totalColumn + yytext.length := by
  induction yytext generalizing l with
  | nil => rfl
  | cons c yytext ih =>
    have hone : (l.count c).totalColumn = l.totalColumn + 1 := by
      unfold count
      split_ifs <;> rfl
    rw [List.foldl_cons, ih, hone, List.length_cons]
    omega

theorem Location.totalColumn_after (L : List (Lexeme Start Token)) (l : Location) :
    (l.after L).totalColumn = l.totalColumn + (texts L).length := by
  induction L generalizing l with
  | nil => rfl
  | cons x L ih =>
    have hone : (l.advance x.text).totalColumn = l.totalColumn + x.text.length :=
      totalColumn_foldl x.text _
    show ((l.advance x.text).after L).totalColumn = _
    rw [ih, hone, texts_cons, List.length_append, Nat.add_assoc]

/-- Only the body of a trigger measures statements. -/
theorem Derivation.lengthStart_eq {d : Derivation .statement}
    (hbegin : .kw .BEGIN ∉ d.yield.map Sigma.fst) {s s' : ParserState} {v : Option SQLStatement}
    (h : d.eval actions s = some (v, s')) : s'.lengthStart = s.lengthStart := by
  refine Tree.eval_moves_of_yield (B := (· = .kw .BEGIN))
    (K := fun n => n ≠ NT.input ∧ n ≠ NT.statementList)
    (Q := fun s s' : ParserState => s'.lengthStart = s.lengthStart) (fun _ => rfl)
    (fun h h' => h'.trans h) ?_ ?_ (by decide) d (fun t ht heq => hbegin (heq ▸ ht)) h
  · intro n r hn hnot m hm
    have hall : ∀ (n : NT) (r : grammar.Rule n), n ≠ .input ∧ n ≠ .statementList →
        .terminal (.kw .BEGIN) ∈ grammar.rhs r ∨
          .nonterminal .input ∉ grammar.rhs r ∧ .nonterminal .statementList ∉ grammar.rhs r := by
      intro n
      cases n <;> decide +kernel
    rcases hall n r hn with hbegin | ⟨hinput, hlist⟩
    · exact absurd rfl (hnot _ hbegin)
    · exact ⟨fun heq => hinput (heq ▸ hm), fun heq => hlist (heq ▸ hm)⟩
  · intro n r p vs s v s' hn hact
    have hchanges := changes (List.getElem_mem r.2) hact
    unfold NT.Changes at hchanges
    split at hchanges
    · exact absurd rfl hn.1
    · exact absurd rfl hn.2
    · rw [hchanges]
      rfl
    · rw [hchanges]
      rfl
    · rcases hchanges with rfl | rfl <;> rfl
    · rcases hchanges with rfl | rfl <;> rfl
    · rw [hchanges]

/-- What both lists in a grafted one make. -/
theorem Grafted.eval_back {l₁ l l' : Derivation .statementList} {a : TokenKind.Val (.ch ';')}
    (h : Grafted l₁ a l l') {s s₂ : ParserState} {stmts : List (Option SQLStatement)}
    (heval : l'.eval actions s = some (some stmts, s₂)) : ∃ stmts₁ s₁ stmts₂,
      l₁.eval actions s = some (some stmts₁, s₁) ∧
        l.eval actions s₁ = some (some stmts₂, s₂) ∧ stmts = stmts₁ ++ stmts₂ := by
  induction h generalizing s₂ stmts with
  | first p d =>
    rw [eval_next] at heval
    obtain ⟨x, hx, heval⟩ := Option.bind_eq_some_iff.mp heval
    obtain ⟨y, hd, heval⟩ := Option.bind_eq_some_iff.mp heval
    obtain ⟨z, hmeasure, heval⟩ := Option.bind_eq_some_iff.mp heval
    obtain ⟨v, hpush, heq⟩ := Option.map_eq_some_iff.mp heval
    cases heq
    obtain ⟨stmts₁, hlist, heq⟩ := Option.map_eq_some_iff.mp hpush
    cases heq
    refine ⟨stmts₁, x.2, [z.1], hx.trans (congrArg (fun w => some (w, x.2)) hlist), ?_, rfl⟩
    rw [eval_first, hd, Option.bind_some, hmeasure]
    rfl
  | next p b d h ih =>
    rw [eval_next] at heval
    obtain ⟨x, hx, heval⟩ := Option.bind_eq_some_iff.mp heval
    obtain ⟨y, hd, heval⟩ := Option.bind_eq_some_iff.mp heval
    obtain ⟨z, hmeasure, heval⟩ := Option.bind_eq_some_iff.mp heval
    obtain ⟨v, hpush, heq⟩ := Option.map_eq_some_iff.mp heval
    cases heq
    obtain ⟨stmts', hlist, heq⟩ := Option.map_eq_some_iff.mp hpush
    cases heq
    obtain ⟨stmts₁, s₁, stmts₂, h₁, h₂, rfl⟩ :=
      ih (hx.trans (congrArg (fun w => some (w, x.2)) hlist))
    refine ⟨stmts₁, s₁, stmts₂ ++ [z.1], h₁, ?_, List.append_assoc _ _ _⟩
    rw [eval_next, h₂, Option.bind_some, hd, Option.bind_some, hmeasure]
    rfl

/-! Pieces. -/

/-- Parsed one after the other, the pieces of a text that the lengths of the statements cut off are
these statements. -/
inductive Sliced : Heap → Str → List (Option SQLStatement) → Prop
  | nil (heap : Heap) (rest : Str) : Sliced heap rest []
  | cons {heap heap' : Heap} {rest : Str} {stmt : SQLStatement} {n : Nat} {r : SQLParserResult}
      {stmts : List (Option SQLStatement)} (hlength : stmt.stringLength = some n)
      (hparses : Parses heap .new (rest.take n) heap' r) (hvalid : r.isValid = true)
      (hstmt : withoutLengths r.statements = withoutLengths [some stmt])
      (h : Sliced heap' (rest.drop n) stmts) : Sliced heap rest (some stmt :: stmts)

section
variable {t : List (Sigma TokenKind.Val × Location)} {eof₀ : Location} {d : Derivation .input}

/-- Another text with the tokens of a run is accepted with the same derivation. -/
theorem builds_of_runs (h : (inputConfig t).Runs automaton eof₀ (.accept [.value 10 .input d] ()))
    {sql : Str}
    (htokens : t.map Prod.fst = (tokens sql).map fun t => ⟨t.kind, t.val⟩) :
    ∃ d', Builds sql d' ∧ d.tokensOnly = d'.tokensOnly := by
  have hinput : t.map Prod.fst = (Location.zero.tokens (lexemes sql)).map Prod.fst := by
    rw [tokens_map_fst]
    exact htokens
  have halike : Config.Alike (viewImage grammar forgetImage.token forgetImage.place)
      (inputConfig t) (startConfig (trees grammar TokenKind.Val Location) sql ()) :=
    ⟨rfl, input_forget hinput, rfl, rfl, rfl⟩
  exact runs_alike (viewImage_respected (G := grammar) forgetImage.token forgetImage.place)
    (show forgetImage.place eof₀ = forgetImage.place (eof sql) from rfl) h halike trivial

theorem parses_of_tokens {p : Location} {l : Derivation .statementList}
    {o : Derivation .optSemicolon} {sql : Str} (hbuilds : Builds sql d)
    (hd : (inputTree p l o).tokensOnly = d.tokensOnly) {s s₁ : ParserState}
    {stmts : List (Option SQLStatement)} (heval : l.eval actions s = some (some stmts, s₁)) :
    ∃ r, Parses s.heap .new sql s₁.heap r ∧ r.isValid = true ∧
      withoutLengths r.statements = withoutLengths stmts := by
  obtain ⟨stmts', s', hlist, hheap, hstmts⟩ := eval_list_of_tokens
    (show l.tokensOnly = l.tokensOnly from rfl)
    (show s.heap = (ParserState.start s.heap .new).heap from rfl) heval
  have hnode : (inputTree p l o).eval actions (.start s.heap .new) = some ((), s'.finish stmts') := by
    rw [eval_inputTree, hlist]
    rfl
  obtain ⟨s₂, hs, hheap', hstatements⟩ := eval_of_tokens hd.symm hnode
  have hheap₂ : s₂.heap = s₁.heap := hheap'.trans hheap
  obtain ⟨hparses, hvalid⟩ := parses_valid_iff.mpr ⟨d, s₂, hbuilds, hs, rfl, rfl⟩
  rw [hheap₂] at hparses
  refine ⟨_, hparses, hvalid, hstatements.trans ?_⟩
  rw [ParserState.statements_finish, Derivation.result_eq (by decide) l hlist]
  exact hstmts

end

/-! The scanner on a piece. -/

theorem character_line {s : Str} {n : Nat} {q : Start} {r : LexRule} {tok : Token} {c : Char}
    (h : munch rules q s = some (n, r)) (hact : r.action (s.take n) = .token tok)
    (hkind : tok.kind = .ch c) : '\n' ∉ s.take n := by
  obtain ⟨hr, -, -, hmem⟩ := munch_length_le h
  rcases token_rule hr hact with ⟨k, -, h⟩ | hop | ⟨rfl, -⟩ | ⟨-, h⟩ | ⟨-, h⟩ | ⟨-, h⟩ | ⟨-, h⟩
  · cases hkind.symm.trans h
  · have hkinds := operators_kind hop hact
    rw [hkind] at hkinds
    simp at hkinds
  · obtain ⟨c', hc', heq⟩ := (Regex.mem_lang_cls _ _).mp hmem
    rw [heq, List.mem_singleton]
    rintro rfl
    exact absurd hc' (by decide)
  · cases hkind.symm.trans h
  · cases hkind.symm.trans h
  · cases hkind.symm.trans h
  · cases hkind.symm.trans h

section
variable {s : Str} {L : List (Lexeme Start Token)}

/-- Up to a token the scanner finds the same alone, and behind a semicolon as well. -/
theorem lexemes_cut (hnul : '\x00' ∉ s) {M N : List (Lexeme Start Token)} {x : Lexeme Start Token}
    (h : scan rules 0 .INITIAL s = M ++ x :: N) {tok : Token} (hact : x.act = .token tok) :
    lexemes (texts (M ++ [x])) = M ++ [x] ∧
      (tok.kind = .ch ';' → ∃ s', '\x00' ∉ s' ∧ scan rules 0 .INITIAL s' = N) := by
  obtain ⟨q, s', n, r, hM, hm, hn, rfl⟩ := scan_eq_append rules_progress h
  have haction : r.action (s'.take n) = .token tok := hact
  have hone := Lexes.single q hm hn (show (r.action (s'.take n)).next q = some q by rw [haction]; rfl)
  have hrun := hM.trans hone
  have htext := hrun.text_eq
  constructor
  · have hcut : cStr (texts (M ++ [⟨s'.take n, r.action (s'.take n)⟩])) =
        texts (M ++ [⟨s'.take n, r.action (s'.take n)⟩]) := by
      refine (cStr_eq_self_iff _).mpr fun hmem => hnul ?_
      rw [htext]
      exact List.mem_append_left _ hmem
    have hpiece := hrun.truncate
    rw [← hcut] at hpiece
    have hlex := lexemes_of_lexes hpiece
    rw [scan_nil, List.append_nil] at hlex
    exact hlex
  · intro hkind
    obtain rfl := initial_of_token hm (character_line hm haction hkind) haction
    refine ⟨s'.drop n, fun hmem => hnul ?_, ?_⟩
    · rw [htext]
      exact List.mem_append_right _ hmem
    · have hscan := hrun.scan_eq
      rw [h, List.append_assoc] at hscan
      exact (List.cons_eq_cons.mp (List.append_cancel_left hscan)).2.symm

/-- What the scanner has matched it finds alone as well. -/
theorem lexemes_whole (hnul : '\x00' ∉ s) (h : scan rules 0 .INITIAL s = L) :
    lexemes (texts L) = L := by
  obtain ⟨M, q, s', hM, hend⟩ := exists_lexes rules_progress .INITIAL s
  have hscan := hM.scan_eq
  rw [h] at hscan
  rcases hend with rfl | ⟨n, r, hm, hn, hstop⟩
  · rw [scan_nil, List.append_nil] at hscan
    subst hscan
    have hcut : cStr (texts L) = texts L := by
      refine (cStr_eq_self_iff _).mpr fun hmem => hnul ?_
      rw [hM.text_eq]
      exact List.mem_append_left _ hmem
    have hpiece := hM.truncate
    rw [← hcut] at hpiece
    have hlex := lexemes_of_lexes hpiece
    rwa [scan_nil, List.append_nil] at hlex
  · -- the last match ends the input
    rw [scan_eq hm hn, hstop, Option.elim_none] at hscan
    subst hscan
    have hlen := (munch_length_le hm).2.1
    have htexts : texts (M ++ [⟨s'.take n, r.action (s'.take n)⟩]) = texts M ++ s'.take n := by
      rw [texts_append, texts_cons, texts_nil, List.append_nil]
    have hcut : cStr (texts M ++ s'.take n) = texts M ++ s'.take n := by
      refine (cStr_eq_self_iff _).mpr fun hmem => hnul ?_
      rw [hM.text_eq]
      rcases List.mem_append.mp hmem with hmem | hmem
      · exact List.mem_append_left _ hmem
      · exact List.mem_append_right _ (List.mem_of_mem_take hmem)
    have hpiece := hM.truncate_at (List.take_prefix n s')
    rw [← hcut] at hpiece
    have hlex := lexemes_of_lexes hpiece
    have htake : (s'.take n).take n = s'.take n := by
      rw [List.take_take, min_self]
    have hmunch := munch_take hm le_rfl
    rw [scan_eq hmunch hn, htake, hstop, Option.elim_none] at hlex
    rw [htexts]
    exact hlex

end
theorem Location.tokens_cut {L : List (Lexeme Start Token)} {loc : Location}
    {pre rest : List (Sigma TokenKind.Val × Location)} {t : Sigma TokenKind.Val} {p : Location}
    (h : loc.tokens L = pre ++ (t, p) :: rest) : ∃ M x N tok, L = M ++ x :: N ∧
      x.act = .token tok ∧ t = ⟨tok.kind, tok.val⟩ ∧ p = loc.after (M ++ [x]) ∧
        rest = p.tokens N ∧ (pre ++ [(t, p)]).map Prod.fst =
          (Flex.tokens (M ++ [x])).map fun t => ⟨t.kind, t.val⟩ := by
  obtain ⟨M, x, N, tok, rfl, hact, ht, hp, hrest⟩ := tokens_eq_append h
  refine ⟨M, x, N, tok, rfl, hact, ht, hp, hrest, ?_⟩
  have hfst := congrArg (List.map Prod.fst) h
  rw [tokens_map_fst, List.append_cons pre, List.append_cons M, Flex.tokens_append, List.map_append,
    List.map_append, hrest, tokens_map_fst] at hfst
  exact (List.append_cancel_right hfst).symm

/-! Lists of statements. -/

section
variable {t : List (Sigma TokenKind.Val × Location)} {eof₀ : Location}
  {l : Derivation .statementList}

theorem not_comes_nil : ¬ Comes [] eof₀ l := by
  intro h
  obtain ⟨p, o, hrun⟩ := h.runs
  have hreject : (inputConfig []).Runs automaton eof₀ (.reject [] none eof₀ ()) := .stop rfl
  cases hrun.unique hreject

theorem Comes.single (h : Comes t eof₀ l) (hno : ∀ x ∈ t, x.1.1 ≠ .ch ';') : ∃ q d,
    l = .node ⟨0, by decide⟩ q (.tree d .nil) ∧ d.yield = t.map Prod.fst := by
  have hyield := h.yield
  match l with
  | .node ⟨0, _⟩ q (.tree d .nil) =>
    exact ⟨q, d, rfl, (List.append_nil _).symm.trans hyield⟩
  | .node ⟨1, _⟩ q (.tree l (.token a (.tree d .nil))) =>
    have hmem : (⟨.ch ';', a⟩ : Sigma TokenKind.Val) ∈ t.map Prod.fst := by
      rw [← hyield]
      exact List.mem_append_right _ List.mem_cons_self
    obtain ⟨x, hx, heq⟩ := List.mem_map.mp hmem
    exact absurd (congrArg Sigma.fst heq) (hno x hx)

/-- A semicolon behind the statements is accepted as well. -/
theorem Comes.runs_semicolon {p : Location} (h : Comes t p l)
    (hlast : ∀ x ∈ t.getLast?, x.1.1 ≠ .ch ';') (a : TokenKind.Val (.ch ';')) (eof₀ : Location) :
    ∃ o, (inputConfig (t ++ [(⟨.ch ';', a⟩, p)])).Runs automaton eof₀
      (.accept [.value 10 .input (inputTree eof₀ l o)] ()) := by
  obtain ⟨p₁, o₁, hrun⟩ := h.runs
  obtain ⟨p₂, l', o₂, look, pos, heq, -, hext⟩ := runs_reach hrun hlast
  cases heq
  exact ⟨.node ⟨0, by decide⟩ eof₀ (.token a .nil),
    (hext a [] eof₀).runs (.next (Config.step_shift rfl rfl) (.next rfl (.next rfl (.stop rfl))))⟩

end

/-- No statement starts with a semicolon. -/
theorem not_runs_semicolon {a : TokenKind.Val (.ch ';')} {p : Location} {d : Derivation .input} :
    ¬ (inputConfig ((⟨.ch ';', a⟩, p) :: t)).Runs automaton eof₀
      (.accept [.value 10 .input d] ()) := by
  intro h
  have hreject : (inputConfig ((⟨.ch ';', a⟩, p) :: t)).Runs automaton eof₀
      (.reject [] (some (.ch ';')) p ()) := .stop rfl
  cases h.unique hreject

/-- Where the list is measured behind its last token. -/
theorem Comes.exists_last (h : Comes t eof₀ l) {L : List (Lexeme Start Token)} {loc q : Location}
    {u : List (Sigma TokenKind.Val × Location)} (ht : loc.tokens L = t ++ u)
    (hq : q = (t.getLast?.map Prod.snd).getD .zero) : ∃ M x N tok, L = M ++ x :: N ∧
      t.map Prod.fst = (Flex.tokens (M ++ [x])).map (fun t => ⟨t.kind, t.val⟩) ∧
        x.act = .token tok ∧ u = (loc.after (M ++ [x])).tokens N ∧ q = loc.after (M ++ [x]) := by
  rcases List.eq_nil_or_concat t with rfl | ⟨pre, ⟨y, p⟩, rfl⟩
  · exact absurd h not_comes_nil
  · rw [List.concat_eq_append] at ht hq ⊢
    rw [List.append_assoc] at ht
    obtain ⟨M, x, N, tok, rfl, hact, rfl, rfl, hu, htokens⟩ := Location.tokens_cut ht
    rw [List.getLast?_concat] at hq
    exact ⟨M, x, N, tok, rfl, htokens, hact, hu, hq⟩

/-- Between the semicolons: the statements of a text in which no trigger has a body. -/
def statementKinds (ts : List TokenKind) : List (List TokenKind) :=
  (ts.splitOn (.ch ';')).filter (· ≠ [])

theorem statementKinds_ne_nil {t : TokenKind} (h : t ≠ .ch ';') (ts : List TokenKind) :
    statementKinds (t :: ts) ≠ [] := by
  unfold statementKinds
  rw [List.splitOn_cons_eq_if_modifyHead, if_neg (by simpa using h)]
  obtain ⟨x, xs, hx⟩ := List.exists_cons_of_ne_nil (List.splitOn_ne_nil (.ch ';') ts)
  rw [hx]
  simp

theorem statementKinds_append {stmt : List TokenKind} (hne : stmt ≠ []) (h : .ch ';' ∉ stmt)
    (ts : List TokenKind) :
    statementKinds (stmt ++ .ch ';' :: ts) = stmt :: statementKinds ts := by
  unfold statementKinds
  rw [List.splitOn_append_cons_self_of_not_mem h, List.filter_cons_of_pos (by simpa using hne)]

section
variable {K : List (Lexeme Start Token)} {loc : Location} {s s₁ : ParserState}
  {stmts : List (Option SQLStatement)}

/-- A statement that is measured where its piece ends. -/
theorem sliced_piece {d : Derivation .statement} (hK : lexemes (texts K) = K)
    {t : List (Sigma TokenKind.Val × Location)} {eof₀ p : Location} {o : Derivation .optSemicolon}
    (hrun : (inputConfig t).Runs automaton eof₀ (.accept [.value 10 .input
      (inputTree p (.node ⟨0, by decide⟩ (loc.after K) (.tree d .nil)) o)] ()))
    (htokens : t.map Prod.fst = (Flex.tokens K).map fun t => ⟨t.kind, t.val⟩)
    (hbegin : .kw .BEGIN ∉ d.yield.map Sigma.fst) (hs : s.lengthStart = loc.totalColumn)
    (heval : (Bison.Tree.node ⟨0, by decide⟩ (loc.after K) (.tree d .nil) :
      Derivation .statementList).eval actions s = some (some stmts, s₁)) :
    ∃ stmt, stmts = [stmt] ∧ s₁.lengthStart = (loc.after K).totalColumn ∧
      ∀ rest stmts', Sliced s₁.heap rest stmts' →
        Sliced s.heap (texts K ++ rest) (stmt :: stmts') := by
  have htext : t.map Prod.fst = (Hsql.tokens (texts K)).map fun t => ⟨t.kind, t.val⟩ := by
    rw [htokens, Hsql.tokens, hK]
  obtain ⟨d', hbuilds, hd⟩ := builds_of_runs hrun htext
  obtain ⟨r, hparses, hvalid, hstmts⟩ := parses_of_tokens hbuilds hd heval
  rw [eval_first] at heval
  obtain ⟨⟨v, s₂⟩, hd₂, heval⟩ := Option.bind_eq_some_iff.mp heval
  obtain ⟨⟨w, s₃⟩, hmeasure, heq⟩ := Option.map_eq_some_iff.mp heval
  have hstart := Derivation.lengthStart_eq hbegin hd₂
  obtain ⟨y, -, heq'⟩ := Option.map_eq_some_iff.mp hmeasure
  cases heq'
  cases heq
  refine ⟨_, rfl, rfl, fun rest stmts' h => ?_⟩
  have hlength : (loc.after K).totalColumn - s₂.lengthStart = (texts K).length := by
    rw [hstart, hs, Location.totalColumn_after, Nat.add_sub_cancel_left]
  rw [hlength] at hstmts ⊢
  have hpiece : Parses s.heap .new ((texts K ++ rest).take (texts K).length) s₂.heap r := by
    rw [List.take_left]
    exact hparses
  have hrest : Sliced s₂.heap ((texts K ++ rest).drop (texts K).length) stmts' := by
    rw [List.drop_left]
    exact h
  exact .cons rfl hpiece hvalid hstmts hrest

end

theorem kinds_tokens (loc : Location) (L : List (Lexeme Start Token)) :
    (loc.tokens L).map (fun x => x.1.1) = (Flex.tokens L).map Token.kind := by
  have hfst := congrArg (List.map Sigma.fst) (tokens_map_fst loc L)
  rw [List.map_map, List.map_map] at hfst
  exact hfst

/-- The text of the lexemes is sliced, whatever is behind it. -/
theorem sliced_of_runs {L : List (Lexeme Start Token)} {src : Str} (hnul : '\x00' ∉ src)
    (hscan : scan rules 0 .INITIAL src = L) {loc p : Location} {l : Derivation .statementList}
    {o : Derivation .optSemicolon}
    (hrun : (inputConfig (loc.tokens L)).Runs automaton (loc.after L)
      (.accept [.value 10 .input (inputTree p l o)] ()))
    (hbegin : .kw .BEGIN ∉ (Flex.tokens L).map Token.kind)
    (hread : ∀ stmt ∈ (statementKinds ((Flex.tokens L).map Token.kind)).dropLast,
      endsUnread stmt = false)
    {s s' : ParserState} (hs : s.lengthStart = loc.totalColumn)
    {stmts : List (Option SQLStatement)} (heval : l.eval actions s = some (some stmts, s'))
    (rest : Str) : Sliced s.heap (texts L ++ rest) stmts := by
  induction hlen : L.length using Nat.strong_induction_on
    generalizing L src loc p l o s s' stmts with
  | _ n ih =>
  rw [← kinds_tokens loc] at hbegin hread
  have hbegin' : ∀ x ∈ loc.tokens L, x.1.1 ≠ .kw .BEGIN :=
    fun x hx heq => hbegin (List.mem_map.mpr ⟨x, hx, heq⟩)
  by_cases hsemi : .ch ';' ∈ (loc.tokens L).map fun x => x.1.1
  · -- the first statement, and what is behind its semicolon
    obtain ⟨ks, ks', hkinds, hno⟩ := List.eq_append_cons_of_mem hsemi
    obtain ⟨t, u₀, ht, rfl, hu₀⟩ := List.map_eq_append_iff.mp hkinds
    obtain ⟨⟨⟨c, a⟩, p₁⟩, u, rfl, rfl, rfl⟩ := List.map_eq_cons_iff.mp hu₀
    dsimp only at *
    rw [ht] at hbegin' hrun
    have hno' : ∀ x ∈ t, x.1.1 ≠ .ch ';' :=
      fun x hx heq => hno (List.mem_map.mpr ⟨x, hx, heq⟩)
    obtain ⟨l₁, hcomes, hend, hgo⟩ :=
      runs_split hrun fun x hx => hbegin' x (List.mem_append_left _ hx)
    obtain ⟨q, d, rfl, hyield⟩ := hcomes.single hno'
    have hbody : .kw .BEGIN ∉ d.yield.map Sigma.fst := by
      rw [hyield, List.map_map]
      intro hmem
      obtain ⟨x, hx, heq⟩ := List.mem_map.mp hmem
      exact hbegin' x (List.mem_append_left _ hx) heq
    by_cases hne : u = []
    · subst hne
      obtain ⟨p₂, o₂, heq⟩ := hend rfl
      cases heq
      rcases hcomes.place with hq | ⟨-, hq⟩
      · -- the piece ends with the semicolon
        obtain ⟨M, x, N, tok, rfl, hact, -, rfl, -, htokens⟩ := Location.tokens_cut ht
        obtain rfl : q = loc.after (M ++ [x]) := hq
        obtain ⟨stmt, rfl, -, hsliced⟩ := sliced_piece (lexemes_cut hnul hscan hact).1 hrun htokens
          hbody hs heval
        rw [List.append_cons, texts_append, List.append_assoc]
        exact hsliced _ [] (.nil _ _)
      · -- it ends in front of the semicolon
        obtain ⟨p₃, o₃, hrun₃⟩ := hcomes.runs
        obtain ⟨M, x, N, tok, hL, htokens, hact, -, rfl⟩ := hcomes.exists_last ht hq
        subst hL
        obtain ⟨stmt, rfl, -, hsliced⟩ := sliced_piece (lexemes_cut hnul hscan hact).1 hrun₃ htokens
          hbody hs heval
        rw [List.append_cons, texts_append, List.append_assoc]
        exact hsliced _ [] (.nil _ _)
    · obtain ⟨M, x, N, tok, rfl, hact, htok, rfl, hu, htokens⟩ := Location.tokens_cut ht
      have hkind : tok.kind = .ch ';' := (congrArg Sigma.fst htok).symm
      obtain ⟨hK, hbehind⟩ := lexemes_cut hnul hscan hact
      obtain ⟨src', hnul', hscan'⟩ := hbehind hkind
      have htne : t ≠ [] := by
        rintro rfl
        exact not_comes_nil hcomes
      obtain ⟨d₂, hrun₂⟩ := hgo hne
      have hkne : statementKinds (u.map fun x => x.1.1) ≠ [] := by
        obtain ⟨⟨⟨k, b⟩, p₃⟩, u', rfl⟩ := List.exists_cons_of_ne_nil hne
        refine statementKinds_ne_nil (fun hy => ?_) _
        obtain rfl : k = .ch ';' := hy
        exact not_runs_semicolon hrun₂
      -- the semicolon is read when the statement is measured
      rw [ht, List.map_append, List.map_cons, statementKinds_append (by simpa using htne) hno,
        List.dropLast_cons_of_ne_nil hkne, List.forall_mem_cons] at hread
      have hq : q = loc.after (M ++ [x]) := by
        refine hcomes.place.resolve_right fun hplace => ?_
        obtain ⟨hq, -⟩ := hplace
        have htrue := statement_endsUnread (kids_endsUnread hq)
        rw [hyield, List.map_map] at htrue
        cases hread.1.symm.trans htrue
      subst hq
      obtain ⟨p₃, o₃, hrun₁⟩ := hcomes.runs
      obtain ⟨p₁, l₁, o₁, p₂, l₂, l', o₂, heq₁, rfl, hgraft, hall⟩ :=
        runs_behind a hrun₁ (fun x hx => hno' x (List.mem_of_mem_getLast? hx)) hrun₂
      cases heq₁
      have heq := (Outcome.accept.inj (hrun.unique hall)).1
      cases heq
      obtain ⟨stmts₁, s₁, stmts₂, heval₁, heval₂, rfl⟩ := hgraft.eval_back heval
      obtain ⟨o₄, hsemicolon⟩ := hcomes.runs_semicolon
        (fun x hx => hno' x (List.mem_of_mem_getLast? hx)) a (loc.after (M ++ [x]))
      obtain ⟨stmt, rfl, hs₁, hsliced⟩ := sliced_piece hK hsemicolon htokens hbody hs heval₁
      subst hu
      have hafter : loc.after (M ++ x :: N) = (loc.after (M ++ [x])).after N := by
        rw [List.append_cons]
        exact List.foldl_append
      rw [hafter] at hrun₂
      have hlt : N.length < n := by
        rw [← hlen, List.length_append, List.length_cons]
        omega
      have hkinds' := kinds_tokens (loc.after (M ++ [x])) N
      have hbegin₂ : .kw .BEGIN ∉ (Flex.tokens N).map Token.kind := by
        rw [← hkinds']
        intro hmem
        obtain ⟨y, hy, heq⟩ := List.mem_map.mp hmem
        exact hbegin' y (List.mem_append_right _ (List.mem_cons_of_mem _ hy)) heq
      rw [hkinds'] at hread
      have hrest := ih N.length hlt hnul' hscan' hrun₂ hbegin₂ hread.2 hs₁ heval₂ rfl
      rw [List.append_cons, texts_append, List.append_assoc]
      exact hsliced _ _ hrest
  · -- one statement
    have hno : ∀ x ∈ loc.tokens L, x.1.1 ≠ .ch ';' :=
      fun x hx heq => hsemi (List.mem_map.mpr ⟨x, hx, heq⟩)
    obtain ⟨p', l', o', hcomes, heq⟩ :=
      runs_comes hrun fun x hx => hno x (List.mem_of_mem_getLast? hx)
    cases heq
    obtain ⟨q, d, rfl, hyield⟩ := hcomes.single hno
    have hbody : .kw .BEGIN ∉ d.yield.map Sigma.fst := by
      rw [hyield, List.map_map]
      exact hbegin
    rcases hcomes.place with hq | ⟨-, hq⟩
    · obtain rfl : q = loc.after L := hq
      obtain ⟨stmt, rfl, -, hsliced⟩ := sliced_piece (lexemes_whole hnul hscan) hrun
        (tokens_map_fst loc L) hbody hs heval
      exact hsliced rest [] (.nil _ _)
    · obtain ⟨M, x, N, tok, hL, htokens, hact, -, rfl⟩ :=
        hcomes.exists_last (List.append_nil _).symm hq
      subst hL
      obtain ⟨stmt, rfl, -, hsliced⟩ := sliced_piece (lexemes_cut hnul hscan hact).1 hrun htokens
        hbody hs heval
      rw [List.append_cons, texts_append, List.append_assoc]
      exact hsliced _ [] (.nil _ _)

/-- **The lengths slice the text** where no trigger has a body and every statement in front of
another one is measured with its semicolon read. -/
theorem sliced_of_read {sql : Str} (hbegin : .kw .BEGIN ∉ codes sql)
    (hread : ∀ stmt ∈ (statementKinds (codes sql)).dropLast, endsUnread stmt = false)
    {heap heap' : Heap} {r : SQLParserResult} (h : Parses heap .new sql heap' r)
    (hvalid : r.isValid = true) : Sliced heap sql r.statements := by
  obtain ⟨d, s, hbuilds, heval, -, rfl⟩ := parses_valid_iff.mp ⟨h, hvalid⟩
  obtain ⟨p, l, o, stmts, s₁, s₂, rfl, hlist, hsemi, rfl⟩ := Derivation.eval_input heval
  obtain ⟨rest, hrest⟩ := texts_lexemes_isPrefix sql
  have hstmts : ((s₂.finish stmts).result.setIsValid true).statements = stmts := by
    show (s₂.finish stmts).result.statements = stmts
    rw [ParserState.statements_finish, Derivation.result_eq (by decide) o hsemi,
      Derivation.result_eq (by decide) l hlist]
    rfl
  have hsliced := sliced_of_runs (notMem_cStr sql) rfl hbuilds hbegin hread
    (show (ParserState.start heap .new).lengthStart = Location.zero.totalColumn from rfl) hlist rest
  rw [hstmts, ← hrest]
  exact hsliced

theorem sliced_of_read_insert : ∃ heap' r,
    Parses ⟨0, 0, 0, 0⟩ .new "SELECT a FROM t;\n INSERT INTO u VALUES (?);".toList heap' r ∧
      Sliced ⟨0, 0, 0, 0⟩ "SELECT a FROM t;\n INSERT INTO u VALUES (?);".toList r.statements := by
  have hrun : (parse 100 ⟨0, 0, 0, 0⟩ .new
      "SELECT a FROM t;\n INSERT INTO u VALUES (?);".toList).map (·.2.isValid) = some true := by
    rw [parse_rowwise]
    decide +kernel
  obtain ⟨⟨heap', r⟩, hparse, hvalid⟩ := Option.map_eq_some_iff.mp hrun
  have hbegin : .kw .BEGIN ∉ codes "SELECT a FROM t;\n INSERT INTO u VALUES (?);".toList := by
    rw [codes_rulesAt]
    decide +kernel
  have hread : ∀ stmt ∈
      (statementKinds (codes "SELECT a FROM t;\n INSERT INTO u VALUES (?);".toList)).dropLast,
      endsUnread stmt = false := by
    rw [codes_rulesAt]
    decide +kernel
  exact ⟨heap', r, .of_parse hparse, sliced_of_read hbegin hread (.of_parse hparse) hvalid⟩

/-- Each piece is a valid text. -/
theorem Sliced.head {heap : Heap} {rest : Str} {stmt : Option SQLStatement}
    {stmts : List (Option SQLStatement)} (h : Sliced heap rest (stmt :: stmts)) :
    ∃ n heap', stmt.bind (·.stringLength) = some n ∧ Valid (rest.take n) ∧
      Sliced heap' (rest.drop n) stmts := by
  cases h with
  | cons hlength hparses hvalid hstmt hrest =>
    exact ⟨_, _, hlength, ⟨_, _, _, _, hparses, hvalid⟩, hrest⟩

/-- The first of these statements ends in front of its semicolon, which no statement starts with. -/
theorem not_forall_sliced : ¬ ∀ (sql : Str) (heap heap' : Heap) (r : SQLParserResult),
    Parses heap .new sql heap' r → r.isValid = true → Sliced heap sql r.statements := by
  intro hall
  have hrun : (parse 100 ⟨0, 0, 0, 0⟩ .new "DROP INDEX a;DROP INDEX b".toList).map
      (fun x => (x.2.isValid, x.2.statements.map fun s => s.bind (·.stringLength))) =
        some (true, [some 12, some 13]) := by
    rw [parse_rowwise]
    decide +kernel
  obtain ⟨⟨heap', r⟩, hparse, heq⟩ := Option.map_eq_some_iff.mp hrun
  obtain ⟨hvalid, hlengths⟩ := Prod.mk.inj heq
  have hsliced := hall _ _ _ _ (.of_parse hparse) hvalid
  obtain ⟨x, l, hstmts, hx, hl⟩ := List.map_eq_cons_iff.mp hlengths
  obtain ⟨y, l', rfl, hy, -⟩ := List.map_eq_cons_iff.mp hl
  rw [show r.statements = x :: y :: l' from hstmts] at hsliced
  obtain ⟨n, heap₁, hn, -, hrest⟩ := hsliced.head
  obtain rfl := Option.some.inj (hx.symm.trans hn)
  obtain ⟨m, heap₂, hm, hpiece, -⟩ := hrest.head
  obtain rfl := Option.some.inj (hy.symm.trans hm)
  have hrejected : follow automaton 20 [] [.ch ';'] = .rejected := by
    rw [automaton_eq_rowwise]
    decide +kernel
  refine not_valid_of_follow hrejected ?_ hpiece
  rw [codes_rulesAt]
  decide +kernel

/-- Without the semicolon it goes through. -/
example : follow automaton 20 [] [.kw .DROP, .kw .INDEX, .IDENTIFIER] ≠ .rejected := by
  rw [automaton_eq_rowwise]
  decide +kernel

end Hsql
