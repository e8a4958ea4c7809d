import Hsql.Parser.KeywordNames
import Hsql.Parser.Places

/-! A keyword for a name: where `string_or_token` reads the name, and the keyword is written like
the text of its action, the tree is that of the text with the name. -/

namespace Hsql
open Bison Keyword TokenKind

abbrev BuildConfig := Config (trees grammar TokenKind.Val Location)

abbrev BuildEntry := Entry TokenKind.Val (Bison.Tree grammar TokenKind.Val Location)

section
variable {c : BuildConfig} {eof : Location} {n : NT} {r : grammar.Rule n}
  {vs : Vals TokenKind.Val (Bison.Tree grammar TokenKind.Val Location) (grammar.rhs r)}
  {rest stack : List BuildEntry}

theorem runs_reduce (hrun : c.Runs automaton eof (.accept stack ()))
    (haction : c.action automaton = .reduce r)
    (hpop : pop (grammar.rhs r) c.stack = some (vs, rest)) :
    ∃ g p, automaton.goto (topState rest) n = some g ∧
      Config.Runs (M := trees grammar TokenKind.Val Location) automaton eof
        { c.ahead automaton eof with stack := .value g n (.node r p (.ofVals vs)) :: rest }
        (.accept stack ()) := by
  obtain ⟨d, hstep, hrun⟩ := hrun.exists_step (by simp [haction])
  rcases Config.step_cases hstep with ⟨q, t, a, p, rest', hshift, -, -⟩ |
    ⟨n', r', vs', rest', g, v, s, hreduce, hpop', hgoto, hact, rfl⟩
  · rw [haction] at hshift
    cases hshift
  · rw [haction] at hreduce
    cases hreduce
    rw [hpop] at hpop'
    cases hpop'
    obtain ⟨rfl, -⟩ := Prod.mk.inj (Option.some.inj hact)
    exact ⟨g, _, hgoto, hrun⟩

theorem runs_default (hrun : c.Runs automaton eof (.accept stack ())) {q : Nat}
    (hq : topState c.stack = q) (hrow : automaton.row q = ⟨[], .reduce r⟩)
    (hpop : pop (grammar.rhs r) c.stack = some (vs, rest)) :
    ∃ g p, automaton.goto (topState rest) n = some g ∧
      Config.Runs (M := trees grammar TokenKind.Val Location) automaton eof
        { c with stack := .value g n (.node r p (.ofVals vs)) :: rest } (.accept stack ()) := by
  have haction : c.action automaton = .reduce r := by
    rw [Config.action, hq, hrow]
    rfl
  have hahead : c.ahead automaton eof = c := by
    unfold Config.ahead
    rw [hq, hrow]
    rfl
  obtain ⟨g, p, hgoto, hd⟩ := runs_reduce hrun haction hpop
  rw [hahead] at hd
  exact ⟨g, p, hgoto, hd⟩

theorem pop_single (q : Nat) (t : TokenKind) (a : t.Val) :
    pop [.terminal t] (Entry.token q t a :: rest) = some ((a, ()), rest) := by
  show (popToken t (Entry.token q t a :: rest)).map _ = _
  rw [popToken, dif_pos rfl]
  rfl

theorem runs_keyword {k : Keyword} {w : String} (hk : (k, w) ∈ keywordNames)
    (hrun : c.Runs automaton eof (.accept stack ()))
    (hstack : c.stack = .token (nameState k) (.kw k) () :: rest) : ∃ g p r kids,
      automaton.goto (topState rest) .stringOrToken = some g ∧ nameText r kids = w.toList ∧
        Config.Runs (M := trees grammar TokenKind.Val Location) automaton eof
          { c with stack := .value g .stringOrToken (.node r p kids) :: rest }
          (.accept stack ()) := by
  have hreads (q : Nat) (r : grammar.Rule .stringOrToken)
      (vs : Vals TokenKind.Val (Bison.Tree grammar TokenKind.Val Location) (grammar.rhs r))
      (hq : topState c.stack = q) (hrow : automaton.row q = ⟨[], .reduce r⟩)
      (hpop : pop (grammar.rhs r) c.stack = some (vs, rest))
      (htext : nameText r (.ofVals vs) = w.toList) : ∃ g p r kids,
        automaton.goto (topState rest) .stringOrToken = some g ∧ nameText r kids = w.toList ∧
          Config.Runs (M := trees grammar TokenKind.Val Location) automaton eof
            { c with stack := .value g .stringOrToken (.node r p kids) :: rest }
            (.accept stack ()) := by
    obtain ⟨g, p, hgoto, hd⟩ := runs_default hrun hq hrow hpop
    exact ⟨g, p, r, .ofVals vs, hgoto, htext, hd⟩
  have htop : topState c.stack = nameState k := by
    rw [hstack]
    rfl
  have hpop : pop [.terminal (.kw k)] c.stack = some (((), ()), rest) := by
    rw [hstack]
    exact pop_single ..
  simp only [keywordNames, List.mem_cons, Prod.mk.injEq, List.not_mem_nil, or_false] at hk
  obtain ⟨rfl, rfl⟩ | ⟨rfl, rfl⟩ | ⟨rfl, rfl⟩ | ⟨rfl, rfl⟩ | ⟨rfl, rfl⟩ | ⟨rfl, rfl⟩ := hk
  · exact hreads 37 ⟨2, by decide⟩ ((), ()) htop rfl hpop rfl
  · exact hreads 43 ⟨3, by decide⟩ ((), ()) htop rfl hpop rfl
  · exact hreads 46 ⟨4, by decide⟩ ((), ()) htop rfl hpop rfl
  · exact hreads 44 ⟨5, by decide⟩ ((), ()) htop rfl hpop rfl
  · exact hreads 42 ⟨6, by decide⟩ ((), ()) htop rfl hpop rfl
  · exact hreads 38 ⟨7, by decide⟩ ((), ()) htop rfl hpop rfl

end

theorem act_identifier (t : Option TokenKind) : (automaton.row 33).act t =
    if t = some (.ch '(') then .reduce (⟨0, by decide⟩ : grammar.Rule .stringOrToken)
    else if t = some (.ch '.') then .shift 106
    else .reduce (⟨0, by decide⟩ : grammar.Rule .columnName) := by
  have hrow : automaton.row 33 =
      ⟨[(some (.ch '('), .reduce (⟨0, by decide⟩ : grammar.Rule .stringOrToken)),
        (some (.ch '.'), .shift 106)], .reduce (⟨0, by decide⟩ : grammar.Rule .columnName)⟩ := rfl
  rw [hrow, Row.act]
  split_ifs with hparen hdot
  · subst hparen
    rfl
  · subst hdot
    rfl
  · rw [List.lookup_eq_none_iff.mpr (by simp [hparen, hdot])]
    rfl

/-- Behind the name, where the runs are alike again, they stay so. -/
theorem named_eq {e e' : BuildConfig} {eof eof' : Location} {d d' : Derivation .input}
    (halike : Config.Alike nameImage e e')
    (hrun : e.Runs automaton eof (.accept [.value 10 .input d] ()))
    (hrun' : e'.Runs automaton eof' (.accept [.value 10 .input d'] ())) :
    (named d).view forgetImage.token forgetImage.place =
      (named d').view forgetImage.token forgetImage.place := by
  obtain ⟨o, ho, hout⟩ := hrun.alike nameImage_respected
    (show nameImage.place eof = nameImage.place eof' from rfl) halike
  obtain rfl := ho.unique hrun'
  have hentry := (List.cons_eq_cons.mp hout.1).1
  exact eq_of_heq (Entry.value.inj hentry).2.2

section
variable {e e' : BuildConfig} {eof eof' p p' : Location} {d d' : Derivation .input}
  {k : Keyword} {w : String} {X Y : List (Sigma TokenKind.Val × Location)} {q : Nat}

theorem entry_name {g : Nat} {p p' : Location} {r : grammar.Rule .stringOrToken}
    {kids : Forest grammar TokenKind.Val Location (grammar.rhs r)} {a : Str}
    (h : nameText r kids = a) : nameImage.entry (.value g .stringOrToken (identifier p a)) =
      nameImage.entry (.value g .stringOrToken (.node r p' kids)) := by
  have hview : (named (identifier p a)).view forgetImage.token forgetImage.place =
      (named (.node r p' kids)).view forgetImage.token forgetImage.place := by
    have hkids : nameText r (namedForest kids) = nameText r kids := by
      match r, kids with
      | ⟨0, _⟩, .token a .nil => rfl
      | ⟨1, _⟩, .token a .nil => rfl
      | ⟨2, _⟩, .token a .nil => rfl
      | ⟨3, _⟩, .token a .nil => rfl
      | ⟨4, _⟩, .token a .nil => rfl
      | ⟨5, _⟩, .token a .nil => rfl
      | ⟨6, _⟩, .token a .nil => rfl
      | ⟨7, _⟩, .token a .nil => rfl
    rw [named.eq_def (.node r p' kids)]
    show _ = Tree.view _ _ (identifier p' (nameText r (namedForest kids)))
    rw [hkids, h]
    rfl
  exact congrArg (Entry.value g NT.stringOrToken ·) hview

/-- Where a name is next in one run and the keyword in the other. -/
theorem named_eq_of_met (hk : (k, w) ∈ keywordNames)
    (hmet : Config.Met nameImage ((⟨.IDENTIFIER, w.toList⟩, p) :: X) ((⟨.kw k, ()⟩, p') :: Y) e e')
    (hX : X.map nameImage.input = Y.map nameImage.input)
    (hrun : e.Runs automaton eof (.accept [.value 10 .input d] ()))
    (hrun' : e'.Runs automaton eof' (.accept [.value 10 .input d'] ()))
    (hact : (automaton.row (topState e.stack)).act (some .IDENTIFIER) = .shift q)
    (hread : d.readers[(stackReaders e.stack).length]? = some .stringOrToken) :
    (named d).view forgetImage.token forgetImage.place =
      (named d').view forgetImage.token forgetImage.place := by
  have htop : topState e.stack = topState e'.stack := by
    rw [← nameImage.topState_map, hmet.stack, nameImage.topState_map]
  have haction : e.action automaton = .shift q := by
    rw [Config.action, Config.kind_cons hmet.input]
    exact hact
  obtain ⟨e₁, hstep, hrun⟩ := hrun.exists_step (by simp [haction])
  obtain ⟨e₁', hstep', hrun'⟩ := hrun'.exists_step (by
    rw [Config.action, Config.kind_cons hmet.input']
    exact (interchange_keyword hk).accept)
  -- the name is on top of one stack
  have he₁ : e₁.stack = .token q .IDENTIFIER w.toList :: e.stack ∧ e₁.input = X ∧
      e₁.look = false := by
    rcases Config.step_cases hstep with ⟨q', t, a, p, rest, hshift, hin, rfl⟩ |
      ⟨n, r, vs, rest, g, v, s, hreduce, -, -, -, -⟩
    · rw [haction] at hshift
      rw [hmet.input] at hin
      cases hshift
      cases hin
      exact ⟨rfl, rfl, rfl⟩
    · rw [haction] at hreduce
      cases hreduce
  have hreadBy {c : BuildConfig} {g : Nat} {n : NT} {r : grammar.Rule n} {p : Location}
      {vs : Vals TokenKind.Val (Bison.Tree grammar TokenKind.Val Location) (grammar.rhs r)}
      (hstack : c.stack = .value g n (.node r p (.ofVals vs)) :: e.stack)
      (hone : (Bison.Tree.node r p (.ofVals vs)).readers = [n])
      (hrun : c.Runs automaton eof (.accept [.value 10 .input d] ())) : n = .stringOrToken := by
    have hn := hrun.readBy (Config.readBy_of_single hstack hone)
    rw [hread] at hn
    exact (Option.some.inj hn).symm
  rcases act_keyword hk hact with ⟨hq, hshift'⟩ | rfl | herror
  · -- the keyword is on top of the other
    have he₁' : e₁'.stack = .token (nameState k) (.kw k) () :: e'.stack ∧ e₁'.input = Y ∧
        e₁'.look = false := by
      have haction' : e'.action automaton = .shift (nameState k) := by
        rw [Config.action, Config.kind_cons hmet.input', ← htop]
        exact hshift'
      rcases Config.step_cases hstep' with ⟨q', t, a, p, rest, hshift, hin, rfl⟩ |
        ⟨n, r, vs, rest, g, v, s, hreduce, -, -, -, -⟩
      · rw [haction'] at hshift
        rw [hmet.input'] at hin
        cases hshift
        cases hin
        exact ⟨rfl, rfl, rfl⟩
      · rw [haction'] at hreduce
        cases hreduce
    have hpop : pop [.terminal .IDENTIFIER] e₁.stack = some ((w.toList, ()), e.stack) := by
      rw [he₁.1]
      exact pop_single ..
    obtain ⟨g', p₂', r, kids, hgoto', htext, hrun₂'⟩ := runs_keyword hk hrun' he₁'.1
    rw [← htop] at hgoto'
    rcases hq with rfl | rfl
    · -- a name and nothing else
      have hrow : automaton.row 74 = ⟨[], .reduce (⟨0, by decide⟩ : grammar.Rule .stringOrToken)⟩ :=
        rfl
      obtain ⟨g, p₂, hgoto, hrun₂⟩ := runs_default hrun (by rw [he₁.1]; rfl) hrow hpop
      rw [hgoto] at hgoto'
      cases hgoto'
      refine named_eq ?_ hrun₂ hrun₂'
      refine ⟨?_, ?_, ?_, rfl, rfl⟩
      · exact List.cons_eq_cons.mpr ⟨entry_name htext, hmet.stack⟩
      · show e₁.input.map _ = e₁'.input.map _
        rw [he₁.2.1, he₁'.2.1, hX]
      · exact he₁.2.2.trans he₁'.2.2.symm
    · -- in an expression the next token decides
      have haction₁ : e₁.action automaton = (automaton.row 33).act e₁.kind := by
        rw [Config.action, he₁.1]
        rfl
      rw [act_identifier] at haction₁
      have hkinds : e₁.kind = e₁'.kind := by
        have hheads := congrArg (fun l => l.head?.map fun x => x.1.1) hX
        simp only [List.head?_map, Option.map_map] at hheads
        unfold Config.kind
        rw [he₁.2.1, he₁'.2.1]
        exact hheads
      obtain rfl : g' = 71 := goto_name hact hgoto'
      split_ifs at haction₁ with hparen hdot
      · obtain ⟨g, p₂, hgoto, hrun₂⟩ := runs_reduce hrun haction₁ hpop
        rw [hgoto] at hgoto'
        cases hgoto'
        refine named_eq ?_ hrun₂ (hrun₂'.read rfl)
        have hahead : e₁.ahead automaton eof = e₁.read eof := by
          unfold Config.ahead
          rw [he₁.1]
          rfl
        have hlook {M : Semantics grammar TokenKind.Val Location} (c : Config M) (eof : Location) :
            (c.read eof).look = true := by
          unfold Config.read
          split_ifs with h
          · exact h
          · rfl
        refine ⟨?_, ?_, ?_, rfl, rfl⟩
        · rw [Config.read_stack]
          exact List.cons_eq_cons.mpr ⟨entry_name htext, hmet.stack⟩
        · rw [Config.read_input]
          show (e₁.ahead automaton eof).input.map _ = e₁'.input.map _
          rw [Config.ahead_input, he₁.2.1, he₁'.2.1, hX]
        · rw [hlook]
          show (e₁.ahead automaton eof).look = true
          rw [hahead, hlook]
      · rw [hkinds] at hdot
        exact absurd (.inl (List.mem_singleton.mpr rfl)) (hrun₂'.not_barred barred_dot
          (fun hact => absurd (act_accept hact).2 (Option.some_ne_none _)) hdot)
      · obtain ⟨g, p₂, -, hrun₂⟩ := runs_reduce hrun haction₁ hpop
        cases hreadBy rfl rfl hrun₂
  · -- an alias
    have hrow : automaton.row 215 = ⟨[], .reduce (⟨2, by decide⟩ : grammar.Rule .«alias»)⟩ := rfl
    have hpop : pop [.terminal .IDENTIFIER] e₁.stack = some ((w.toList, ()), e.stack) := by
      rw [he₁.1]
      exact pop_single ..
    obtain ⟨g, p₂, -, hrun₂⟩ := runs_default hrun (by rw [he₁.1]; rfl) hrow hpop
    cases hreadBy rfl rfl hrun₂
  · have haction' : e'.action automaton = .error := by
      rw [Config.action, Config.kind_cons hmet.input', ← htop]
      exact herror
    rcases Config.step_cases hstep' with ⟨q', t, a, p, rest, hshift, -, -⟩ |
      ⟨n, r, vs, rest, g, v, s, hreduce, -, -, -, -⟩
    · rw [haction'] at hshift
      cases hshift
    · rw [haction'] at hreduce
      cases hreduce

end

/-! Texts. -/

/-- The parser, run on tokens that come with their locations, returns with this heap and result. -/
def ParsesTokens (heap : Heap) (result : SQLParserResult)
    (input : List (Sigma TokenKind.Val × Location)) (eof : Location) (heap' : Heap)
    (result' : SQLParserResult) : Prop :=
  ∃ o, Config.Runs (M := actions) automaton eof ⟨[], input, false, .zero, .start heap result⟩ o ∧
    conclude o = some (heap', result')

/-- The tokens with this text for the identifier with that number. -/
def withName (i : ℕ) (w : Str) (input : List (Sigma TokenKind.Val × Location)) :
    List (Sigma TokenKind.Val × Location) :=
  input.modify i fun x => (⟨.IDENTIFIER, w⟩, x.2)

/-- The second text has the keyword, spelled like this, where the first has its identifier with
that number. -/
def HasKeyword (s : Str) (i : ℕ) (k : Keyword) (w : Str) (s' : Str) : Prop :=
  ∃ (a : Str) (A B : List Token) (L L' : List (Flex.Lexeme Start Token)),
    tokens s = A ++ ⟨.IDENTIFIER, a⟩ :: B ∧ A.length = i ∧
      lexemes s' = L ++ ⟨w, .token (.kw k)⟩ :: L' ∧ Flex.tokens L = A ∧ Flex.tokens L' = B

/-- The second text has the tree of the first one with that name in place of its identifier, up to
the lengths of statements. -/
def KeepsTree (s : Str) (i : ℕ) (w : Str) (s' : Str) : Prop :=
  ∀ heap result, ∃ heap' r r',
    ParsesTokens heap result (withName i w (Location.zero.tokens (lexemes s))) (eof s) heap' r ∧
      r.isValid = true ∧ Parses heap result s' heap' r' ∧ r'.isValid = true ∧
      r.statements.map (Option.map (SQLStatement.rename id fun _ => none)) =
        r'.statements.map (Option.map (SQLStatement.rename id fun _ => none))

theorem withName_append (pre post : List (Sigma TokenKind.Val × Location))
    (x : Sigma TokenKind.Val × Location) (w : Str) :
    withName pre.length w (pre ++ x :: post) = pre ++ (⟨.IDENTIFIER, w⟩, x.2) :: post := by
  unfold withName
  induction pre with
  | nil => rfl
  | cons y pre ih =>
    show (y :: (pre ++ x :: post)).modify (pre.length + 1) _ = _
    rw [List.modify_succ_cons, ih]
    rfl

/-- The tokens of a text around one of them. -/
theorem input_append {sql : Str} {A B : List Token} {t : Token}
    (h : tokens sql = A ++ t :: B) : ∃ pre p post,
      Location.zero.tokens (lexemes sql) = pre ++ (⟨t.kind, t.val⟩, p) :: post ∧
        pre.map Prod.fst = A.map (fun t => ⟨t.kind, t.val⟩) ∧
        post.map Prod.fst = B.map fun t => ⟨t.kind, t.val⟩ := by
  have hfst := tokens_map_fst .zero (lexemes sql)
  have htokens : Flex.tokens (lexemes sql) = A ++ t :: B := h
  rw [htokens, List.map_append, List.map_cons, List.map_eq_append_iff] at hfst
  obtain ⟨pre, rest, hinput, hpre, hrest⟩ := hfst
  obtain ⟨x, post, rfl, hx, hpost⟩ := List.map_eq_cons_iff.mp hrest
  refine ⟨pre, x.2, post, ?_, hpre, hpost⟩
  rw [hinput, ← hx]

/-- Statements of derivations that differ in names only. -/
theorem statements_of_named {d d' : Derivation .input} {s s₁ s₁' : ParserState}
    (h : (named d).view forgetImage.token forgetImage.place =
      (named d').view forgetImage.token forgetImage.place)
    (hd : d.eval actions s = some ((), s₁)) (hd' : d'.eval actions s = some ((), s₁')) :
    s₁.result.statements.map (Option.map (SQLStatement.rename id fun _ => none)) =
      s₁'.result.statements.map (Option.map (SQLStatement.rename id fun _ => none)) :=
  statements_of_tokens h ((eval_named d s).trans hd) ((eval_named d' s).trans hd')

/-- The derivation that the parser builds when the identifier has another name. -/
theorem Builds.withName {sql : Str} {d : Derivation .input} (h : Builds sql d)
    {pre post : List (Sigma TokenKind.Val × Location)} {a w : Str} {p : Location}
    (hinput : Location.zero.tokens (lexemes sql) = pre ++ (⟨.IDENTIFIER, a⟩, p) :: post) :
    ∃ d', d'.readers = d.readers ∧
      Config.Runs (M := trees grammar TokenKind.Val Location) automaton (eof sql)
        ⟨[], pre ++ (⟨.IDENTIFIER, w⟩, p) :: post, false, .zero, ()⟩
        (.accept [.value 10 .input d'] ()) := by
  have halike : Config.Alike (eraseImage grammar TokenKind.Val Location)
      (startConfig (trees grammar TokenKind.Val Location) sql ())
      ⟨[], pre ++ (⟨.IDENTIFIER, w⟩, p) :: post, false, .zero, ()⟩ := by
    refine ⟨rfl, ?_, rfl, rfl, rfl⟩
    show (Location.zero.tokens (lexemes sql)).map _ = _
    rw [hinput, List.map_append, List.map_append]
    rfl
  obtain ⟨d', hrun, herase⟩ := runs_alike eraseImage_respected
    (show (eraseImage grammar TokenKind.Val Location).place (eof sql) =
      (eraseImage grammar TokenKind.Val Location).place (eof sql) from rfl) h halike trivial
  have hsame : d.erase = d'.erase := herase
  refine ⟨d', ?_, hrun⟩
  rw [← d'.readers_erase, ← hsame, d.readers_erase]

/-- However the keyword is spelled, the name is the constant of its action. -/
theorem keepsTree_constant {s s' v : Str} {d : Derivation .input} {i : ℕ} {k : Keyword} {w : String}
    (hd : Builds s d) (hread : d.readers[i]? = some .stringOrToken) (hk : (k, w) ∈ keywordNames)
    (hkeyword : HasKeyword s i k v s') (hvalid : Valid s') : KeepsTree s i w.toList s' := by
  obtain ⟨a, A, B, L, L', hs, rfl, hs', hL, hL'⟩ := hkeyword
  have htokens' : tokens s' = A ++ (⟨.kw k, ()⟩ : Token) :: B := by
    rw [tokens, hs', Flex.tokens_append, hL]
    show A ++ (⟨.kw k, ()⟩ : Token) :: Flex.tokens L' = _
    rw [hL']
  obtain ⟨pre, p, post, hinput, hpre, hpost⟩ := input_append hs
  obtain ⟨pre', p', post', hinput', hpre', hpost'⟩ := input_append htokens'
  obtain ⟨d₁, hreaders, hrun⟩ := hd.withName (w := w.toList) hinput
  obtain ⟨d', hbuilds', -⟩ := (valid_iff s').mp hvalid
  have hrun' : (startConfig (trees grammar TokenKind.Val Location) s' ()).Runs automaton (eof s')
      (.accept [.value 10 .input d'] ()) := hbuilds'
  have hseen {xs ys : List (Sigma TokenKind.Val × Location)}
      (h : xs.map Prod.fst = ys.map Prod.fst) :
      xs.map nameImage.input = ys.map nameImage.input := input_forget h
  obtain ⟨e, e', q, hsteps, -, hrun₁, hrun₁', hmet, hact⟩ := hrun.meet (I := nameImage)
    (interchange_keyword hk) nameImage_respected (fun _ _ => rfl) hrun'
    ⟨rfl, rfl, pre, pre', rfl, hinput', hseen (hpre.trans hpre'.symm)⟩
  -- the stack has read as many tokens as stand in front of the name
  have hlength : (stackReaders e.stack).length = A.length := by
    have hspells : e.Spells (pre ++ (⟨.IDENTIFIER, w.toList⟩, p) :: post) :=
      hsteps.inv Config.step_spells rfl
    rw [Config.Spells, hmet.input, List.map_append] at hspells
    rw [length_stackReaders, List.append_cancel_right hspells, hpre, List.length_map]
  have hviews := named_eq_of_met hk hmet (hseen (hpost.trans hpost'.symm)) hrun₁ hrun₁' hact (by
    rw [hlength, hreaders, hread])
  intro heap result
  obtain ⟨heap', r', hparses', hr'⟩ := hvalid.exists_parses heap result
  obtain ⟨d'', s₁', hbuilds'', heval', rfl, rfl⟩ := parses_valid_iff.mp ⟨hparses', hr'⟩
  obtain rfl := hbuilds''.unique hbuilds'
  have hvalues := Tree.eval_view forgetImage_respected (named d₁) (named d'') hviews
    (show forgetImage.state (.start heap result) = forgetImage.state (.start heap result) from rfl)
  rw [eval_named, eval_named, heval', Option.map_some, Option.map_eq_some_iff] at hvalues
  obtain ⟨⟨u, s₁⟩, heval, hseen₁⟩ := hvalues
  have hheap : s₁.heap = s₁'.heap := (Prod.mk.inj hseen₁).2
  refine ⟨s₁'.heap, s₁.result.setIsValid true, _, ⟨.accept [.value 10 .input u] s₁, ?_, ?_⟩, rfl,
    hparses', rfl, statements_of_named hviews heval heval'⟩
  · have hactions := Config.Runs.eval (M := actions) (s := .start heap result) hrun rfl
    rw [eval_accept, heval] at hactions
    have hlengths : pre.length = A.length := by
      have hlengths := congrArg List.length hpre
      rwa [List.length_map, List.length_map] at hlengths
    rw [hinput, ← hlengths, withName_append]
    exact hactions
  · rw [← hheap]
    rfl

/-- **A keyword is a name like any other where `string_or_token` reads it**, if it is written like
the constant of its action. -/
theorem keyword_keepsTree {s s' : Str} {d : Derivation .input} {i : ℕ} {k : Keyword} {w : String}
    (hd : Builds s d) (hread : d.readers[i]? = some .stringOrToken) (hk : (k, w) ∈ keywordNames)
    (hkeyword : HasKeyword s i k w.toList s') (hvalid : Valid s') : KeepsTree s i w.toList s' :=
  keepsTree_constant hd hread hk hkeyword hvalid

theorem valid_of_parse (steps : Nat) {sql : Str}
    (h : (parse steps ⟨0, 0, 0, 0⟩ .new sql).any (fun x => x.2.isValid) = true) : Valid sql := by
  obtain ⟨x, hx, hvalid⟩ := (Option.any_eq_true _ _).mp h
  exact ⟨_, _, _, _, .of_parse hx, hvalid⟩

theorem tokens_plain : tokens "SELECT a FROM t".toList =
    [.kw SELECT, ⟨.IDENTIFIER, ['a']⟩, .kw FROM, ⟨.IDENTIFIER, ['t']⟩] := by
  rw [tokens, lexemes_rulesAt]
  rfl

theorem keyword_keepsTree_text : KeepsTree "SELECT a FROM t".toList 3 "text".toList
    "SELECT a FROM text".toList := by
  have hderive : (derive 100 "SELECT a FROM t".toList).any
      (fun d => decide (d.readers[3]? = some .stringOrToken)) = true := by
    rw [derive_rowwise]
    decide +kernel
  obtain ⟨d, hd, hread⟩ := (Option.any_eq_true _ _).mp hderive
  have hlexemes : lexemes "SELECT a FROM text".toList =
      [⟨"SELECT".toList, .token (.kw SELECT)⟩, ⟨[' '], .skip⟩,
        ⟨['a'], .token ⟨.IDENTIFIER, ['a']⟩⟩, ⟨[' '], .skip⟩, ⟨"FROM".toList, .token (.kw FROM)⟩,
        ⟨[' '], .skip⟩] ++ ⟨"text".toList, .token (.kw TEXT)⟩ :: [] := by
    rw [lexemes_rulesAt]
    rfl
  have hkeyword : HasKeyword "SELECT a FROM t".toList 3 TEXT "text".toList
      "SELECT a FROM text".toList :=
    ⟨['t'], [.kw SELECT, ⟨.IDENTIFIER, ['a']⟩, .kw FROM], [], _, [], tokens_plain, rfl, hlexemes,
      rfl, rfl⟩
  exact keyword_keepsTree (Builds.of_derive hd) (of_decide_eq_true hread) (by decide) hkeyword
    (valid_of_parse 100 (by
      rw [parse_rowwise]
      decide +kernel))

/-- The first column of the first statement is a string. -/
def selectsString : List (Option SQLStatement) → Bool
  | some ⟨_, .select s⟩ :: _ =>
    match s.selectList with
    | some (some e :: _) => decide (e.type = .kExprLiteralString)
    | _ => false
  | _ => false

/-- In an expression the keyword is a string. -/
theorem not_forall_keepsTree : ¬ ∀ (s s' : Str) (d : Derivation .input) (i : ℕ) (k : Keyword)
    (w : Str), Builds s d →
      d.readers[i]? = some .stringOrToken ∨ d.readers[i]? = some .columnName →
      k ∈ keywordNames.map Prod.fst → HasKeyword s i k w s' → Valid s' → KeepsTree s i w s' := by
  intro h
  have hderive : (derive 100 "SELECT a FROM t".toList).any
      (fun d => decide (d.readers[1]? = some .columnName)) = true := by
    rw [derive_rowwise]
    decide +kernel
  obtain ⟨d, hd, hread⟩ := (Option.any_eq_true _ _).mp hderive
  have hlexemes : lexemes "SELECT text FROM t".toList =
      [⟨"SELECT".toList, .token (.kw SELECT)⟩, ⟨[' '], .skip⟩] ++
        ⟨"text".toList, .token (.kw TEXT)⟩ :: [⟨[' '], .skip⟩, ⟨"FROM".toList, .token (.kw FROM)⟩,
          ⟨[' '], .skip⟩, ⟨['t'], .token ⟨.IDENTIFIER, ['t']⟩⟩] := by
    rw [lexemes_rulesAt]
    rfl
  have hkeyword : HasKeyword "SELECT a FROM t".toList 1 TEXT "text".toList
      "SELECT text FROM t".toList :=
    ⟨['a'], [.kw SELECT], [.kw FROM, ⟨.IDENTIFIER, ['t']⟩], _, _, tokens_plain, rfl, hlexemes,
      rfl, rfl⟩
  obtain ⟨heap', r, r', ⟨o, hrun, ho⟩, -, hparses, -, hsame⟩ := h _ _ d 1 TEXT _
    (Builds.of_derive hd) (.inr (of_decide_eq_true hread)) (by decide) hkeyword
    (valid_of_parse 100 (by
      rw [parse_rowwise]
      decide +kernel)) ⟨0, 0, 0, 0⟩ .new
  have hstring : (parse 100 ⟨0, 0, 0, 0⟩ .new "SELECT text FROM t".toList).any (fun x =>
      selectsString (x.2.statements.map
        (Option.map (SQLStatement.rename id fun _ => none)))) = true := by
    rw [parse_rowwise]
    decide +kernel
  obtain ⟨x, hx, hxstring⟩ := (Option.any_eq_true _ _).mp hstring
  obtain ⟨-, rfl⟩ := hparses.unique (.of_parse hx)
  have hcolumn : ((Config.run (M := actions) automaton (eof "SELECT a FROM t".toList) 100
      ⟨[], withName 1 "text".toList (Location.zero.tokens (lexemes "SELECT a FROM t".toList)),
        false, .zero, .start ⟨0, 0, 0, 0⟩ .new⟩).bind conclude).any (fun x =>
          !selectsString (x.2.statements.map
            (Option.map (SQLStatement.rename id fun _ => none)))) = true := by
    rw [eof, lexemes_rulesAt, automaton_eq_rowwise]
    decide +kernel
  obtain ⟨y, hy, hycolumn⟩ := (Option.any_eq_true _ _).mp hcolumn
  obtain ⟨o', hrun', ho'⟩ := Option.bind_eq_some_iff.mp hy
  rw [hrun.unique (.of_run hrun'), ho'] at ho
  obtain rfl := Option.some.inj ho
  rw [hsame, hxstring] at hycolumn
  cases hycolumn

end Hsql
