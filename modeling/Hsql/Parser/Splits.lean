import Hsql.Bison.Cuts
import Hsql.Parser.Behind

/-! Accepted inputs cut at a semicolon between statements: both sides are accepted alone. -/

namespace Hsql
open Bison

/-! Facts about the tables. -/

/-- Behind `;` another token is answered like at the start, or no text goes on with it. -/
theorem act_behind (t : TokenKind) : verdict automaton 4 [86, 11] (some t) = .rejected ∨
    (automaton.row 0).act (some t) = (automaton.row 86).act (some t) := by
  rcases act_cases (automaton.row 86) (some t) with hmem | hdefault
  · have hall : ∀ x ∈ (automaton.row 86).acts, (automaton.row 0).act x.1 = x.2 := by
      decide
    exact .inr (hall _ hmem)
  · left
    have hact : (automaton.row 86).act (some t) = Tables.reduce .optSemicolon 0 := hdefault
    have hten : (automaton.row 10).act (some t) = .error := by
      rcases act_cases (automaton.row 10) (some t) with hmem | hdefault
      · cases List.mem_singleton.mp hmem
      · exact hdefault
    have hlast : verdict automaton 2 [10] (some t) = .rejected := by
      rw [verdict, List.headD_cons, hten]
    rw [verdict, List.headD_cons, hact]
    exact hlast

example : verdict automaton 4 [86, 11] (some (.kw .FROM)) = .rejected := by
  rw [automaton_eq_rowwise]
  decide +kernel

theorem act_start_shifts (t : Option TokenKind) {n : NT} {r : grammar.Rule n} :
    (automaton.row 0).act t ≠ .reduce r := by
  intro h
  rcases act_cases (automaton.row 0) t with hmem | hdefault
  · have hall : ∀ x ∈ (automaton.row 0).acts, ∀ m, reduces m x.2 = false := by
      intro x hx m
      revert x
      cases m <;> decide
    have hentry := hall _ hmem n
    rw [h] at hentry
    simp [reduces] at hentry
  · cases hdefault.symm.trans h

theorem goto_behind {n : NT} {q : Nat} (h : automaton.goto 86 n = some q) :
    ∃ p, automaton.goto 0 n = some p := by
  revert q
  cases n <;> first | exact fun _ => ⟨_, rfl⟩ | exact fun h => by cases h

theorem rhs_semicolon {n : NT} (r : grammar.Rule n)
    (h : .terminal (.ch ';') ∈ grammar.rhs r) :
    n = .statementList ∧ r.val = 1 ∨ n = .optSemicolon ∧ r.val = 0 := by
  revert r
  cases n <;> decide +kernel

/-- What is reduced in front of `;` is reduced in front of the end. -/
theorem reduce_semicolon {q : Nat} {n : NT} {r : grammar.Rule n}
    (h : (automaton.row q).act (some (.ch ';')) = .reduce r) :
    (automaton.row q).act none = .reduce r := by
  by_cases hq : q ∈ [10, 11, 423]
  · simp only [List.mem_cons, List.not_mem_nil, or_false] at hq
    rcases hq with rfl | rfl | rfl
    · cases (show Act.error = Act.reduce r from h)
    · cases (show Act.shift 86 = Act.reduce r from h)
    · cases (show Act.shift 86 = Act.reduce r from h)
  · rw [← act_semicolon hq]
    exact h

theorem shift_semicolon {q p : Nat} (h : (automaton.row q).act (some (.ch ';')) = .shift p) :
    (q = 11 ∨ q = 423) ∧ p = 86 := by
  have hrow := row_all (fun q row => shiftsOn (fun _ => false) row.default &&
    row.acts.all fun x => x.1 != some (.ch ';') ||
      (shiftsOn (· == 86) x.2 && (q == 11 || q == 423))) (fun _ _ => rfl)
    (by decide +kernel) q
  rw [Bool.and_eq_true, List.all_eq_true] at hrow
  rcases act_cases (automaton.row q) (some (.ch ';')) with hmem | hdefault
  · have hentry := hrow.2 _ hmem
    rw [h] at hentry
    simp [shiftsOn] at hentry
    exact ⟨hentry.2, hentry.1⟩
  · rw [hdefault] at h
    rw [h] at hrow
    cases hrow.1

/-! Back from behind a list of statements to the start. -/

section
variable {l₁ : Derivation .statementList} {a : TokenKind.Val (.ch ';')} {eof : Location}
variable {c c' d' : Config (trees grammar TokenKind.Val Location)}

theorem Follows.exists_step_front (h : Follows l₁ a c c')
    (hst : c'.stack = c.stack ++ [.token 86 (.ch ';') a, .value 11 .statementList l₁])
    (hbottom : ∀ e ∈ c.stack.getLast?, ∀ n : NT, e.symbol = .nonterminal n → ¬ n.Upper)
    (haction : c.action automaton = c'.action automaton)
    (hstep : c'.step automaton eof = .inl d') : ∃ d, c.step automaton eof = .inl d := by
  rcases Config.step_cases hstep with ⟨q, t, b, p, rest, hshift, hin, -⟩ |
    ⟨n, r, vs, rest, q, v, s, hreduce, hpop, hgoto, -, -⟩
  · exact ⟨_, Config.step_shift (haction.trans hshift) (h.input.symm.trans hin)⟩
  · -- the statements and the semicolon below stay
    have hsymbols : ∃ syms, c.stack.map Entry.symbol = (grammar.rhs r).reverse ++ syms := by
      have hall := pop_symbols hpop
      rw [hst, List.map_append] at hall
      rcases List.append_eq_append_iff.mp hall with ⟨syms, hrhs, hbase⟩ | ⟨syms, hstack, -⟩
      · cases syms with
        | nil => exact ⟨[], by rw [hrhs, List.append_nil, List.append_nil]⟩
        | cons sym syms =>
          obtain ⟨hsym, -⟩ := List.cons_eq_cons.mp hbase
          have hmem : .terminal (.ch ';') ∈ grammar.rhs r := by
            rw [← List.mem_reverse, hrhs]
            exact List.mem_append_right _ (hsym ▸ List.mem_cons_self)
          rcases rhs_semicolon r hmem with ⟨rfl, hr⟩ | ⟨rfl, hr⟩
          · obtain rfl : r = ⟨1, by decide⟩ := Fin.ext hr
            match hc : c.stack with
            | [] =>
              rw [hc] at hrhs
              cases (List.cons_eq_cons.mp hrhs).1.trans hsym.symm
            | [e] =>
              rw [hc] at hrhs hbottom
              obtain ⟨he, -⟩ := List.cons_eq_cons.mp hrhs
              exact absurd (by decide) (hbottom e rfl .statement he.symm)
            | [e, e'] =>
              rw [hc] at hrhs
              obtain ⟨-, hrhs⟩ := List.cons_eq_cons.mp hrhs
              obtain ⟨-, hrhs⟩ := List.cons_eq_cons.mp hrhs
              cases (List.cons_eq_cons.mp hrhs).1.trans hsym.symm
            | e :: e' :: e'' :: st =>
              rw [hc] at hrhs
              have hlen := congrArg List.length hrhs
              simp at hlen
              change 3 = _ at hlen
              omega
          · obtain rfl : r = ⟨0, by decide⟩ := Fin.ext hr
            cases hc : c.stack with
            | nil =>
              refine absurd (haction.trans hreduce) ?_
              unfold Config.action
              rw [hc]
              exact act_start_shifts _
            | cons e st =>
              rw [hc] at hrhs
              have hlen := congrArg List.length hrhs
              simp at hlen
              change 1 = _ at hlen
              omega
      · exact ⟨syms, hstack⟩
    obtain ⟨syms, hsyms⟩ := hsymbols
    obtain ⟨us, below, hpop₁, -, -⟩ := exists_pop hsyms
    have hpop' := (pop_append [.token 86 (.ch ';') a, .value 11 .statementList l₁]).mpr hpop₁
    rw [← hst, hpop] at hpop'
    obtain ⟨-, rfl⟩ := Prod.mk.inj (Option.some.inj hpop')
    cases below with
    | nil =>
      obtain ⟨p, hp⟩ := goto_behind hgoto
      exact ⟨_, Config.step_reduce (haction.trans hreduce) hpop₁ hp rfl⟩
    | cons e st => exact ⟨_, Config.step_reduce (haction.trans hreduce) hpop₁ hgoto rfl⟩

theorem Follows.exists_step_behind {st : List (Entry TokenKind.Val Derivation)}
    {l l' : Derivation .statementList} (h : Follows l₁ a c c')
    (hst : c.stack = st ++ [.value 11 .statementList l])
    (hst' : c'.stack = st ++ [.value 11 .statementList l'])
    (hstep : c'.step automaton eof = .inl d') : ∃ d, c.step automaton eof = .inl d := by
  have htop : topState c.stack = topState c'.stack := by
    rw [hst, hst']
    cases st <;> rfl
  have haction : c.action automaton = c'.action automaton := by
    unfold Config.action Config.kind
    rw [htop, h.input]
  rcases Config.step_cases hstep with ⟨q, t, b, p, rest, hshift, hin, -⟩ |
    ⟨n, r, vs, rest, q, v, s, hreduce, hpop, hgoto, -, -⟩
  · exact ⟨_, Config.step_shift (haction.trans hshift) (h.input.symm.trans hin)⟩
  · have hsymbols : c.stack.map Entry.symbol = c'.stack.map Entry.symbol := by
      rw [hst, hst', List.map_append, List.map_append]
      rfl
    have hstates : c.stack.map Entry.state = c'.stack.map Entry.state := by
      rw [hst, hst', List.map_append, List.map_append]
      rfl
    obtain ⟨us, below, hpop₁, -, -⟩ := exists_pop (hsymbols.trans (pop_symbols hpop))
    have hbelow := (pop_states hpop₁).symm.trans ((congrArg _ hstates).trans (pop_states hpop))
    have hgoto₁ : automaton.goto (topState below) n = some q := by
      rw [← headD_states, hbelow, headD_states]
      exact hgoto
    exact ⟨_, Config.step_reduce (haction.trans hreduce) hpop₁ hgoto₁ rfl⟩

/-- Where the run behind the list goes on, so does the run from the start. -/
theorem Follows.back {stack : List (Entry TokenKind.Val Derivation)} {u : Unit}
    (h : Follows l₁ a c c') (hin : c.stack = [] → c.input ≠ [])
    (hrun : c'.Runs automaton eof (.accept stack u)) (hstep : c'.step automaton eof = .inl d') :
    ∃ d, c.step automaton eof = .inl d ∧ Follows l₁ a d d' := by
  have hexists : ∃ d, c.step automaton eof = .inl d := by
    have hover := h.stack
    generalize hst : c.stack = st, hst' : c'.stack = st' at hover
    cases hover with
    | front _ hbottom =>
      subst hst
      refine h.exists_step_front hst' hbottom ?_ hstep
      unfold Config.action Config.kind
      rw [hst', h.input]
      cases hc : c.stack with
      | cons e st => rfl
      | nil =>
        obtain ⟨x, rest, hx⟩ := List.exists_cons_of_ne_nil (hin hc)
        rw [hx]
        refine (act_behind x.1.1).resolve_left fun hrejected => ?_
        refine (hrun.verdict 4).1 ?_
        have hkind : c'.kind = some x.1.1 := by
          unfold Config.kind
          rw [h.input, hx]
          rfl
        unfold Config.states
        rw [hkind, hst', hc]
        exact hrejected
    | first e =>
      have hact : c.action automaton = Tables.reduce .statementList 0 := by
        unfold Config.action
        rw [hst]
        rfl
      have hpop : pop (grammar.rhs (⟨0, by decide⟩ : grammar.Rule .statementList)) c.stack =
          some ((e, ()), []) := by
        rw [hst]
        rfl
      exact ⟨_, Config.step_reduce (q := 11) hact hpop rfl rfl⟩
    | behind st hgraft => exact h.exists_step_behind hst hst' hstep
    | done p o hgraft =>
      -- the input is only accepted or rejected
      obtain ⟨o', hstop, -⟩ := stop_ten (congrArg topState hst')
      cases hstop.symm.trans hstep
  obtain ⟨d, hd⟩ := hexists
  obtain ⟨d'', hd'', hfollows⟩ := h.step hd
  obtain rfl := Sum.inl.inj (hd''.symm.trans hstep)
  exact ⟨d, hd, hfollows⟩

theorem Over.topState_ten {st st' : List (Entry TokenKind.Val Derivation)} (h : Over l₁ a st st')
    (hst : topState st' = 10) : topState st = 10 := by
  cases h with
  | front st hbottom =>
    cases st with
    | nil => cases hst
    | cons e st => exact hst
  | first d => cases hst
  | behind st hgraft =>
    cases st with
    | nil => cases hst
    | cons e st => exact hst
  | done p o hgraft => rfl

theorem Follows.runs_back {stack : List (Entry TokenKind.Val Derivation)} {u : Unit}
    (hrun : c'.Runs automaton eof (.accept stack u)) (h : Follows l₁ a c c')
    (hin : c.stack = [] → c.input ≠ []) (hlink : Linked automaton c.stack) :
    ∃ v, c.Runs automaton eof (.accept [.value 10 .input v] ()) := by
  generalize ho : (Outcome.accept stack u : Outcome (trees grammar TokenKind.Val Location)) = o
    at hrun
  induction hrun generalizing c with
  | @stop c' o hstop =>
    subst ho
    obtain ⟨hact, -, -⟩ := Config.step_accept hstop
    obtain ⟨htop, hkind⟩ := act_accept hact
    have hten := h.stack.topState_ten htop
    obtain ⟨v, hv⟩ := linked_ten hlink hten
    have hact' : c.action automaton = .accept := by
      unfold Config.action at hact ⊢
      unfold Config.kind at hact ⊢
      rw [hten, ← h.input, ← htop]
      exact hact
    refine ⟨v, .stop ?_⟩
    rw [Config.step_eq, hact', Config.apply, Config.ahead_stack, hv]
  | @next c' d' o hstep hrun ih =>
    subst ho
    obtain ⟨d, hd, hfollows⟩ := h.back hin (.next hstep hrun) hstep
    have hne : d.stack ≠ [] := by
      rcases Config.step_cases hd with ⟨q, t, b, p, rest, -, -, rfl⟩ |
        ⟨n, r, vs, rest, q, v, s, -, -, -, -, rfl⟩
      · exact List.cons_ne_nil _ _
      · exact List.cons_ne_nil _ _
    obtain ⟨v, hv⟩ := ih hfollows (fun hnil => absurd hnil hne) (Config.step_linked hlink hd) rfl
    exact ⟨v, .next hd hv⟩

end

/-! Inputs without the body of a trigger. -/

theorem goto_body {q q' : Nat} {n : NT} (h : automaton.goto q n = some q') :
    (q' = 423 → q = 410) ∧ q' ≠ 410 := by
  have hall : ∀ n, ∀ x ∈ Tables.gotos n, (x.2 = 423 → x.1 = 410) ∧ x.2 ≠ 410 := by
    intro n
    cases n <;> decide +kernel
  exact hall n _ (goto_mem h)

theorem shift_body {q : Nat} {t : TokenKind} (h : (automaton.row q).act (some t) = .shift 410) :
    t = .kw .BEGIN := by
  have hrow := row_all (fun _ row => shiftsOn (· != 410) row.default &&
    row.acts.all fun x => x.1 == some (.kw .BEGIN) || shiftsOn (· != 410) x.2) (fun _ _ => rfl)
    (by decide +kernel) q
  rw [Bool.and_eq_true, List.all_eq_true] at hrow
  rcases act_cases (automaton.row q) (some t) with hmem | hdefault
  · have hentry := hrow.2 _ hmem
    rw [h] at hentry
    simpa [shiftsOn] using hentry
  · rw [hdefault] at h
    rw [h] at hrow
    cases hrow.1

theorem linked_body {V : NT → Type} {st : List (Entry TokenKind.Val V)} (h : Linked automaton st)
    (hst : topState st = 423) : .terminal (.kw .BEGIN) ∈ st.map Entry.symbol := by
  cases st with
  | nil => cases hst
  | cons e st =>
    cases e with
    | token q t b =>
      obtain rfl : q = 423 := hst
      exact absurd h.1 (shift_other (by decide))
    | value q n v =>
      obtain rfl : q = 423 := hst
      have hbelow := (goto_body h.1).1 rfl
      cases st with
      | nil => cases hbelow
      | cons e st =>
        cases e with
        | token q t b =>
          obtain rfl : q = 410 := hbelow
          obtain rfl := shift_body h.2.1
          exact List.mem_cons_of_mem _ List.mem_cons_self
        | value q m w =>
          obtain rfl : q = 410 := hbelow
          exact absurd rfl (goto_body h.2.1).2

/-- A token on the stack is one that has been read. -/
theorem mem_stackYield {st : List (Entry TokenKind.Val Derivation)} {t : TokenKind}
    (h : .terminal t ∈ st.map Entry.symbol) : t ∈ (stackYield st).map Sigma.fst := by
  induction st with
  | nil => cases h
  | cons e st ih =>
    cases e with
    | token q t' b =>
      rw [stackYield, List.map_append]
      rcases List.mem_cons.mp h with heq | hmem
      · obtain rfl := Symbol.terminal.inj heq
        exact List.mem_append_right _ List.mem_cons_self
      · exact List.mem_append_left _ (ih hmem)
    | value q n v =>
      rw [stackYield, List.map_append]
      rcases List.mem_cons.mp h with heq | hmem
      · cases heq
      · exact List.mem_append_left _ (ih hmem)

/-- The parser comes to a list of statements with all of the tokens. -/
def Comes (t : List (Sigma TokenKind.Val × Location)) (eof : Location)
    (l : Derivation .statementList) : Prop :=
  ∃ look pos, (inputConfig t).Steps automaton eof ⟨[.value 11 .statementList l], [], look, pos, ()⟩

theorem Comes.runs {t : List (Sigma TokenKind.Val × Location)} {eof : Location}
    {l : Derivation .statementList} (h : Comes t eof l) : ∃ p o, (inputConfig t).Runs automaton eof
      (.accept [.value 10 .input (.node ⟨0, by decide⟩ p (.tree l (.tree o .nil)))] ()) := by
  obtain ⟨look, pos, hsteps⟩ := h
  obtain ⟨p, o, hlist⟩ := runs_list l look pos eof
  exact ⟨p, o, hsteps.runs hlist⟩

section
variable {t u : List (Sigma TokenKind.Val × Location)} {eof : Location} {d : Derivation .input}

theorem runs_comes
    (h : (inputConfig t).Runs automaton eof (.accept [.value 10 .input d] ()))
    (hlast : ∀ x ∈ t.getLast?, x.1.1 ≠ .ch ';') :
    ∃ p l o, Comes t eof l ∧ d = .node ⟨0, by decide⟩ p (.tree l (.tree o .nil)) := by
  obtain ⟨p, l, o, look, pos, hd, hsteps, -⟩ := runs_reach h hlast
  exact ⟨p, l, o, ⟨look, pos, hsteps⟩, hd⟩

theorem runs_split {a : TokenKind.Val (.ch ';')} {p : Location}
    (h : (inputConfig (t ++ (⟨.ch ';', a⟩, p) :: u)).Runs automaton eof
      (.accept [.value 10 .input d] ()))
    (hbegin : ∀ x ∈ t, x.1.1 ≠ .kw .BEGIN) : ∃ l₁, Comes t p l₁ ∧
      (u = [] → ∃ p₂ o₂, d = .node ⟨0, by decide⟩ p₂ (.tree l₁ (.tree o₂ .nil))) ∧
      (u ≠ [] → ∃ d₂, (inputConfig u).Runs automaton eof (.accept [.value 10 .input d₂] ())) := by
  have haccept {q : Nat} {t : TokenKind} : (automaton.row q).act (some t) ≠ .accept := by
    intro hact
    cases (act_accept hact).2
  -- the run comes to the semicolon
  obtain ⟨c, q, hsteps, hin, hshift, hrest⟩ := h.exists_shift haccept (List.suffix_append _ _)
  have hlinked : Linked automaton c.stack :=
    hsteps.inv (I := fun c => Linked automaton c.stack) Config.step_linked trivial
  have hspells := hsteps.inv (I := Config.Spells (t ++ (⟨.ch ';', a⟩, p) :: u))
    Config.step_spells rfl
  have hact : (automaton.row (topState c.stack)).act (some (.ch ';')) = .shift q := by
    unfold Config.action Config.kind at hshift
    rw [hin] at hshift
    exact hshift
  obtain ⟨htop, rfl⟩ := shift_semicolon hact
  have heleven : topState c.stack = 11 := by
    refine htop.resolve_right fun hbody => ?_
    have hmem := mem_stackYield (linked_body hlinked hbody)
    unfold Config.Spells at hspells
    rw [hin, List.map_append] at hspells
    rw [List.append_cancel_right hspells, List.map_map] at hmem
    obtain ⟨x, hx, heq⟩ := List.mem_map.mp hmem
    exact hbegin x hx heq
  obtain ⟨l₁, hstack⟩ := linked_alone hlinked heleven (by decide)
    (fun h => (goto_list h).1 rfl) (shift_other (by decide))
  -- in front of it, the same steps are those of the input up to there
  obtain ⟨c₁, hsteps₁, hc₁⟩ := Config.Steps.cut (c := inputConfig t)
    (show ((⟨.ch ';', a⟩, p) : Sigma TokenKind.Val × Location).2 = p from rfl)
    (fun h => reduce_semicolon h) hsteps (by rw [hin])
  have hin₁ : c₁.input = [] := by
    have heq := congrArg Config.input hc₁
    rw [hin] at heq
    exact List.append_left_eq_self.mp heq.symm
  have hstack₁ : c₁.stack = [.value 11 .statementList l₁] :=
    (congrArg Config.stack hc₁).symm.trans hstack
  have hcomes : Comes t p l₁ := by
    refine ⟨c₁.look, c₁.pos, ?_⟩
    rw [← hstack₁, ← hin₁]
    exact hsteps₁
  have hafter : Config.Runs (M := trees grammar TokenKind.Val Location) automaton eof
      ⟨[.token 86 (.ch ';') a, .value 11 .statementList l₁], u, false,
        (c.ahead automaton eof).pos, ()⟩ (.accept [.value 10 .input d] ()) := by
    rw [hstack] at hrest
    exact hrest
  by_cases hu : u = []
  · subst hu
    have hend : Config.Runs (M := trees grammar TokenKind.Val Location) automaton eof
        ⟨[.token 86 (.ch ';') a, .value 11 .statementList l₁], [], false,
          (c.ahead automaton eof).pos, ()⟩ (.accept [.value 10 .input (.node ⟨0, by decide⟩ eof
            (.tree l₁ (.tree (.node ⟨0, by decide⟩ eof (.token a .nil)) .nil)))] ()) :=
      .next rfl (.next rfl (.stop rfl))
    have heq := (Outcome.accept.inj (hafter.unique hend)).1
    cases heq
    exact ⟨l₁, hcomes, fun _ => ⟨_, _, rfl⟩, fun h => absurd rfl h⟩
  · have hfollows : Follows l₁ a (inputConfig u)
        ⟨[.token 86 (.ch ';') a, .value 11 .statementList l₁], u, false,
          (c.ahead automaton eof).pos, ()⟩ :=
      ⟨.front [] (fun e he => by cases he), rfl, rfl, fun h => absurd rfl h, fun _ => rfl⟩
    obtain ⟨d₂, hrun₂⟩ := hfollows.runs_back hafter (fun _ => hu) trivial
    exact ⟨l₁, hcomes, fun h => absurd h hu, fun _ => ⟨d₂, hrun₂⟩⟩

end

end Hsql
