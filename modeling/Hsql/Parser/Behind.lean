import Hsql.Bison.Bases
import Hsql.Bison.Control
import Hsql.Parser.Failure
import Hsql.Parser.Operators

/-! Statements behind a list of statements: what the automaton does at the semicolon between them
is what it does at the end of the input, and behind it what it does at the start. -/

namespace Hsql
open Bison

/-! Facts about the tables. -/

/-- In a state other than these, `;` is answered like the end of the input. -/
theorem act_semicolon {q : Nat} (h : q ∉ [10, 11, 423]) :
    (automaton.row q).act (some (.ch ';')) = (automaton.row q).act none := by
  have hrow := row_all (fun q row => decide (q ∈ [10, 11, 423]) ||
    decide (row.act (some (.ch ';')) = row.act none)) (fun _ _ => by simp [Row.act])
    (by decide +kernel) q
  simpa [h] using hrow

/-- Behind `;` the parser goes on like at the start. -/
theorem act_start (t : Option TokenKind) : (automaton.row 0).act t = .error ∨
    (automaton.row 86).act t = (automaton.row 0).act t := by
  rcases act_cases (automaton.row 0) t with hmem | hdefault
  · have hall : ∀ x ∈ (automaton.row 0).acts, (automaton.row 86).act x.1 = x.2 := by
      decide
    exact .inr (hall _ hmem)
  · exact .inl hdefault

/-- The nonterminals above the statements. -/
def NT.Upper (n : NT) : Prop := n ∈ [NT.input, .statementList, .statement]

instance (n : NT) : Decidable n.Upper := inferInstanceAs (Decidable (n ∈ _))

theorem goto_start {n : NT} {q : Nat} (h : automaton.goto 0 n = some q) :
    n.Upper ∨ automaton.goto 86 n = some q := by
  revert q
  cases n <;> first | exact fun _ => .inl (by decide) | exact fun h => .inr h

theorem shift_eightySix {q : Nat} {t : TokenKind}
    (h : (automaton.row q).act (some t) = .shift 86) : t = .ch ';' := by
  have hrow := row_all (fun _ row => shiftsOn (· != 86) row.default &&
    row.acts.all fun x => x.1 == some (.ch ';') || shiftsOn (· != 86) x.2) (fun _ _ => rfl)
    (by decide +kernel) q
  rw [Bool.and_eq_true, List.all_eq_true] at hrow
  rcases act_cases (automaton.row q) (some t) with hmem | hdefault
  · have hentry := hrow.2 _ hmem
    rw [h] at hentry
    simpa [shiftsOn] using hentry
  · rw [hdefault] at h
    rw [h] at hrow
    cases hrow.1

theorem rhs_statementList {n : NT} (r : grammar.Rule n)
    (h : (grammar.rhs r).head? = some (.nonterminal .statementList)) :
    n = .input ∨ n = .statementList ∧ r.val = 1 := by
  revert r
  cases n <;> decide +kernel

theorem rhs_upper {n : NT} (hn : n = .input ∨ n = .statementList) (r : grammar.Rule n) :
    (grammar.rhs r).head? = some (.nonterminal .statementList) ∨
      (grammar.rhs r).head? = some (.nonterminal .statement) := by
  revert r
  rcases hn with rfl | rfl <;> decide

def reduces (n : NT) : Act grammar → Bool
  | @Act.reduce _ _ _ m _ => m = n
  | _ => false

/-- Where the input is reduced, and where an optional semicolon at its end is. -/
theorem act_reduce_input {q : Nat} {t : Option TokenKind} {r : grammar.Rule .input}
    (h : (automaton.row q).act t = .reduce r) : q = 87 := by
  have hrow := row_all (fun q row => (q == 87 || !reduces .input row.default) &&
    row.acts.all fun x => q == 87 || !reduces .input x.2) (fun _ _ => by simp [reduces])
    (by decide +kernel) q
  rw [Bool.and_eq_true, List.all_eq_true] at hrow
  rcases act_cases (automaton.row q) t with hmem | hdefault
  · have hentry := hrow.2 _ hmem
    rw [h] at hentry
    simpa [reduces] using hentry
  · rw [hdefault] at h
    rw [h] at hrow
    simpa [reduces] using hrow.1

/-- Where the states behind statements, behind the end and behind `;` are reached from. -/
theorem goto_list {q q' : Nat} {n : NT} (h : automaton.goto q n = some q') :
    (q' = 11 → q = 0 ∧ n = .statementList) ∧ (q' = 87 → q = 11 ∧ n = .optSemicolon) ∧ q' ≠ 86 := by
  have hall : ∀ n, ∀ x ∈ Tables.gotos n, (x.2 = 11 → x.1 = 0 ∧ n = .statementList) ∧
      (x.2 = 87 → x.1 = 11 ∧ n = .optSemicolon) ∧ x.2 ≠ 86 := by
    intro n
    cases n <;> decide +kernel
  exact hall n _ (goto_mem h)

theorem shift_other {q' : Nat} (hq' : q' ∈ [11, 87, 423]) {q : Nat} {t : Option TokenKind} :
    (automaton.row q).act t ≠ .shift q' := by
  have hall : ∀ q' ∈ [11, 87, 423], (Tables.states.zipIdx.all fun x =>
      shiftsOn (· != q') x.1.2 && (Tables.actionsOf x.1).all fun y =>
        shiftsOn (· != q') y.2) = true := by decide +kernel
  intro hact
  have hcheck := shift_all (· != q') (hall q' hq') hact
  simp at hcheck

/-- A state that only one nonterminal leads to, and only at the start. -/
theorem linked_alone {V : NT → Type} {st : List (Entry TokenKind.Val V)} {q : Nat} {n : NT}
    (h : Linked automaton st) (hst : topState st = q) (hq : q ≠ 0)
    (hgoto : ∀ {p m}, automaton.goto p m = some q → p = 0 ∧ m = n)
    (hshift : ∀ {p t}, (automaton.row p).act (some t) ≠ .shift q) : ∃ v, st = [.value q n v] := by
  cases st with
  | nil => exact absurd hst.symm hq
  | cons e st =>
    have hbottom : topState st = 0 → st = [] := by
      intro hzero
      have htail : Linked automaton st := by
        cases e <;> exact h.2
      cases st with
      | nil => rfl
      | cons e' st' =>
        cases e' with
        | token p t a =>
          obtain rfl : p = 0 := hzero
          exact absurd htail.1 (act_shift_ne (.inl rfl))
        | value p m v =>
          obtain rfl : p = 0 := hzero
          exact absurd htail.1 goto_ne_zero
    cases e with
    | token p t a =>
      obtain rfl : p = q := hst
      exact absurd h.1 hshift
    | value p m v =>
      obtain rfl : p = q := hst
      obtain ⟨hzero, rfl⟩ := hgoto h.1
      exact ⟨v, by rw [hbottom hzero]⟩

/-! In front of the semicolon. -/

section
variable {M : Semantics grammar TokenKind.Val Location} {eof : Location} {c d : Config M}

/-- The end of the statements is still to come. -/
structure Unfinished (c : Config M) : Prop where
  last : ∀ x ∈ c.input.getLast?, x.1.1 ≠ .ch ';'
  state : c.input = [] → topState c.stack ∉ [10, 86, 87]

theorem Unfinished.step (hc : Unfinished c) (hlink : Linked automaton c.stack)
    (hnot : ¬ (c.input = [] ∧ topState c.stack = 11)) (h : c.step automaton eof = .inl d) :
    Unfinished d := by
  rcases Config.step_cases h with ⟨q, t, a, p, rest, hact, hin, rfl⟩ |
    ⟨n, r, vs, rest, q, v, s, hact, hpop, hgoto, -, rfl⟩
  · have hlast := hc.last
    rw [hin] at hlast
    refine ⟨fun x hx => ?_, fun hrest hq => ?_⟩
    · refine hlast x ?_
      obtain ⟨y, hy⟩ := Option.isSome_iff_exists.mp (Option.isSome_of_mem hx)
      rw [List.getLast?_cons, hy, Option.getD_some]
      exact hy.symm.trans hx
    · obtain rfl : rest = [] := hrest
      have ht : t ≠ .ch ';' := hlast _ rfl
      unfold Config.action Config.kind at hact
      rw [hin] at hact
      simp only [List.mem_cons, List.not_mem_nil, or_false] at hq
      rcases hq with hq | hq | hq <;> cases (show q = _ from hq)
      · exact act_shift_ne (.inr rfl) hact
      · exact ht (shift_eightySix hact)
      · exact shift_other (by decide) hact
  · refine ⟨fun x hx => hc.last x (by rwa [← Config.ahead_input]), fun hnil hq => ?_⟩
    have hin : c.input = [] := Config.ahead_input.symm.trans hnil
    have hstate := hc.state hin
    simp only [List.mem_cons, List.not_mem_nil, or_false] at hq hstate
    rcases hq with hq | hq | hq <;> cases (show q = _ from hq)
    · obtain ⟨-, rfl⟩ := goto_ten hgoto
      exact hstate (.inr (.inr (act_reduce_input hact)))
    · exact (goto_list hgoto).2.2 rfl
    · obtain ⟨htop, rfl⟩ := (goto_list hgoto).2.1 rfl
      match r, vs, hpop with
      | ⟨0, _⟩, vs, hpop =>
        obtain ⟨x, hx, hpop⟩ := Option.bind_eq_some_iff.mp hpop
        obtain ⟨y, hy, heq⟩ := Option.map_eq_some_iff.mp hpop
        cases hx
        cases heq
        obtain ⟨q', hq'⟩ := popToken_eq_some
          (show popToken (TokenKind.ch ';') c.stack = some (y.1, y.2) from hy)
        rw [hq'] at hlink hstate
        have hshift := hlink.1
        rw [htop] at hshift
        cases hshift.symm.trans (show (automaton.row 11).act (some (.ch ';')) = .shift 86 from rfl)
        exact hstate (.inr (.inl rfl))
      | ⟨1, _⟩, vs, hpop =>
        cases hpop
        exact hnot ⟨hin, htop⟩

/-- A trigger's body is not closed by the end of the input. -/
theorem Runs.not_body {stack : List (Entry TokenKind.Val M.V)} {s : M.S}
    (h : c.Runs automaton eof (.accept stack s)) (hin : c.input = []) : topState c.stack ≠ 423 := by
  intro hstate
  obtain ⟨hnot, -⟩ := h.verdict 2
  have hkind : c.kind = none := by
    unfold Config.kind
    rw [hin]
    rfl
  have hstates : ∃ l, c.states = 423 :: l := by
    unfold Config.states
    cases hstack : c.stack with
    | nil =>
      rw [hstack] at hstate
      cases hstate
    | cons e st =>
      rw [hstack] at hstate
      exact ⟨_, congrArg (· :: st.map Entry.state) hstate⟩
  obtain ⟨l, hl⟩ := hstates
  rw [hkind, hl] at hnot
  exact hnot rfl

/-- In front of a semicolon the run comes as far as in front of the end of the input. -/
theorem Runs.reaches_list {stack : List (Entry TokenKind.Val M.V)} {s : M.S}
    (h : c.Runs automaton eof (.accept stack s)) (hlink : Linked automaton c.stack)
    (hc : Unfinished c) : ∃ d, c.Steps automaton eof d ∧ d.input = [] ∧ topState d.stack = 11 ∧
      ∀ a ext eof', (c.extend ((⟨.ch ';', a⟩, eof) :: ext)).Steps automaton eof'
        (d.extend ((⟨.ch ';', a⟩, eof) :: ext)) := by
  generalize ho : Outcome.accept stack s = o at h
  induction h with
  | stop hstop =>
    subst ho
    obtain ⟨hact, -, -⟩ := Config.step_accept hstop
    obtain ⟨hten, hkind⟩ := act_accept hact
    refine absurd ?_ (hc.state (by simpa [Config.kind] using hkind))
    rw [hten]
    decide
  | @next c c' o hstep hrun ih =>
    subst ho
    -- the list is complete, or the next step is the same in front of a semicolon
    by_cases hdone : c.input = [] ∧ topState c.stack = 11
    · exact ⟨c, .refl c, hdone.1, hdone.2, fun _ _ _ => .refl _⟩
    · obtain ⟨d, hsteps, hin, hstate, hext⟩ :=
        ih (Config.step_linked hlink hstep) (hc.step hlink hdone hstep) rfl
      refine ⟨d, hsteps.head hstep, hin, hstate, fun a ext eof' => (hext a ext eof').head ?_⟩
      refine Config.step_extend rfl (fun hnil => act_semicolon ?_) hstep
      have hten := hc.state hnil
      have hbody := Runs.not_body (.next hstep hrun) hnil
      simp only [List.mem_cons, List.not_mem_nil, or_false, not_or] at hten ⊢
      exact ⟨hten.1, fun heleven => hdone ⟨hnil, heleven⟩, hbody⟩

end

/-! Behind the semicolon. -/

/-- A list of statements with another list in front of it. -/
inductive Grafted (l₁ : Derivation .statementList) (a : TokenKind.Val (.ch ';')) :
    Derivation .statementList → Derivation .statementList → Prop where
  | first (p : Location) (d : Derivation .statement) :
      Grafted l₁ a (.node ⟨0, by decide⟩ p (.tree d .nil))
        (.node ⟨1, by decide⟩ p (.tree l₁ (.token a (.tree d .nil))))
  | next (p : Location) {l l' : Derivation .statementList} (b : TokenKind.Val (.ch ';'))
      (d : Derivation .statement) (h : Grafted l₁ a l l') :
      Grafted l₁ a (.node ⟨1, by decide⟩ p (.tree l (.token b (.tree d .nil))))
        (.node ⟨1, by decide⟩ p (.tree l' (.token b (.tree d .nil))))

section
variable {l₁ : Derivation .statementList} {a : TokenKind.Val (.ch ';')} {eof : Location}

/-- The stack of a run from the start, and of one behind a list of statements and a semicolon. -/
inductive Over (l₁ : Derivation .statementList) (a : TokenKind.Val (.ch ';')) :
    List (Entry TokenKind.Val Derivation) → List (Entry TokenKind.Val Derivation) → Prop where
  | front (st : List (Entry TokenKind.Val Derivation))
      (h : ∀ e ∈ st.getLast?, ∀ n : NT, e.symbol = .nonterminal n → ¬ n.Upper) :
      Over l₁ a st (st ++ [.token 86 (.ch ';') a, .value 11 .statementList l₁])
  | first (d : Derivation .statement) :
      Over l₁ a [.value 12 .statement d]
        [.value 156 .statement d, .token 86 (.ch ';') a, .value 11 .statementList l₁]
  | behind (st : List (Entry TokenKind.Val Derivation)) {l l' : Derivation .statementList}
      (h : Grafted l₁ a l l') :
      Over l₁ a (st ++ [.value 11 .statementList l]) (st ++ [.value 11 .statementList l'])
  | done (p : Location) {l l' : Derivation .statementList} (o : Derivation .optSemicolon)
      (h : Grafted l₁ a l l') :
      Over l₁ a [.value 10 .input (.node ⟨0, by decide⟩ p (.tree l (.tree o .nil)))]
        [.value 10 .input (.node ⟨0, by decide⟩ p (.tree l' (.tree o .nil)))]

/-- The two runs go together. Before the first token is read they are at different places. -/
structure Follows (l₁ : Derivation .statementList) (a : TokenKind.Val (.ch ';'))
    (c c' : Config (trees grammar TokenKind.Val Location)) : Prop where
  stack : Over l₁ a c.stack c'.stack
  input : c'.input = c.input
  look : c'.look = c.look
  pos : c.stack ≠ [] → c'.pos = c.pos
  unread : c.stack = [] → c.look = false

variable {c c' d : Config (trees grammar TokenKind.Val Location)}

theorem Follows.ahead (eof : Location) (h : Follows l₁ a c c')
    (hrow : (automaton.row (topState c'.stack)).acts.isEmpty =
      (automaton.row (topState c.stack)).acts.isEmpty) :
    (c'.ahead automaton eof).look = (c.ahead automaton eof).look ∧
      (c'.ahead automaton eof).pos = (c.ahead automaton eof).pos := by
  have hpos : (automaton.row (topState c.stack)).acts.isEmpty = true ∨ c.look = true →
      c'.pos = c.pos := by
    intro hcase
    refine h.pos fun hnil => ?_
    rcases hcase with hempty | hlook
    · rw [hnil] at hempty
      cases hempty
    · rw [h.unread hnil] at hlook
      cases hlook
  unfold Config.ahead Config.read
  rw [hrow, h.look, h.input]
  split_ifs with hempty hlook
  · exact ⟨h.look, hpos (.inl hempty)⟩
  · exact ⟨h.look, hpos (.inr hlook)⟩
  · exact ⟨rfl, rfl⟩

theorem Over.symbol_bottom {st : List (Entry TokenKind.Val Derivation)} {n : NT}
    {r : grammar.Rule n} {vs : Vals TokenKind.Val Derivation (grammar.rhs r)}
    (hpop : pop (grammar.rhs r) st = some (vs, [])) (hn : n = .input ∨ n = .statementList)
    (h : ∀ e ∈ st.getLast?, ∀ n : NT, e.symbol = .nonterminal n → ¬ n.Upper) : False := by
  have hlast := pop_getLast hpop
  have hup : ∃ m : NT, (grammar.rhs r).head? = some (.nonterminal m) ∧ m.Upper := by
    rcases rhs_upper hn r with hr | hr
    · exact ⟨_, hr, by decide⟩
    · exact ⟨_, hr, by decide⟩
  obtain ⟨m, hm, hupper⟩ := hup
  rw [hm] at hlast
  obtain ⟨e, he, hsymbol⟩ := Option.map_eq_some_iff.mp hlast.symm
  exact h e he m hsymbol hupper

/-- What is on top does not change the bottom. -/
theorem Over.bottom_cons {e : Entry TokenKind.Val Derivation}
    {st : List (Entry TokenKind.Val Derivation)}
    (h : ∀ e ∈ st.getLast?, ∀ n : NT, e.symbol = .nonterminal n → ¬ n.Upper)
    (he : st = [] → ∀ n : NT, e.symbol = .nonterminal n → ¬ n.Upper) :
    ∀ e' ∈ (e :: st).getLast?, ∀ n : NT, e'.symbol = .nonterminal n → ¬ n.Upper := by
  intro e' he'
  rw [List.getLast?_cons] at he'
  obtain rfl := Option.some.inj he'
  cases hst : st.getLast? with
  | none => exact he (List.getLast?_eq_none_iff.mp hst)
  | some x => exact h x hst

theorem Follows.step_front (h : Follows l₁ a c c')
    (hst : c'.stack = c.stack ++ [.token 86 (.ch ';') a, .value 11 .statementList l₁])
    (hbottom : ∀ e ∈ c.stack.getLast?, ∀ n : NT, e.symbol = .nonterminal n → ¬ n.Upper)
    (hstep : c.step automaton eof = .inl d) :
    ∃ d', c'.step automaton eof = .inl d' ∧ Follows l₁ a d d' := by
  have hkind : c'.kind = c.kind := by
    unfold Config.kind
    rw [h.input]
  have hact : c.action automaton ≠ .error → c'.action automaton = c.action automaton := by
    intro herror
    unfold Config.action at herror ⊢
    rw [hkind, hst]
    cases hc : c.stack with
    | nil =>
      rw [hc] at herror
      exact (act_start c.kind).resolve_left herror
    | cons e st => rfl
  have hrow : (automaton.row (topState c'.stack)).acts.isEmpty =
      (automaton.row (topState c.stack)).acts.isEmpty := by
    rw [hst]
    cases c.stack <;> rfl
  obtain ⟨hlook, hpos⟩ := h.ahead eof hrow
  rcases Config.step_cases hstep with ⟨q, t, b, p, rest, hshift, hin, rfl⟩ |
    ⟨n, r, vs, rest, q, v, s, hreduce, hpop, hgoto, hv, rfl⟩
  · -- the statement grows
    have haction := hact (by simp [hshift])
    refine ⟨_, Config.step_shift (haction.trans hshift) (h.input.trans hin), ?_, rfl, rfl,
      fun _ => hpos, (absurd · (List.cons_ne_nil _ _))⟩
    dsimp only
    rw [hst]
    exact .front (_ :: c.stack) (Over.bottom_cons hbottom fun _ n hn => by cases hn)
  · have haction := hact (by simp [hreduce])
    have hpop' := (pop_append [.token 86 (.ch ';') a, .value 11 .statementList l₁]).mpr hpop
    rw [← hst] at hpop'
    have hvalue : (trees grammar TokenKind.Val Location).act r vs (c'.ahead automaton eof).pos
        c'.st = some (v, s) := by
      rw [hpos]
      exact hv
    have hinput : (c'.ahead automaton eof).input = (c.ahead automaton eof).input := by
      rw [Config.ahead_input, Config.ahead_input, h.input]
    have hnext {q' : Nat} (hgoto' : automaton.goto
        (topState (rest ++ [.token 86 (.ch ';') a, .value 11 .statementList l₁])) n = some q')
        (hover : Over l₁ a (.value q n v :: rest)
          (.value q' n v :: (rest ++ [.token 86 (.ch ';') a, .value 11 .statementList l₁]))) :
        ∃ d', c'.step automaton eof = .inl d' ∧ Follows l₁ a { c.ahead automaton eof with
          stack := .value q n v :: rest, st := s } d' :=
      ⟨_, Config.step_reduce (haction.trans hreduce) hpop' hgoto' hvalue, hover, hinput, hlook,
        fun _ => hpos, (absurd · (List.cons_ne_nil _ _))⟩
    cases hrest : rest with
    | cons e st =>
      rw [hrest] at hgoto hnext hpop
      refine hnext hgoto (.front (_ :: e :: st) (Over.bottom_cons ?_ (absurd · (List.cons_ne_nil _ _))))
      obtain ⟨u, hu⟩ := pop_suffix hpop
      intro e' he'
      refine hbottom e' ?_
      rw [← hu, List.getLast?_append_of_ne_nil _ (List.cons_ne_nil _ _)]
      exact he'
    | nil =>
      -- the run from the start goes on from state 0, the other one from state 86
      rw [hrest] at hgoto hnext hpop
      by_cases hn : n = .input ∨ n = .statementList
      · exact (Over.symbol_bottom hpop hn hbottom).elim
      · by_cases hstatement : n = .statement
        · subst hstatement
          cases hgoto
          exact hnext rfl (.first v)
        · have hupper : ¬ n.Upper := by
            unfold NT.Upper
            simp only [List.mem_cons, List.not_mem_nil, or_false, not_or] at hn ⊢
            exact ⟨hn.1, hn.2, hstatement⟩
          have hstart := (goto_start hgoto).resolve_left hupper
          refine hnext hstart (.front [_] (Over.bottom_cons (fun e he => by cases he) ?_))
          rintro - m ⟨⟩
          exact hupper

theorem Follows.step_first {e : Derivation .statement} (h : Follows l₁ a c c')
    (hst : c.stack = [.value 12 .statement e])
    (hst' : c'.stack =
      [.value 156 .statement e, .token 86 (.ch ';') a, .value 11 .statementList l₁])
    (hstep : c.step automaton eof = .inl d) :
    ∃ d', c'.step automaton eof = .inl d' ∧ Follows l₁ a d d' := by
  have hact : c.action automaton = Tables.reduce .statementList 0 := by
    unfold Config.action
    rw [hst]
    rfl
  have hact' : c'.action automaton = Tables.reduce .statementList 1 := by
    unfold Config.action
    rw [hst']
    rfl
  have hrow : (automaton.row (topState c'.stack)).acts.isEmpty =
      (automaton.row (topState c.stack)).acts.isEmpty := by
    rw [hst, hst']
    rfl
  obtain ⟨hlook, hpos⟩ := h.ahead eof hrow
  rcases Config.step_cases hstep with ⟨q, t, b, p, rest, hshift, -, -⟩ |
    ⟨n, r, vs, rest, q, v, s, hreduce, hpop, hgoto, hv, rfl⟩
  · cases hact.symm.trans hshift
  · cases hact.symm.trans hreduce
    rw [hst] at hpop
    cases hpop
    cases hgoto
    cases hv
    have hpop' : pop (grammar.rhs (⟨1, by decide⟩ : grammar.Rule .statementList)) c'.stack =
        some ((l₁, a, e, ()), []) := by
      rw [hst']
      rfl
    have hvalue : (trees grammar TokenKind.Val Location).act
        (⟨1, by decide⟩ : grammar.Rule .statementList) (l₁, a, e, ()) (c'.ahead automaton eof).pos
          c'.st = some (Bison.Tree.node (⟨1, by decide⟩ : grammar.Rule .statementList)
            (c.ahead automaton eof).pos (.tree l₁ (.token a (.tree e .nil))), ()) := by
      rw [hpos]
      rfl
    refine ⟨_, Config.step_reduce (q := 11) hact' hpop' rfl hvalue, .behind [] (.first _ e), ?_,
      hlook, fun _ => hpos, (absurd · (List.cons_ne_nil _ _))⟩
    exact (Config.ahead_input.trans h.input).trans Config.ahead_input.symm

/-- What takes the list of statements off the stack takes it off the other stack, and puts it back
grafted. -/
theorem Over.reduce {l l' : Derivation .statementList} (h : Grafted l₁ a l l')
    {st : List (Entry TokenKind.Val Derivation)} {n : NT} {r : grammar.Rule n}
    {vs : Vals TokenKind.Val Derivation (grammar.rhs r)} {q : Nat} (p : Location)
    (hpop : pop (grammar.rhs r) (st ++ [.value 11 .statementList l]) = some (vs, []))
    (hgoto : automaton.goto 0 n = some q) :
    ∃ vs', pop (grammar.rhs r) (st ++ [.value 11 .statementList l']) = some (vs', []) ∧
      Over l₁ a [.value q n (.node r p (.ofVals vs))] [.value q n (.node r p (.ofVals vs'))] := by
  have hlast := pop_getLast hpop
  rw [List.getLast?_concat] at hlast
  rcases rhs_statementList r hlast with rfl | ⟨rfl, hr⟩
  · obtain rfl : r = ⟨0, by decide⟩ := Fin.ext (Nat.lt_one_iff.mp r.2)
    obtain ⟨⟨us, st₁⟩, hss, hpop⟩ := Option.bind_eq_some_iff.mp hpop
    obtain ⟨⟨x, st₂⟩, hx, heq⟩ := Option.map_eq_some_iff.mp hpop
    cases heq
    obtain ⟨q₁, rfl⟩ := popValue_eq_some hx
    obtain ⟨⟨o, st₃⟩, ho, heq⟩ := Option.map_eq_some_iff.mp (show (popValue NT.optSemicolon
      (st ++ [_])).map (fun y => ((y.1, ()), y.2)) = some (us, _) from hss)
    cases heq
    obtain ⟨q₂, hst⟩ := popValue_eq_some ho
    obtain ⟨rfl, hbottom⟩ := List.append_inj' (show st ++ [_] =
      [Entry.value q₂ .optSemicolon o] ++ [Entry.value q₁ .statementList x] from hst) rfl
    cases hbottom
    cases hgoto
    exact ⟨(l', o, ()), rfl, .done p o h⟩
  · obtain rfl : r = ⟨1, by decide⟩ := Fin.ext hr
    obtain ⟨⟨us, st₁⟩, hss, hpop⟩ := Option.bind_eq_some_iff.mp hpop
    obtain ⟨⟨x, st₂⟩, hx, heq⟩ := Option.map_eq_some_iff.mp hpop
    cases heq
    obtain ⟨q₁, rfl⟩ := popValue_eq_some hx
    obtain ⟨⟨us', st₃⟩, hstatement, hpop⟩ := Option.bind_eq_some_iff.mp hss
    obtain ⟨⟨b, st₄⟩, hb, heq⟩ := Option.map_eq_some_iff.mp hpop
    cases heq
    obtain ⟨q₂, rfl⟩ := popToken_eq_some hb
    obtain ⟨⟨e, st₅⟩, he, heq⟩ := Option.map_eq_some_iff.mp (show (popValue NT.statement
      (st ++ [_])).map (fun y => ((y.1, ()), y.2)) = some (us', _) from hstatement)
    cases heq
    obtain ⟨q₃, hst⟩ := popValue_eq_some he
    obtain ⟨rfl, hbottom⟩ := List.append_inj' (show st ++ [_] =
      [Entry.value q₃ .statement e, Entry.token q₂ (.ch ';') b] ++
        [Entry.value q₁ .statementList x] from hst) rfl
    cases hbottom
    cases hgoto
    exact ⟨(l', b, e, ()), rfl, .behind [] (.next p b e h)⟩

theorem Follows.step_behind {st : List (Entry TokenKind.Val Derivation)}
    {l l' : Derivation .statementList} (h : Follows l₁ a c c') (hgraft : Grafted l₁ a l l')
    (hst : c.stack = st ++ [.value 11 .statementList l])
    (hst' : c'.stack = st ++ [.value 11 .statementList l'])
    (hstep : c.step automaton eof = .inl d) :
    ∃ d', c'.step automaton eof = .inl d' ∧ Follows l₁ a d d' := by
  have htop : topState c'.stack = topState c.stack := by
    rw [hst, hst']
    cases st <;> rfl
  have haction : c'.action automaton = c.action automaton := by
    unfold Config.action Config.kind
    rw [htop, h.input]
  obtain ⟨hlook, hpos⟩ := h.ahead eof (by rw [htop])
  rcases Config.step_cases hstep with ⟨q, t, b, p, rest, hshift, hin, rfl⟩ |
    ⟨n, r, vs, rest, q, v, s, hreduce, hpop, hgoto, hv, rfl⟩
  · refine ⟨_, Config.step_shift (haction.trans hshift) (h.input.trans hin), ?_, rfl, rfl,
      fun _ => hpos, (absurd · (List.cons_ne_nil _ _))⟩
    dsimp only
    rw [hst, hst']
    exact .behind (_ :: st) hgraft
  · obtain ⟨rfl, -⟩ := Prod.mk.inj (Option.some.inj hv)
    have hinput : (c'.ahead automaton eof).input = (c.ahead automaton eof).input := by
      rw [Config.ahead_input, Config.ahead_input, h.input]
    have hvalue (vs' : Vals TokenKind.Val Derivation (grammar.rhs r)) :
        (trees grammar TokenKind.Val Location).act r vs' (c'.ahead automaton eof).pos c'.st =
          some (.node r (c.ahead automaton eof).pos (.ofVals vs'), s) := by
      rw [hpos]
    rw [hst] at hpop
    -- the list at the bottom is taken off, or it stays
    rcases List.suffix_concat_iff.mp (pop_suffix hpop) with rfl | ⟨rest', rfl, -⟩
    · obtain ⟨vs', hpop', hover⟩ := Over.reduce hgraft (c.ahead automaton eof).pos hpop hgoto
      rw [← hst'] at hpop'
      exact ⟨_, Config.step_reduce (haction.trans hreduce) hpop' hgoto (hvalue vs'), hover, hinput,
        hlook, fun _ => hpos, (absurd · (List.cons_ne_nil _ _))⟩
    · have hpop' := (pop_append [.value 11 .statementList l']).mpr ((pop_append _).mp hpop)
      rw [← hst'] at hpop'
      have hgoto' : automaton.goto (topState (rest' ++ [.value 11 .statementList l'])) n =
          some q := by
        cases rest' <;> exact hgoto
      exact ⟨_, Config.step_reduce (haction.trans hreduce) hpop' hgoto' (hvalue vs),
        .behind (_ :: rest') hgraft, hinput, hlook, fun _ => hpos, (absurd · (List.cons_ne_nil _ _))⟩

theorem Over.of_input {v : Derivation .input} {st' : List (Entry TokenKind.Val Derivation)}
    (h : Over l₁ a [.value 10 .input v] st') : ∃ p l l' o,
      v = .node ⟨0, by decide⟩ p (.tree l (.tree o .nil)) ∧
        st' = [.value 10 .input (.node ⟨0, by decide⟩ p (.tree l' (.tree o .nil)))] ∧
          Grafted l₁ a l l' := by
  generalize hst : [Entry.value 10 NT.input v] = st at h
  cases h with
  | front _ hbottom =>
    subst hst
    exact absurd (by decide) (hbottom _ rfl .input rfl)
  | first d => cases hst
  | behind st h =>
    cases st with
    | nil => cases hst
    | cons e st => exact absurd (List.cons_eq_cons.mp hst).2.symm (by simp)
  | done p o h =>
    cases hst
    exact ⟨p, _, _, o, rfl, rfl, h⟩

theorem Follows.step (h : Follows l₁ a c c') (hstep : c.step automaton eof = .inl d) :
    ∃ d', c'.step automaton eof = .inl d' ∧ Follows l₁ a d d' := by
  have hover := h.stack
  generalize hst : c.stack = st, hst' : c'.stack = st' at hover
  cases hover with
  | front _ hbottom =>
    subst hst
    exact h.step_front hst' hbottom hstep
  | first e => exact h.step_first hst hst' hstep
  | behind st hgraft => exact h.step_behind hgraft hst hst' hstep
  | done p o hgraft =>
    -- the input is only accepted or rejected
    obtain ⟨o', hstop, -⟩ := stop_ten (congrArg topState hst)
    cases hstop.symm.trans hstep

theorem Follows.runs {v : Derivation .input} {u : Unit}
    (hrun : c.Runs automaton eof (.accept [.value 10 .input v] u)) (h : Follows l₁ a c c') :
    ∃ st', c'.Runs automaton eof (.accept st' ()) ∧ Over l₁ a [.value 10 .input v] st' := by
  generalize ho : (Outcome.accept [Entry.value 10 NT.input v] u :
    Outcome (trees grammar TokenKind.Val Location)) = o at hrun
  induction hrun generalizing c' with
  | @stop c o hstop =>
    subst ho
    obtain ⟨hact, hst, -⟩ := Config.step_accept hstop
    have hover := h.stack
    rw [hst] at hover
    obtain ⟨p, l, l', o, -, hst', -⟩ := hover.of_input
    have hact' : c'.action automaton = .accept := by
      unfold Config.action Config.kind at hact ⊢
      rw [hst] at hact
      rw [hst', h.input]
      exact hact
    refine ⟨c'.stack, .stop ?_, hover⟩
    rw [Config.step_eq, hact', Config.apply, Config.ahead_stack]
  | next hstep _ ih =>
    obtain ⟨d', hstep', hd⟩ := h.step hstep
    obtain ⟨st', hrun', hover⟩ := ih hd ho
    exact ⟨st', .next hstep' hrun', hover⟩

end

/-! Two inputs with a semicolon between them. -/

section
variable {eof₁ eof₂ : Location} {t₁ t₂ : List (Sigma TokenKind.Val × Location)}
  {d₁ d₂ : Derivation .input}

def inputConfig (t : List (Sigma TokenKind.Val × Location)) :
    Config (trees grammar TokenKind.Val Location) := ⟨[], t, false, .zero, ()⟩

/-- The end of the input closes a list of statements. -/
theorem runs_list (l : Derivation .statementList) (look : Bool) (pos eof : Location) :
    ∃ p o, Config.Runs (M := trees grammar TokenKind.Val Location) automaton eof
      ⟨[.value 11 .statementList l], [], look, pos, ()⟩
      (.accept [.value 10 .input (.node ⟨0, by decide⟩ p (.tree l (.tree o .nil)))] ()) := by
  cases look with
  | false => exact ⟨eof, .node ⟨1, by decide⟩ eof .nil, .next rfl (.next rfl (.stop rfl))⟩
  | true => exact ⟨pos, .node ⟨1, by decide⟩ pos .nil, .next rfl (.next rfl (.stop rfl))⟩

/-- The run comes to a list of statements with all of the tokens, and so does one in front of a
semicolon. -/
theorem runs_reach {t : List (Sigma TokenKind.Val × Location)} {eof : Location}
    {d : Derivation .input}
    (h : (inputConfig t).Runs automaton eof (.accept [.value 10 .input d] ()))
    (hlast : ∀ x ∈ t.getLast?, x.1.1 ≠ .ch ';') : ∃ p l o look pos,
      d = .node ⟨0, by decide⟩ p (.tree l (.tree o .nil)) ∧
      (inputConfig t).Steps automaton eof ⟨[.value 11 .statementList l], [], look, pos, ()⟩ ∧
      ∀ a u eof', (inputConfig (t ++ (⟨.ch ';', a⟩, eof) :: u)).Steps automaton eof'
        ⟨[.value 11 .statementList l], (⟨.ch ';', a⟩, eof) :: u, look, pos, ()⟩ := by
  obtain ⟨⟨st, input, look, pos, u⟩, hsteps, hin, hstate, hext⟩ :=
    Runs.reaches_list h (show Linked automaton [] from trivial)
      ⟨hlast, fun _ => show 0 ∉ _ by decide⟩
  obtain rfl : input = [] := hin
  have hlinked : Linked automaton st :=
    hsteps.inv (I := fun c => Linked automaton c.stack) Config.step_linked trivial
  obtain ⟨l, rfl⟩ := linked_alone hlinked hstate (by decide)
    (fun h => (goto_list h).1 rfl) (shift_other (by decide))
  obtain ⟨p, o, hlist⟩ := runs_list l look pos eof
  have heq := (Outcome.accept.inj (h.unique (hsteps.runs hlist))).1
  cases heq
  exact ⟨p, l, o, look, pos, rfl, hsteps, hext⟩

theorem runs_behind (a : TokenKind.Val (.ch ';'))
    (h₁ : (inputConfig t₁).Runs automaton eof₁ (.accept [.value 10 .input d₁] ()))
    (hlast : ∀ x ∈ t₁.getLast?, x.1.1 ≠ .ch ';')
    (h₂ : (inputConfig t₂).Runs automaton eof₂ (.accept [.value 10 .input d₂] ())) :
    ∃ p₁ l₁ o₁ p₂ l₂ l o₂, d₁ = .node ⟨0, by decide⟩ p₁ (.tree l₁ (.tree o₁ .nil)) ∧
      d₂ = .node ⟨0, by decide⟩ p₂ (.tree l₂ (.tree o₂ .nil)) ∧ Grafted l₁ a l₂ l ∧
        (inputConfig (t₁ ++ (⟨.ch ';', a⟩, eof₁) :: t₂)).Runs automaton eof₂
          (.accept [.value 10 .input (.node ⟨0, by decide⟩ p₂ (.tree l (.tree o₂ .nil)))] ()) := by
  obtain ⟨p₁, l₁, o₁, look, pos, rfl, -, hext⟩ := runs_reach h₁ hlast
  -- the semicolon is shifted from here, at whatever place
  have hfollows (p : Location) : Follows l₁ a (inputConfig t₂)
      ⟨[.token 86 (.ch ';') a, .value 11 .statementList l₁], t₂, false, p, ()⟩ :=
    ⟨.front [] (fun e he => by cases he), rfl, rfl, fun h => absurd rfl h, fun _ => rfl⟩
  obtain ⟨st', hrun, hover⟩ := (hfollows _).runs h₂
  obtain ⟨p₂, l₂, l, o₂, rfl, rfl, hgraft⟩ := hover.of_input
  refine ⟨p₁, l₁, o₁, p₂, l₂, l, o₂, rfl, rfl, hgraft, ?_⟩
  exact (hext a t₂ eof₂).runs (.next (Config.step_shift rfl rfl) hrun)

end

end Hsql
