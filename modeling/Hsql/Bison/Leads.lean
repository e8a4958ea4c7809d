import Hsql.Bison.Runs

/-! Stretches of a run that only use actions without effects: what they do to the stack and to the
input, whatever the rest of the configuration is. -/

namespace Bison
variable {T N : Type} [DecidableEq T] [DecidableEq N] {G : Grammar T N} {A : T → Type} {P : Type}
  {M : Semantics G A P} {auto : Automaton G} {eof : P}

/-- Steps lead from one stack and input to another. -/
def Leads (M : Semantics G A P) (auto : Automaton G) (eof : P)
    (x y : List (Entry A M.V) × List (Sigma A × P)) : Prop :=
  ∀ look pos st, ∃ look' pos',
    Config.Steps auto eof (⟨x.1, x.2, look, pos, st⟩ : Config M) ⟨y.1, y.2, look', pos', st⟩

/-- The kind of the next token. -/
def ahead (input : List (Sigma A × P)) : Option T := input.head?.map fun x => x.1.1

namespace Leads
variable {x y z : List (Entry A M.V) × List (Sigma A × P)} {st st' : List (Entry A M.V)}
  {rest : List (Sigma A × P)} {q : Nat}

theorem refl (x : List (Entry A M.V) × List (Sigma A × P)) : Leads M auto eof x x :=
  fun look pos _ => ⟨look, pos, .refl _⟩

theorem trans (h : Leads M auto eof x y) (h' : Leads M auto eof y z) : Leads M auto eof x z := by
  intro look pos st
  obtain ⟨look', pos', hsteps⟩ := h look pos st
  obtain ⟨look'', pos'', hsteps'⟩ := h' look' pos' st
  exact ⟨look'', pos'', hsteps.trans hsteps'⟩

theorem shift {t : T} {a : A t} {p : P} (h : (auto.row (topState st)).act (some t) = .shift q) :
    Leads M auto eof (st, (⟨t, a⟩, p) :: rest) (.token q t a :: st, rest) := by
  intro look pos s
  let c : Config M := ⟨st, (⟨t, a⟩, p) :: rest, look, pos, s⟩
  have haction : c.action auto = .shift q := h
  have hstep : c.step auto eof = .inl ⟨.token q t a :: st, rest, false, (c.ahead auto eof).pos, s⟩ := by
    rw [Config.step_eq, haction, Config.apply, Config.ahead_input]
    dsimp only [c]
    rw [Config.ahead_stack, Config.ahead_st]
  exact ⟨false, (c.ahead auto eof).pos, .tail (.refl c) hstep⟩

theorem reduce {n : N} {r : G.Rule n} {vs : Vals A M.V (G.rhs r)} {v : M.V n}
    (h : (auto.row (topState st)).act (ahead rest) = .reduce r)
    (hpop : pop (G.rhs r) st = some (vs, st')) (hgoto : auto.goto (topState st') n = some q)
    (hact : ∀ p s, M.act r vs p s = some (v, s)) :
    Leads M auto eof (st, rest) (.value q n v :: st', rest) := by
  intro look pos s
  let c : Config M := ⟨st, rest, look, pos, s⟩
  have haction : c.action auto = .reduce r := h
  have hstep : c.step auto eof =
      .inl ⟨.value q n v :: st', rest, (c.ahead auto eof).look, (c.ahead auto eof).pos, s⟩ := by
    rw [Config.step_eq, haction, Config.apply, Config.reduce, Config.ahead_stack, hpop]
    dsimp only
    rw [hgoto]
    dsimp only
    rw [hact, Config.ahead_input, Config.ahead_st]
  exact ⟨_, _, .tail (.refl c) hstep⟩

end Leads
/-! Stretches with effects. -/

/-- Steps lead to a stack and input with a value, and the value and the state behind them are
related to the state in front. -/
def Makes {W : Type} (M : Semantics G A P) (auto : Automaton G) (eof : P)
    (x : List (Entry A M.V) × List (Sigma A × P)) (R : M.S → W → M.S → Prop)
    (y : W → List (Entry A M.V) × List (Sigma A × P)) : Prop :=
  ∀ look pos st, ∃ v st' look' pos', R st v st' ∧
    Config.Steps auto eof (⟨x.1, x.2, look, pos, st⟩ : Config M) ⟨(y v).1, (y v).2, look', pos', st'⟩

namespace Makes
variable {W W' : Type} {x x' : List (Entry A M.V) × List (Sigma A × P)}
  {R : M.S → W → M.S → Prop} {y : W → List (Entry A M.V) × List (Sigma A × P)}
  {z : W' → List (Entry A M.V) × List (Sigma A × P)}

theorem imp {R' : M.S → W → M.S → Prop} (h : Makes M auto eof x R y)
    (h' : ∀ s v s', R s v s' → R' s v s') : Makes M auto eof x R' y := by
  intro look pos s
  obtain ⟨v, s', look', pos', hR, hsteps⟩ := h look pos s
  exact ⟨v, s', look', pos', h' s v s' hR, hsteps⟩

theorem head (h : Leads M auto eof x x') (h' : Makes M auto eof x' R y) : Makes M auto eof x R y := by
  intro look pos st
  obtain ⟨look₁, pos₁, hsteps⟩ := h look pos st
  obtain ⟨v, st', look', pos', hR, hsteps'⟩ := h' look₁ pos₁ st
  exact ⟨v, st', look', pos', hR, hsteps.trans hsteps'⟩

theorem map (h : Makes M auto eof x R y) (f : W → W') (h' : ∀ v, Leads M auto eof (y v) (z (f v))) :
    Makes M auto eof x (fun s w s' => ∃ v, R s v s' ∧ w = f v) z := by
  intro look pos st
  obtain ⟨v, st', look₁, pos₁, hR, hsteps⟩ := h look pos st
  obtain ⟨look', pos', hsteps'⟩ := h' v look₁ pos₁ st'
  exact ⟨f v, st', look', pos', ⟨v, hR, rfl⟩, hsteps.trans hsteps'⟩

theorem tail {z : W → List (Entry A M.V) × List (Sigma A × P)} (h : Makes M auto eof x R y)
    (h' : ∀ v, Leads M auto eof (y v) (z v)) : Makes M auto eof x R z := by
  intro look pos st
  obtain ⟨v, st', look₁, pos₁, hR, hsteps⟩ := h look pos st
  obtain ⟨look', pos', hsteps'⟩ := h' v look₁ pos₁ st'
  exact ⟨v, st', look', pos', hR, hsteps.trans hsteps'⟩

theorem bind {R' : W → M.S → W' → M.S → Prop} (h : Makes M auto eof x R y)
    (h' : ∀ v, Makes M auto eof (y v) (R' v) z) :
    Makes M auto eof x (fun s w s' => ∃ v s₁, R s v s₁ ∧ R' v s₁ w s') z := by
  intro look pos st
  obtain ⟨v, st₁, look₁, pos₁, hR, hsteps⟩ := h look pos st
  obtain ⟨w, st', look', pos', hR', hsteps'⟩ := h' v look₁ pos₁ st₁
  exact ⟨w, st', look', pos', ⟨v, st₁, hR, hR'⟩, hsteps.trans hsteps'⟩

theorem of_leads {W : Type} {x : List (Entry A M.V) × List (Sigma A × P)}
    {z : W → List (Entry A M.V) × List (Sigma A × P)} {v : W} (h : Leads M auto eof x (z v)) :
    Makes M auto eof x (fun s w s' => w = v ∧ s' = s) z := by
  intro look pos st
  obtain ⟨look', pos', hsteps⟩ := h look pos st
  exact ⟨v, st, look', pos', ⟨rfl, rfl⟩, hsteps⟩

theorem reduce {n : N} {r : G.Rule n} {vs : Vals A M.V (G.rhs r)} {st st' : List (Entry A M.V)}
    {rest : List (Sigma A × P)} {q : Nat} {R : M.S → M.V n → M.S → Prop}
    (h : (auto.row (topState st)).act (ahead rest) = .reduce r)
    (hpop : pop (G.rhs r) st = some (vs, st')) (hgoto : auto.goto (topState st') n = some q)
    (hact : ∀ p s, ∃ v s', M.act r vs p s = some (v, s') ∧ R s v s') :
    Makes M auto eof (st, rest) R fun v => (.value q n v :: st', rest) := by
  intro look pos s
  let c : Config M := ⟨st, rest, look, pos, s⟩
  obtain ⟨v, s', hv, hR⟩ := hact (c.ahead auto eof).pos s
  have haction : c.action auto = .reduce r := h
  have hstep : c.step auto eof =
      .inl ⟨.value q n v :: st', rest, (c.ahead auto eof).look, (c.ahead auto eof).pos, s'⟩ := by
    rw [Config.step_eq, haction, Config.apply, Config.reduce, Config.ahead_stack, hpop]
    dsimp only
    rw [hgoto]
    dsimp only
    rw [Config.ahead_st]
    dsimp only [c]
    rw [hv, Config.ahead_input]
  exact ⟨v, s', _, _, hR, .tail (.refl c) hstep⟩

end Makes

namespace Config

theorem Steps.cases_head {c d : Config M} (h : c.Steps auto eof d) :
    c = d ∨ ∃ e, c.step auto eof = .inl e ∧ e.Steps auto eof d := by
  induction h with
  | refl => exact Or.inl rfl
  | tail hsteps hstep ih =>
    rcases ih with rfl | ⟨e, he, hrest⟩
    · exact Or.inr ⟨_, hstep, .refl _⟩
    · exact Or.inr ⟨e, he, hrest.tail hstep⟩

/-- Of two configurations that steps lead to, one comes before the other. -/
theorem Steps.total {c d d' : Config M} (h : c.Steps auto eof d) (h' : c.Steps auto eof d') :
    d.Steps auto eof d' ∨ d'.Steps auto eof d := by
  induction h with
  | refl => exact Or.inl h'
  | tail hsteps hstep ih =>
    rcases ih with hfront | hbehind
    · rcases hfront.cases_head with rfl | ⟨e, he, hrest⟩
      · exact Or.inr (.tail (.refl _) hstep)
      · rw [hstep] at he
        obtain rfl := Sum.inl.inj he
        exact Or.inl hrest
    · exact Or.inr (hbehind.tail hstep)

theorem Steps.length_le {c d : Config M} (h : c.Steps auto eof d) :
    d.input.length ≤ c.input.length := by
  induction h with
  | refl => exact le_rfl
  | tail _ hstep ih =>
    refine le_trans ?_ ih
    rcases step_cases hstep with ⟨q, t, a, p, rest, -, hin, rfl⟩ |
      ⟨n, r, vs, rest, q, v, s, -, -, -, -, rfl⟩
    · rw [hin]
      exact Nat.le_succ _
    · exact (congrArg List.length ahead_input).le

theorem Steps.eq_of_stops {c d d' : Config M} {o o' : Outcome M} (h : c.Steps auto eof d)
    (h' : c.Steps auto eof d') (hd : d.step auto eof = .inr o) (hd' : d'.step auto eof = .inr o') :
    d = d' := by
  have hstays {d d' : Config M} {o : Outcome M} (h : d.Steps auto eof d')
      (hd : d.step auto eof = .inr o) : d = d' := by
    rcases h.cases_head with rfl | ⟨e, he, -⟩
    · rfl
    · cases hd.symm.trans he
  rcases h.total h' with hfront | hbehind
  · exact hstays hfront hd
  · exact (hstays hbehind hd').symm

end Config

/-- Two descriptions of what is made agree, if nothing goes on from there. -/
theorem Makes.agree {W W' : Type} {x : List (Entry A M.V) × List (Sigma A × P)}
    {R : M.S → W → M.S → Prop} {R' : M.S → W' → M.S → Prop}
    {y : W → List (Entry A M.V) × List (Sigma A × P)}
    {y' : W' → List (Entry A M.V) × List (Sigma A × P)} (h : Makes M auto eof x R y)
    (h' : Makes M auto eof x R' y')
    (hy : ∀ v, (auto.row (topState (y v).1)).act (ahead (y v).2) = .error)
    (hy' : ∀ v, (auto.row (topState (y' v).1)).act (ahead (y' v).2) = .error)
    (look : Bool) (pos : P) (s : M.S) : ∃ v v' s', R s v s' ∧ R' s v' s' ∧ y v = y' v' := by
  obtain ⟨v, st, look₁, pos₁, hR, hsteps⟩ := h look pos s
  obtain ⟨v', st', look₁', pos₁', hR', hsteps'⟩ := h' look pos s
  have hstops {w : List (Entry A M.V) × List (Sigma A × P)}
      (hw : (auto.row (topState w.1)).act (ahead w.2) = .error) (look : Bool) (pos : P) (s : M.S) :
      ∃ o, (⟨w.1, w.2, look, pos, s⟩ : Config M).step auto eof = .inr o := by
    have haction : (⟨w.1, w.2, look, pos, s⟩ : Config M).action auto = .error := hw
    rw [Config.step_eq, haction]
    exact ⟨_, rfl⟩
  obtain ⟨o, ho⟩ := hstops (hy v) look₁ pos₁ st
  obtain ⟨o', ho'⟩ := hstops (hy' v') look₁' pos₁' st'
  have heq := hsteps.eq_of_stops hsteps' ho ho'
  obtain ⟨hstack, hinput, -, -, rfl⟩ := Config.mk.inj heq
  exact ⟨v, v', st, hR, hR', Prod.ext hstack hinput⟩

/-- Where the parser is stuck, it has read at least as far as anywhere else. -/
theorem Makes.stuck_le {W W' : Type} {x : List (Entry A M.V) × List (Sigma A × P)}
    {R : M.S → W → M.S → Prop} {R' : M.S → W' → M.S → Prop}
    {y : W → List (Entry A M.V) × List (Sigma A × P)}
    {y' : W' → List (Entry A M.V) × List (Sigma A × P)} (h : Makes M auto eof x R y)
    (h' : Makes M auto eof x R' y')
    (hstuck : ∀ s w s', R' s w s' → (auto.row (topState (y' w).1)).act (ahead (y' w).2) = .error)
    (look : Bool) (pos : P) (s : M.S) : ∃ v w, (y' w).2.length ≤ (y v).2.length := by
  obtain ⟨v, st, look₁, pos₁, -, hsteps⟩ := h look pos s
  obtain ⟨w, st', look₁', pos₁', hR', hsteps'⟩ := h' look pos s
  refine ⟨v, w, ?_⟩
  rcases hsteps.total hsteps' with hfront | hbehind
  · exact hfront.length_le
  · rcases hbehind.cases_head with heq | ⟨e, he, -⟩
    · exact (congrArg (fun c : Config M => c.input.length) heq).le
    · have haction : (⟨(y' w).1, (y' w).2, look₁', pos₁', st'⟩ : Config M).action auto = .error :=
        hstuck s w st' hR'
      rw [Config.step_eq, haction] at he
      cases he

end Bison
