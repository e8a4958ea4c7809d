import Hsql.Bison.Cuts
import Mathlib.Algebra.GroupWithZero.Nat

/-! How long a run of the driver takes, and that it never finds the stack short of symbols: weights
that every step lowers, and the items that a state must have behind it for its reductions. -/

namespace Bison
variable {T N : Type} {G : Grammar T N} {A : T → Type} {P : Type} [DecidableEq T]

/-- Weights of symbols, with a slack for each state, under which no step is free: a rule weighs
less than its right-hand side, an empty one is paid for by the slack of the state it is reduced in,
and a token costs more in the input than on the stack. -/
structure Sinks (auto : Automaton G) (weight : Symbol T N → Nat) (slack : Nat → Nat) (toll : Nat) :
    Prop where
  shift {q p : Nat} {t : T} (h : (auto.row q).act (some t) = .shift p) :
    weight (.terminal t) + slack p < toll
  empty {q p : Nat} {t : Option T} {n : N} {r : G.Rule n} (h : (auto.row q).act t = .reduce r)
    (hr : G.rhs r = []) (hp : auto.goto q n = some p) : weight (.nonterminal n) + slack p < slack q
  reduce {q p : Nat} {n : N} (r : G.Rule n) (hr : G.rhs r ≠ []) (hp : auto.goto q n = some p) :
    weight (.nonterminal n) + slack p < ((G.rhs r).map weight).sum

/-- What each state knows to lie behind it: so many symbols of a rule, and below them a state where
the rule's nonterminal leads on. -/
structure Covers (auto : Automaton G) (has : Nat → (n : N) → G.Rule n → Nat → Prop) : Prop where
  start {n : N} {r : G.Rule n} {d : Nat} : ¬ has 0 n r (d + 1)
  shift {q p : Nat} {t : T} {n : N} {r : G.Rule n} {d : Nat}
    (h : (auto.row q).act (some t) = .shift p) (hp : has p n r (d + 1)) :
    (G.rhs r)[d]? = some (.terminal t) ∧ has q n r d
  goto {q p : Nat} {m n : N} {r : G.Rule n} {d : Nat} (h : auto.goto q m = some p)
    (hp : has p n r (d + 1)) : (G.rhs r)[d]? = some (.nonterminal m) ∧ has q n r d
  reduce {q : Nat} {t : Option T} {n : N} {r : G.Rule n} (h : (auto.row q).act t = .reduce r) :
    has q n r (G.rhs r).length
  leads {q : Nat} {n : N} {r : G.Rule n} (h : has q n r 0) : (auto.goto q n).isSome
  wait {q p : Nat} : (auto.row q).act none ≠ .shift p

section
variable {auto : Automaton G} {has : Nat → (n : N) → G.Rule n → Nat → Prop} {V : N → Type}

/-- What a state knows to lie behind it does, on every path of the automaton. -/
theorem Covers.symbols (hcov : Covers auto has) {st : List (Entry A V)} (hlink : Linked auto st)
    {n : N} {r : G.Rule n} {d : Nat} (h : has (topState st) n r d) : ∃ base, base <:+ st ∧
      st.map Entry.symbol = ((G.rhs r).take d).reverse ++ base.map Entry.symbol ∧
      has (topState base) n r 0 := by
  induction d generalizing st with
  | zero => exact ⟨st, List.suffix_rfl, by simp, h⟩
  | succ d ih =>
    cases st with
    | nil => exact absurd h hcov.start
    | cons e st =>
      have hbelow : (G.rhs r)[d]? = some e.symbol ∧ has (topState st) n r d ∧ Linked auto st := by
        cases e with
        | token q t a =>
          obtain ⟨hsym, hhas⟩ := hcov.shift hlink.1 h
          exact ⟨hsym, hhas, hlink.2⟩
        | value q m v =>
          obtain ⟨hsym, hhas⟩ := hcov.goto hlink.1 h
          exact ⟨hsym, hhas, hlink.2⟩
      obtain ⟨hsym, hhas, hlink'⟩ := hbelow
      obtain ⟨base, hbase, hst, hzero⟩ := ih hlink' hhas
      refine ⟨base, hbase.trans (List.suffix_cons e st), ?_, hzero⟩
      rw [List.map_cons, hst, List.take_add_one, hsym, List.reverse_append]
      rfl

variable [DecidableEq N]

/-- A rule that is reduced finds its right-hand side and a state to go on in. -/
theorem Covers.exists_pop (hcov : Covers auto has) {st : List (Entry A V)}
    (hlink : Linked auto st) {t : Option T} {n : N} {r : G.Rule n}
    (h : (auto.row (topState st)).act t = .reduce r) : ∃ vs rest q,
      pop (G.rhs r) st = some (vs, rest) ∧ auto.goto (topState rest) n = some q := by
  obtain ⟨base, hbase, hst, hzero⟩ := hcov.symbols hlink (hcov.reduce h)
  rw [List.take_length] at hst
  obtain ⟨vs, rest, hpop, hrest, hsyms⟩ := Bison.exists_pop hst
  have hlen : rest.length = base.length := by
    simpa using congrArg List.length hsyms
  obtain rfl : rest = base := (List.suffix_of_suffix_length_le hrest hbase hlen.le).eq_of_length hlen
  obtain ⟨q, hq⟩ := Option.isSome_iff_exists.mp (hcov.leads hzero)
  exact ⟨vs, rest, q, hpop, hq⟩

end

namespace Config
variable [DecidableEq N] {M : Semantics G A P} {auto : Automaton G} {eof : P} {c c' : Config M}
  {weight : Symbol T N → Nat} {slack : Nat → Nat} {toll : Nat}

def load (weight : Symbol T N → Nat) (slack : Nat → Nat) (toll : Nat) (c : Config M) : Nat :=
  ((c.stack.map Entry.symbol).map weight).sum + slack (topState c.stack) + toll * c.input.length

theorem step_load (hsink : Sinks auto weight slack toll) (h : c.step auto eof = .inl c') :
    c'.load weight slack toll < c.load weight slack toll := by
  rcases step_cases h with ⟨q, t, a, p, rest, hact, hin, rfl⟩ |
    ⟨n, r, vs, rest, q, v, s, hact, hpop, hgoto, -, rfl⟩
  · have hpays : weight (.terminal t) + slack q < toll := by
      unfold action kind at hact
      rw [hin] at hact
      exact hsink.shift hact
    have hsymbol : (Entry.token q t a : Entry A M.V).symbol = .terminal t := rfl
    have hstate : topState (.token q t a :: c.stack) = q := rfl
    simp only [load, hin, List.map_cons, List.sum_cons, hsymbol, hstate, List.length_cons,
      Nat.mul_succ]
    omega
  · have hsymbol : (Entry.value q n v : Entry A M.V).symbol = .nonterminal n := rfl
    have hstate : topState (.value q n v :: rest) = q := rfl
    simp only [load, ahead_input, List.map_cons, List.sum_cons, hsymbol, hstate]
    by_cases hr : G.rhs r = []
    · -- nothing is taken off, so the state below is the one that reduces
      have hstack : rest = c.stack := by
        have hsyms := pop_symbols hpop
        rw [hr] at hsyms
        have hlen : rest.length = c.stack.length := by
          simpa using (congrArg List.length hsyms).symm
        exact (pop_suffix hpop).eq_of_length hlen
      have hpays := hsink.empty hact hr (hstack ▸ hgoto)
      rw [hstack]
      omega
    · have hpays := hsink.reduce r hr hgoto
      rw [pop_symbols hpop, List.map_append, List.sum_append, List.map_reverse, List.sum_reverse]
      omega

/-- **The driver stops**, after no more steps than the configuration weighs. -/
theorem exists_run (hsink : Sinks auto weight slack toll) {k : Nat} (c : Config M)
    (hk : c.load weight slack toll < k) : ∃ o, c.run auto eof k = some o := by
  induction k generalizing c with
  | zero => exact absurd hk (Nat.not_lt_zero _)
  | succ k ih =>
    unfold run
    cases hstep : c.step auto eof with
    | inl c' => exact ih c' (by have := step_load hsink hstep; omega)
    | inr o => exact ⟨o, rfl⟩

/-- A step only goes wrong in a semantic action. -/
theorem step_crash {has : Nat → (n : N) → G.Rule n → Nat → Prop} (hcov : Covers auto has)
    (hlink : Linked auto c.stack) (h : c.step auto eof = .inr .crash) :
    ∃ (n : N) (r : G.Rule n) (vs : Vals A M.V (G.rhs r)) (rest : List (Entry A M.V)),
      c.action auto = .reduce r ∧ pop (G.rhs r) c.stack = some (vs, rest) ∧
        M.act r vs (c.ahead auto eof).pos c.st = none := by
  rw [step_eq] at h
  cases hact : c.action auto with
  | shift q =>
    rw [hact, apply] at h
    cases hin : c.input with
    | nil =>
      unfold action kind at hact
      rw [hin] at hact
      exact absurd hact hcov.wait
    | cons x rest =>
      rw [ahead_input, hin] at h
      cases h
  | @reduce n r =>
    obtain ⟨vs, rest, q, hpop, hgoto⟩ := hcov.exists_pop hlink hact
    rw [hact, apply, reduce, ahead_stack, ahead_st] at h
    simp only [hpop, hgoto] at h
    cases hv : M.act r vs (c.ahead auto eof).pos c.st with
    | none => exact ⟨n, r, vs, rest, rfl, hpop, hv⟩
    | some y =>
      rw [hv] at h
      cases h
  | accept =>
    rw [hact, apply] at h
    cases h
  | error =>
    rw [hact, apply] at h
    cases h

/-- A run that builds derivations never goes wrong. -/
theorem Runs.ne_crash {has : Nat → (n : N) → G.Rule n → Nat → Prop} (hcov : Covers auto has)
    {c : Config (trees G A P)} {o : Outcome (trees G A P)} (hrun : c.Runs auto eof o)
    (hlink : Linked auto c.stack) : o ≠ .crash := by
  rintro rfl
  obtain ⟨d, hd, hstep⟩ := hrun.last (I := fun c => Linked auto c.stack) step_linked hlink
  obtain ⟨n, r, vs, rest, -, -, hnone⟩ := step_crash hcov hd hstep
  cases hnone

end Config

end Bison
