import Hsql.Bison.Driver

/-! Runs of the driver: what one step does, and invariants of a run. The stack is a path of the
automaton, what has been read lies in front of what has not, and the derivations on the stack
spell what has been read. -/

namespace Bison
variable {T N : Type} {G : Grammar T N} {A : T → Type} {P : Type}

namespace Config
variable {M : Semantics G A P} {auto : Automaton G} {eof : P} {c : Config M}

/-- The configuration in which a step takes its action: the lookahead is read if the state has
actions of its own. -/
def ahead (auto : Automaton G) (eof : P) (c : Config M) : Config M :=
  if (auto.row (topState c.stack)).acts.isEmpty then c else c.read eof

theorem read_input (c : Config M) : (c.read eof).input = c.input := by
  unfold read
  split_ifs <;> rfl

theorem read_st (c : Config M) : (c.read eof).st = c.st := by
  unfold read
  split_ifs <;> rfl

@[simp] theorem ahead_stack : (c.ahead auto eof).stack = c.stack := by
  unfold ahead
  split_ifs
  · rfl
  · exact read_stack c

@[simp] theorem ahead_input : (c.ahead auto eof).input = c.input := by
  unfold ahead
  split_ifs
  · rfl
  · exact read_input c

@[simp] theorem ahead_st : (c.ahead auto eof).st = c.st := by
  unfold ahead
  split_ifs
  · rfl
  · exact read_st c

end Config

variable [DecidableEq T] [DecidableEq N]

section
variable {V : N → Type}

omit [DecidableEq N] in
theorem popToken_eq_some {t : T} {st rest : List (Entry A V)} {a : A t}
    (h : popToken t st = some (a, rest)) : ∃ q, st = .token q t a :: rest := by
  unfold popToken at h
  split at h
  · split_ifs at h with ht
    subst ht
    cases h
    exact ⟨_, rfl⟩
  · cases h

omit [DecidableEq T] in
theorem popValue_eq_some {n : N} {st rest : List (Entry A V)} {v : V n}
    (h : popValue n st = some (v, rest)) : ∃ q, st = .value q n v :: rest := by
  unfold popValue at h
  split at h
  · split_ifs at h with hn
    subst hn
    cases h
    exact ⟨_, rfl⟩
  · cases h

theorem pop_suffix {ss : List (Symbol T N)} {st rest : List (Entry A V)} {vs : Vals A V ss}
    (h : pop ss st = some (vs, rest)) : rest <:+ st := by
  induction ss generalizing rest with
  | nil =>
    cases h
    exact List.suffix_rfl
  | cons sym ss ih =>
    cases sym with
    | terminal t =>
      obtain ⟨⟨us, st₁⟩, hss, h⟩ := Option.bind_eq_some_iff.mp h
      obtain ⟨⟨a, st₂⟩, ht, heq⟩ := Option.map_eq_some_iff.mp h
      cases heq
      obtain ⟨q, rfl⟩ := popToken_eq_some ht
      exact (List.suffix_cons _ _).trans (ih hss)
    | nonterminal n =>
      obtain ⟨⟨us, st₁⟩, hss, h⟩ := Option.bind_eq_some_iff.mp h
      obtain ⟨⟨v, st₂⟩, hn, heq⟩ := Option.map_eq_some_iff.mp h
      cases heq
      obtain ⟨q, rfl⟩ := popValue_eq_some hn
      exact (List.suffix_cons _ _).trans (ih hss)

/-- Each state is where its symbol leads from the state below. -/
def Linked (auto : Automaton G) : List (Entry A V) → Prop
  | [] => True
  | .token q t _ :: rest => (auto.row (topState rest)).act (some t) = .shift q ∧ Linked auto rest
  | .value q n _ :: rest => auto.goto (topState rest) n = some q ∧ Linked auto rest

omit [DecidableEq N] in
theorem Linked.suffix {auto : Automaton G} {st rest : List (Entry A V)} (h : Linked auto st)
    (hrest : rest <:+ st) : Linked auto rest := by
  induction st with
  | nil =>
    obtain rfl := List.suffix_nil.mp hrest
    exact h
  | cons e st ih =>
    have hcases := List.suffix_cons_iff.mp hrest
    rcases hcases with rfl | htail
    · exact h
    · cases e with
      | token q t a => exact ih h.2 htail
      | value q n v => exact ih h.2 htail

end

namespace Config
variable {M : Semantics G A P} {auto : Automaton G} {eof : P} {c c' : Config M}

/-- The action of a step. -/
def action (auto : Automaton G) (c : Config M) : Act G :=
  (auto.row (topState c.stack)).act c.kind

theorem step_eq (c : Config M) :
    c.step auto eof = (c.ahead auto eof).apply auto.goto (c.action auto) := by
  have hkind : (c.ahead auto eof).kind = c.kind := by
    unfold kind
    rw [ahead_input]
  unfold step action
  rw [← hkind]
  rfl

/-- What a step does that does not stop. -/
theorem step_cases (h : c.step auto eof = .inl c') :
    (∃ q t a p rest, c.action auto = .shift q ∧ c.input = (⟨t, a⟩, p) :: rest ∧
      c' = { c.ahead auto eof with
        stack := .token q t a :: c.stack, input := rest, look := false }) ∨
    ∃ (n : N) (r : G.Rule n) (vs : Vals A M.V (G.rhs r)) (rest : List (Entry A M.V)) (q : Nat)
      (v : M.V n) (s : M.S), c.action auto = .reduce r ∧ pop (G.rhs r) c.stack = some (vs, rest) ∧
      auto.goto (topState rest) n = some q ∧
      M.act r vs (c.ahead auto eof).pos c.st = some (v, s) ∧
      c' = { c.ahead auto eof with stack := .value q n v :: rest, st := s } := by
  rw [step_eq] at h
  cases hact : c.action auto with
  | shift q =>
    left
    rw [hact, apply] at h
    cases hin : c.input with
    | nil =>
      rw [ahead_input, hin] at h
      cases h
    | cons x rest =>
      obtain ⟨⟨t, a⟩, p⟩ := x
      rw [ahead_input, hin] at h
      refine ⟨q, t, a, p, rest, rfl, rfl, ?_⟩
      rw [← Sum.inl.inj h, ahead_stack]
  | @reduce n r =>
    right
    rw [hact, apply, reduce, ahead_stack, ahead_st] at h
    cases hpop : pop (G.rhs r) c.stack with
    | none =>
      rw [hpop] at h
      cases h
    | some x =>
      obtain ⟨vs, rest⟩ := x
      rw [hpop] at h
      cases hgoto : auto.goto (topState rest) n with
      | none =>
        simp only [hgoto] at h
        cases h
      | some q =>
        simp only [hgoto] at h
        cases hv : M.act r vs (c.ahead auto eof).pos c.st with
        | none =>
          rw [hv] at h
          cases h
        | some y =>
          rw [hv] at h
          exact ⟨n, r, vs, rest, q, y.1, y.2, rfl, hpop, hgoto, hv, (Sum.inl.inj h).symm⟩
  | accept =>
    rw [hact] at h
    cases h
  | error =>
    rw [hact] at h
    cases h

/-- How a step stops. -/
theorem step_stops {o : Outcome M} (h : c.step auto eof = .inr o) : o = .crash ∨
    c.action auto = .accept ∧ o = .accept c.stack c.st ∨
    c.action auto = .error ∧ o = .reject c.stack c.kind (c.ahead auto eof).pos c.st := by
  rw [step_eq] at h
  cases hact : c.action auto with
  | shift q =>
    left
    rw [hact, apply] at h
    cases hin : (c.ahead auto eof).input <;> rw [hin] at h <;> cases h
    rfl
  | @reduce n r =>
    left
    rw [hact, apply, reduce] at h
    cases hpop : pop (G.rhs r) (c.ahead auto eof).stack with
    | none =>
      rw [hpop] at h
      exact (Sum.inr.inj h).symm
    | some x =>
      rw [hpop] at h
      cases hgoto : auto.goto (topState x.2) n with
      | none =>
        simp only [hgoto] at h
        exact (Sum.inr.inj h).symm
      | some q =>
        simp only [hgoto] at h
        cases hv : M.act r x.1 (c.ahead auto eof).pos (c.ahead auto eof).st <;> rw [hv] at h <;>
          cases h
        rfl
  | accept =>
    rw [hact] at h
    have hout := Sum.inr.inj h
    rw [ahead_stack, ahead_st] at hout
    exact .inr (.inl ⟨rfl, hout.symm⟩)
  | error =>
    rw [hact] at h
    have hout := Sum.inr.inj h
    rw [ahead_stack, ahead_st, kind, ahead_input] at hout
    exact .inr (.inr ⟨rfl, hout.symm⟩)

theorem step_accept {stack : List (Entry A M.V)} {s : M.S}
    (h : c.step auto eof = .inr (.accept stack s)) :
    c.action auto = .accept ∧ c.stack = stack ∧ c.st = s := by
  rcases step_stops h with hout | ⟨hact, hout⟩ | ⟨-, hout⟩ <;> cases hout
  exact ⟨hact, rfl, rfl⟩

theorem step_reject {stack : List (Entry A M.V)} {t : Option T} {p : P} {s : M.S}
    (h : c.step auto eof = .inr (.reject stack t p s)) :
    c.action auto = .error ∧ c.stack = stack ∧ c.kind = t ∧ (c.ahead auto eof).pos = p ∧ c.st = s := by
  rcases step_stops h with hout | ⟨-, hout⟩ | ⟨hact, hout⟩ <;> cases hout
  exact ⟨hact, rfl, rfl, rfl, rfl⟩

/-- One configuration leads to another. -/
inductive Steps (auto : Automaton G) (eof : P) : Config M → Config M → Prop where
  | refl (c : Config M) : Steps auto eof c c
  | tail {c c' c'' : Config M} (h : Steps auto eof c c') (hstep : c'.step auto eof = .inl c'') :
      Steps auto eof c c''

/-- An invariant holds wherever steps lead. -/
theorem Steps.inv {I : Config M → Prop} (hI : ∀ {c c'}, I c → c.step auto eof = .inl c' → I c')
    (h : c.Steps auto eof c') (hc : I c) : I c' := by
  induction h with
  | refl => exact hc
  | tail _ hstep ih => exact hI ih hstep

theorem Steps.head {c'' : Config M} (hstep : c.step auto eof = .inl c')
    (h : c'.Steps auto eof c'') : c.Steps auto eof c'' := by
  induction h with
  | refl => exact .tail (.refl _) hstep
  | tail _ hlast ih => exact .tail ih hlast

theorem Steps.trans {c'' : Config M} (h : c.Steps auto eof c') (h' : c'.Steps auto eof c'') :
    c.Steps auto eof c'' := by
  induction h' with
  | refl => exact h
  | tail _ hstep ih => exact .tail ih hstep

theorem Steps.runs {o : Outcome M} (h : c.Steps auto eof c') (hc : c'.Runs auto eof o) :
    c.Runs auto eof o := by
  induction h with
  | refl => exact hc
  | tail _ hstep ih => exact ih (.next hstep hc)

theorem Runs.exists_steps {o : Outcome M} (h : c.Runs auto eof o) :
    ∃ c', c.Steps auto eof c' ∧ c'.step auto eof = .inr o := by
  induction h with
  | stop h => exact ⟨_, .refl _, h⟩
  | next h _ ih =>
    obtain ⟨c', hsteps, hlast⟩ := ih
    exact ⟨c', hsteps.head h, hlast⟩

/-- The rule for invariants of a run. -/
theorem Runs.last {I : Config M → Prop} (hI : ∀ {c c'}, I c → c.step auto eof = .inl c' → I c')
    {o : Outcome M} (h : c.Runs auto eof o) (hc : I c) :
    ∃ c', I c' ∧ c'.step auto eof = .inr o := by
  obtain ⟨c', hsteps, hlast⟩ := h.exists_steps
  exact ⟨c', hsteps.inv hI hc, hlast⟩

theorem step_linked (hc : Linked auto c.stack) (h : c.step auto eof = .inl c') :
    Linked auto c'.stack := by
  rcases step_cases h with ⟨q, t, a, p, rest, hact, hin, rfl⟩ |
    ⟨n, r, vs, rest, q, v, s, hact, hpop, hgoto, -, rfl⟩
  · refine ⟨?_, hc⟩
    unfold action kind at hact
    rwa [hin] at hact
  · exact ⟨hgoto, hc.suffix (pop_suffix hpop)⟩

/-- What the run has read of its input is in front of the rest; a token on top of the stack is the
last of it. -/
def Reads (input : List (Sigma A × P)) (c : Config M) : Prop :=
  ∃ pre, input = pre ++ c.input ∧ ∀ q t a rest, c.stack = .token q t a :: rest →
    ∃ pre' p, pre = pre' ++ [(⟨t, a⟩, p)]

theorem step_reads {input : List (Sigma A × P)} (hc : c.Reads input)
    (h : c.step auto eof = .inl c') : c'.Reads input := by
  obtain ⟨pre, hpre, -⟩ := hc
  rcases step_cases h with ⟨q, t, a, p, rest, -, hin, rfl⟩ |
    ⟨n, r, vs, rest, q, v, s, -, -, -, -, rfl⟩
  · refine ⟨pre ++ [(⟨t, a⟩, p)], ?_, ?_⟩
    · rw [hpre, hin, List.append_assoc]
      rfl
    · rintro q' t' a' rest' heq
      cases heq
      exact ⟨pre, p, rfl⟩
  · refine ⟨pre, ?_, ?_⟩
    · rw [hpre]
      exact congrArg _ ahead_input.symm
    · rintro q' t' a' rest' heq
      cases heq

/-- A lookahead that has been read is the first of the rest. -/
def Looks (eof : P) (c : Config M) : Prop :=
  c.look = true → c.pos = (c.input.head?.map Prod.snd).getD eof

omit [DecidableEq T] [DecidableEq N] in
theorem looks_read (hc : c.Looks eof) :
    (c.read eof).pos = (c.input.head?.map Prod.snd).getD eof := by
  unfold read
  split_ifs with hlook
  · exact hc hlook
  · rfl

omit [DecidableEq T] [DecidableEq N] in
theorem looks_ahead (hc : c.Looks eof) : (c.ahead auto eof).Looks eof := by
  intro hlook
  rw [ahead_input]
  unfold ahead at hlook ⊢
  split_ifs at hlook ⊢
  · exact hc hlook
  · exact looks_read hc

theorem step_looks (hc : c.Looks eof) (h : c.step auto eof = .inl c') : c'.Looks eof := by
  rcases step_cases h with ⟨q, t, a, p, rest, -, -, rfl⟩ |
    ⟨n, r, vs, rest, q, v, s, -, -, -, -, rfl⟩
  · intro hlook
    cases hlook
  · exact looks_ahead hc

end Config

/-! Derivations on the stack. -/

def stackYield : List (Entry A (Tree G A P)) → List (Sigma A)
  | [] => []
  | .token _ t a :: es => stackYield es ++ [⟨t, a⟩]
  | .value _ _ d :: es => stackYield es ++ d.yield

theorem stackYield_pop {ss : List (Symbol T N)} {st rest : List (Entry A (Tree G A P))}
    {vs : Vals A (Tree G A P) ss} (h : pop ss st = some (vs, rest)) :
    stackYield st = stackYield rest ++ (Forest.ofVals vs).yield := by
  induction ss generalizing rest with
  | nil =>
    cases h
    exact (List.append_nil _).symm
  | cons sym ss ih =>
    cases sym with
    | terminal t =>
      obtain ⟨⟨us, st₁⟩, hss, h⟩ := Option.bind_eq_some_iff.mp h
      obtain ⟨⟨a, st₂⟩, ht, heq⟩ := Option.map_eq_some_iff.mp h
      cases heq
      obtain ⟨q, rfl⟩ := popToken_eq_some ht
      rw [ih hss]
      exact List.append_assoc _ _ _
    | nonterminal n =>
      obtain ⟨⟨us, st₁⟩, hss, h⟩ := Option.bind_eq_some_iff.mp h
      obtain ⟨⟨d, st₂⟩, hn, heq⟩ := Option.map_eq_some_iff.mp h
      cases heq
      obtain ⟨q, rfl⟩ := popValue_eq_some hn
      rw [ih hss]
      exact List.append_assoc _ _ _

namespace Config
variable {auto : Automaton G} {eof : P} {c c' : Config (trees G A P)}

def Spells (input : List (Sigma A × P)) (c : Config (trees G A P)) : Prop :=
  stackYield c.stack ++ c.input.map Prod.fst = input.map Prod.fst

theorem step_spells {input : List (Sigma A × P)} (hc : c.Spells input)
    (h : c.step auto eof = .inl c') : c'.Spells input := by
  unfold Spells at hc ⊢
  rcases step_cases h with ⟨q, t, a, p, rest, -, hin, rfl⟩ |
    ⟨n, r, vs, rest, q, v, s, -, hpop, -, hact, rfl⟩
  · rw [hin] at hc
    rw [← hc]
    exact List.append_assoc _ _ _
  · obtain ⟨rfl, -⟩ := Prod.mk.inj (Option.some.inj hact)
    rw [stackYield_pop hpop] at hc
    rw [← hc]
    exact congrArg (fun l => _ ++ List.map Prod.fst l) ahead_input

end Config

end Bison
