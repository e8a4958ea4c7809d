import Hsql.Bison.Image

/-! What the control of the parser does with tokens depends on their kinds alone: the states on the
stack can be followed without values, and texts with the same kinds have the same derivation up to
the values of their tokens. -/

namespace Bison
variable {T N : Type} {G : Grammar T N} {A : T → Type} {P : Type}

/-! The stack of states. -/

/-- What comes of a stack of states in front of a token. -/
inductive Verdict where
  | shifted (states : List Nat)
  | accepted
  | rejected
  | unfinished
deriving DecidableEq

/-- The reductions in front of a token, and its shift; at most so many steps. -/
def verdict [DecidableEq T] (auto : Automaton G) : Nat → List Nat → Option T → Verdict
  | 0, _, _ => .unfinished
  | fuel + 1, states, t =>
    match (auto.row (states.headD 0)).act t with
    | .shift q => .shifted (q :: states)
    | @Act.reduce _ _ _ n r =>
      match auto.goto ((states.drop (G.rhs r).length).headD 0) n with
      | some q => verdict auto fuel (q :: states.drop (G.rhs r).length) t
      | none => .rejected
    | .accept => .accepted
    | .error => .rejected

/-- What comes of a stack of states with these tokens ahead. -/
def follow [DecidableEq T] (auto : Automaton G) (fuel : Nat) : List Nat → List T → Verdict
  | states, [] => .shifted states
  | states, t :: ts =>
    match verdict auto fuel states (some t) with
    | .shifted states' => follow auto fuel states' ts
    | v => v

section
variable {V : N → Type}

theorem headD_states (st : List (Entry A V)) : (st.map Entry.state).headD 0 = topState st := by
  cases st <;> rfl

variable [DecidableEq T] [DecidableEq N]

theorem pop_states {ss : List (Symbol T N)} {st rest : List (Entry A V)} {vs : Vals A V ss}
    (h : pop ss st = some (vs, rest)) :
    (st.map Entry.state).drop ss.length = rest.map Entry.state := by
  induction ss generalizing rest with
  | nil =>
    cases h
    rfl
  | cons sym ss ih =>
    have htail {st₁ : List (Entry A V)} {e : Entry A V} {us : Vals A V ss}
        (hss : pop ss st = some (us, st₁)) (he : st₁ = e :: rest) :
        (st.map Entry.state).drop (ss.length + 1) = rest.map Entry.state := by
      rw [List.drop_add_one_eq_tail_drop, ih hss, he]
      rfl
    cases sym with
    | terminal t =>
      obtain ⟨⟨us, st₁⟩, hss, h⟩ := Option.bind_eq_some_iff.mp h
      obtain ⟨⟨a, st₂⟩, ht, heq⟩ := Option.map_eq_some_iff.mp h
      cases heq
      obtain ⟨q, hq⟩ := popToken_eq_some ht
      exact htail hss hq
    | nonterminal n =>
      obtain ⟨⟨us, st₁⟩, hss, h⟩ := Option.bind_eq_some_iff.mp h
      obtain ⟨⟨v, st₂⟩, hn, heq⟩ := Option.map_eq_some_iff.mp h
      cases heq
      obtain ⟨q, hq⟩ := popValue_eq_some hn
      exact htail hss hq

end

namespace Config
variable {M : Semantics G A P} {auto : Automaton G} {eof : P} {c : Config M}
variable [DecidableEq T]

def states (c : Config M) : List Nat := c.stack.map Entry.state

theorem action_eq (c : Config M) :
    c.action auto = (auto.row (c.states.headD 0)).act c.kind := by
  unfold action states
  rw [headD_states]

variable [DecidableEq N]

/-- A run that accepts does not meet an error, and shifts what it is said to shift. -/
theorem Runs.verdict {stack : List (Entry A M.V)} {s : M.S} (fuel : Nat)
    (h : c.Runs auto eof (.accept stack s)) : Bison.verdict auto fuel c.states c.kind ≠ .rejected ∧
      ∀ states', Bison.verdict auto fuel c.states c.kind = .shifted states' → c.input ≠ [] →
        ∃ c' : Config M, c.Steps auto eof c' ∧ c'.states = states' ∧ c'.input = c.input.tail ∧
          c'.Runs auto eof (.accept stack s) := by
  induction fuel generalizing c with
  | zero => exact ⟨nofun, nofun⟩
  | succ fuel ih =>
    unfold Bison.verdict
    rw [← action_eq]
    cases h with
    | stop hstop =>
      obtain ⟨hact, -, -⟩ := step_accept hstop
      rw [hact]
      exact ⟨nofun, nofun⟩
    | @next _ c' _ hstep hrun =>
      rcases step_cases hstep with ⟨q, t, a, p, rest, hact, hin, rfl⟩ |
        ⟨n, r, vs, rest, q, v, s', hact, hpop, hgoto, -, hc'⟩
      · rw [hact]
        refine ⟨nofun, fun states' heq _ => ?_⟩
        obtain rfl := Verdict.shifted.inj heq
        exact ⟨_, .tail (.refl c) hstep, rfl, by rw [hin]; rfl, hrun⟩
      · have hdrop : c.states.drop (G.rhs r).length = rest.map Entry.state := pop_states hpop
        have hinput : c'.input = c.input := by
          rw [hc']
          exact ahead_input
        have hkind : c'.kind = c.kind := by
          unfold kind
          rw [hinput]
        have hstates : c'.states = q :: rest.map Entry.state := by
          rw [hc']
          rfl
        have hrest := ih hrun
        rw [hkind, hstates, hinput] at hrest
        rw [hact]
        dsimp only
        rw [hdrop, headD_states, hgoto]
        refine ⟨hrest.1, fun states' heq hne => ?_⟩
        obtain ⟨c'', hsteps, hlast⟩ := hrest.2 states' heq hne
        exact ⟨c'', hsteps.head hstep, hlast⟩

/-- An accepting run survives every front part of its input. -/
theorem Runs.follow {stack : List (Entry A M.V)} {s : M.S} (fuel : Nat)
    (h : c.Runs auto eof (.accept stack s)) (ts : List T)
    (hts : ts <+: c.input.map fun x => x.1.1) : Bison.follow auto fuel c.states ts ≠ .rejected := by
  induction ts generalizing c with
  | nil => exact nofun
  | cons t ts ih =>
    have hkind : c.kind = some t := by
      obtain ⟨u, hu⟩ := hts
      unfold kind
      rw [← List.head?_map, ← hu]
      rfl
    obtain ⟨hnot, hshifted⟩ := h.verdict fuel
    rw [hkind] at hnot hshifted
    unfold Bison.follow
    cases hv : Bison.verdict auto fuel c.states (some t) with
    | shifted states' =>
      have hne : c.input ≠ [] := by
        intro hnil
        rw [hnil] at hts
        exact absurd (List.prefix_nil.mp hts) (List.cons_ne_nil _ _)
      obtain ⟨c', -, rfl, hinput, hrun⟩ := hshifted states' hv hne
      refine ih hrun ?_
      rw [hinput, List.map_tail]
      obtain ⟨u, hu⟩ := hts
      exact ⟨u, by rw [← hu]; rfl⟩
    | accepted => exact nofun
    | rejected => exact absurd hv hnot
    | unfinished => exact nofun

end Config

/-! Tokens that do not go together. -/

/-- States that do not let a token in: reductions in front of it lead to other such states. -/
structure Barred (auto : Automaton G) [DecidableEq T] (u : T) (C : Nat → Prop) : Prop where
  not_shift : ∀ {q p : Nat}, C q → (auto.row q).act (some u) ≠ .shift p
  goto : ∀ {q q' p : Nat} {n : N} {r : G.Rule n}, C q → (auto.row q).act (some u) = .reduce r →
    auto.goto q' n = some p → C p

namespace Config
variable {M : Semantics G A P} {auto : Automaton G} {eof : P} {c : Config M}
variable [DecidableEq T] [DecidableEq N]

/-- No accepted input has a token directly behind one that only leads to states barred to it. -/
theorem Runs.not_adjacent {t u : T} {C : Nat → Prop} (hbarred : Barred auto u C)
    (hshift : ∀ {q p : Nat}, (auto.row q).act (some t) = .shift p → C p)
    (haccept : ∀ {q : Nat} {t : T}, (auto.row q).act (some t) ≠ .accept)
    {stack : List (Entry A M.V)} {s : M.S} (h : c.Runs auto eof (.accept stack s))
    {pre post : List T} : c.input.map (fun x => x.1.1) ≠ pre ++ t :: u :: post := by
  intro hinput
  have hact {c : Config M} {t : T} {ts : List T} (h : c.input.map (fun x => x.1.1) = t :: ts) :
      c.action auto = (auto.row (topState c.stack)).act (some t) := by
    have hkind : c.kind = some t := by
      unfold kind
      rw [← List.head?_map, h]
      rfl
    unfold action
    rw [hkind]
  -- either both are still ahead, or only the second is and the state is barred to it
  obtain ⟨c', hc', hlast⟩ := h.last
    (I := fun c => (∃ pre, c.input.map (fun x => x.1.1) = pre ++ t :: u :: post) ∨
      c.input.map (fun x => x.1.1) = u :: post ∧ C (topState c.stack))
    (fun {c c'} hc hstep => by
      rcases step_cases hstep with ⟨q, t', a, p, rest, hshifts, hin, rfl⟩ |
        ⟨n, r, vs, rest, q, v, s', hreduce, -, hgoto, -, rfl⟩
      · rcases hc with ⟨pre, hpre⟩ | ⟨hbehind, hstate⟩
        · cases pre with
          | nil =>
            rw [hact hpre] at hshifts
            rw [hin] at hpre
            exact Or.inr ⟨(List.cons_eq_cons.mp hpre).2, hshift hshifts⟩
          | cons x pre =>
            rw [hin] at hpre
            exact Or.inl ⟨pre, (List.cons_eq_cons.mp hpre).2⟩
        · rw [hact hbehind] at hshifts
          exact absurd hshifts (hbarred.not_shift hstate)
      · rcases hc with ⟨pre, hpre⟩ | ⟨hbehind, hstate⟩
        · exact Or.inl ⟨pre, by rw [← hpre, ahead_input]⟩
        · rw [hact hbehind] at hreduce
          exact Or.inr ⟨by rw [← hbehind, ahead_input], hbarred.goto hstate hreduce hgoto⟩)
    (Or.inl ⟨pre, hinput⟩)
  obtain ⟨hacts, -, -⟩ := step_accept hlast
  rcases hc' with ⟨pre, hpre⟩ | ⟨hbehind, -⟩
  · cases pre with
    | nil => exact haccept ((hact hpre).symm.trans hacts)
    | cons x pre => exact haccept ((hact hpre).symm.trans hacts)
  · exact haccept ((hact hbehind).symm.trans hacts)

end Config

/-! Derivations without the values of their tokens. -/

mutual

def Tree.erase {n : N} : Tree G A P n → Tree G (fun _ => Unit) Unit n
  | .node r _ kids => .node r () kids.erase

def Forest.erase {ss : List (Symbol T N)} : Forest G A P ss → Forest G (fun _ => Unit) Unit ss
  | .nil => .nil
  | .token _ k => .token () k.erase
  | .tree d k => .tree d.erase k.erase

end

/-- What is left of a run that builds derivations when values and places are forgotten. -/
abbrev eraseImage (G : Grammar T N) (A : T → Type) (P : Type) : Image (trees G A P) where
  B := fun _ => Unit
  W := Tree G (fun _ => Unit) Unit
  Q := Unit
  Z := Unit
  token _ _ := ()
  value _ := Tree.erase
  place _ := ()
  state _ := ()

theorem Forest.erase_ofVals {ss : List (Symbol T N)} (vs : Vals A (Tree G A P) ss) :
    (Forest.ofVals vs).erase = Forest.ofVals ((eraseImage G A P).vals ss vs) := by
  induction ss with
  | nil => rfl
  | cons sym ss ih =>
    cases sym with
    | terminal t => exact congrArg (Forest.token ()) (ih vs.2)
    | nonterminal n => exact congrArg (Forest.tree vs.1.erase) (ih vs.2)

theorem eraseImage_respected : (eraseImage G A P).Respected := by
  intro n r vs vs' p p' s s' hvs _ _
  have herase : (Forest.ofVals vs).erase = (Forest.ofVals vs').erase := by
    rw [Forest.erase_ofVals, Forest.erase_ofVals, hvs]
  have hnode : (Tree.node r p (.ofVals vs)).erase = (Tree.node r p' (.ofVals vs')).erase := by
    rw [Tree.erase, Tree.erase, herase]
  exact congrArg (fun d => some (d, ())) hnode

/-- The values of nonterminals among those of a right-hand side. -/
def Vals.forget {V : N → Type} : {ss : List (Symbol T N)} → Vals A V ss → Vals (fun _ => Unit) V ss
  | [], _ => ()
  | .terminal _ :: _, (_, vs) => ((), forget vs)
  | .nonterminal _ :: _, (v, vs) => (v, forget vs)

section
variable {V : N → Type} {f : {n : N} → (r : G.Rule n) → P → Vals A V (G.rhs r) → V n}
  (hf : ∀ {n : N} (r : G.Rule n) (p p' : P) (vs vs' : Vals A V (G.rhs r)),
    vs.forget = vs'.forget → f r p vs = f r p' vs')
include hf

mutual

/-- An attribute that no token decides. -/
theorem Tree.fold_erase {n : N} : ∀ (d d' : Tree G A P n), d.erase = d'.erase →
    d.fold V f = d'.fold V f
  | .node r p kids, .node r' p' kids', h => by
    obtain ⟨rfl, -, hkids⟩ := Tree.node.inj h
    exact hf r p p' _ _ (kids.fold_erase kids' (eq_of_heq hkids))

theorem Forest.fold_erase {ss : List (Symbol T N)} : ∀ (k k' : Forest G A P ss),
    k.erase = k'.erase → (k.fold V f).forget = (k'.fold V f).forget
  | .nil, .nil, _ => rfl
  | .token a k, .token a' k', h => by
    have hk := k.fold_erase k' (Forest.token.inj h).2
    exact congrArg (Prod.mk ()) hk
  | .tree d k, .tree d' k', h => by
    obtain ⟨hd, hk⟩ := Forest.tree.inj h
    have hfold := d.fold_erase d' hd
    have hrest := k.fold_erase k' hk
    rw [Forest.fold, Forest.fold, Vals.forget, Vals.forget, hfold, hrest]

end

variable {ok : {n : N} → (r : G.Rule n) → Vals A V (G.rhs r) → Prop}
  (hok : ∀ {n : N} (r : G.Rule n) (vs vs' : Vals A V (G.rhs r)), vs.forget = vs'.forget →
    (ok r vs ↔ ok r vs'))
include hok

mutual

theorem Tree.each_erase {n : N} : ∀ (d d' : Tree G A P n), d.erase = d'.erase →
    (d.Each f ok ↔ d'.Each f ok)
  | .node r p kids, .node r' p' kids', h => by
    obtain ⟨rfl, -, hkids⟩ := Tree.node.inj h
    have heach := kids.each_erase kids' (eq_of_heq hkids)
    have hfold := kids.fold_erase hf kids' (eq_of_heq hkids)
    rw [Tree.Each, Tree.Each, heach, hok r _ _ hfold]

theorem Forest.each_erase {ss : List (Symbol T N)} : ∀ (k k' : Forest G A P ss),
    k.erase = k'.erase → (k.Each f ok ↔ k'.Each f ok)
  | .nil, .nil, _ => Iff.rfl
  | .token a k, .token a' k', h => by
    have hk := k.each_erase k' (Forest.token.inj h).2
    rw [Forest.Each, Forest.Each, hk]
  | .tree d k, .tree d' k', h => by
    obtain ⟨hd, hk⟩ := Forest.tree.inj h
    have heach := d.each_erase d' hd
    have hrest := k.each_erase k' hk
    rw [Forest.Each, Forest.Each, heach, hrest]

end

end

end Bison
