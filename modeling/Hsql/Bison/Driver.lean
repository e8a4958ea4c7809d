import Hsql.Bison.Grammar

/-! The driver of a generated parser: a stack of states with the values of their symbols, one
token of lookahead that is read only when the state's row has an entry, default reductions, and
the semantic action of a rule run when it is reduced. The control never looks at a value, so a run
with actions is the derivation of the tokens followed by a run of the actions on it. -/

namespace Bison
variable {T N : Type} {G : Grammar T N} {A : T → Type} {P : Type}

inductive Act (G : Grammar T N) where
  | shift (q : Nat)
  | reduce {n : N} (r : G.Rule n)
  | accept
  | error

/-- The actions of a state. The end of the input is the token `none`. -/
structure Row (G : Grammar T N) where
  acts : List (Option T × Act G)
  default : Act G

/-- A rule is only reduced where its nonterminal leads on from the state below its right-hand
side. -/
structure Automaton (G : Grammar T N) where
  row : Nat → Row G
  goto : Nat → N → Option Nat

def Row.act [DecidableEq T] (row : Row G) (t : Option T) : Act G :=
  (row.acts.lookup t).getD row.default

inductive Entry (A : T → Type) (V : N → Type) where
  | token (q : Nat) (t : T) (a : A t)
  | value (q : Nat) (n : N) (v : V n)

def Entry.state {V : N → Type} : Entry A V → Nat
  | token q _ _ => q
  | value q _ _ => q

/-- State on top of the stack; the parser starts in state 0. -/
def topState {V : N → Type} : List (Entry A V) → Nat
  | [] => 0
  | e :: _ => e.state

def popToken [DecidableEq T] {V : N → Type} (t : T) :
    List (Entry A V) → Option (A t × List (Entry A V))
  | .token _ t' a :: rest => if h : t' = t then some (h ▸ a, rest) else none
  | _ => none

def popValue [DecidableEq N] {V : N → Type} (n : N) :
    List (Entry A V) → Option (V n × List (Entry A V))
  | .value _ n' v :: rest => if h : n' = n then some (h ▸ v, rest) else none
  | _ => none

/-- The values of a rule's right-hand side, taken off the stack from the right. -/
def pop [DecidableEq T] [DecidableEq N] {V : N → Type} :
    (ss : List (Symbol T N)) → List (Entry A V) → Option (Vals A V ss × List (Entry A V))
  | [], stack => some ((), stack)
  | .terminal t :: ss, stack =>
    (pop ss stack).bind fun x => (popToken t x.2).map fun y => ((y.1, x.1), y.2)
  | .nonterminal n :: ss, stack =>
    (pop ss stack).bind fun x => (popValue n x.2).map fun y => ((y.1, x.1), y.2)

/-- `look` says that the next token is already read; `pos` is what the scanner has read. -/
structure Config (M : Semantics G A P) where
  stack : List (Entry A M.V)
  input : List (Sigma A × P)
  look : Bool
  pos : P
  st : M.S

inductive Outcome (M : Semantics G A P) where
  | accept (stack : List (Entry A M.V)) (st : M.S)
  | reject (stack : List (Entry A M.V)) (t : Option T) (pos : P) (st : M.S)
  | crash

namespace Config
variable {M : Semantics G A P}

def kind (c : Config M) : Option T := c.input.head?.map fun x => x.1.1

def read (c : Config M) (eof : P) : Config M :=
  if c.look then c else { c with look := true, pos := (c.input.head?.map Prod.snd).getD eof }

variable [DecidableEq T] [DecidableEq N]

def reduce (c : Config M) (goto : Nat → N → Option Nat) {n : N} (r : G.Rule n) :
    Config M ⊕ Outcome M :=
  match pop (G.rhs r) c.stack with
  | none => .inr .crash
  | some (vs, rest) =>
    match goto (topState rest) n with
    | none => .inr .crash
    | some q =>
      match M.act r vs c.pos c.st with
      | none => .inr .crash
      | some (v, s) => .inl { c with stack := .value q n v :: rest, st := s }

def apply (c : Config M) (goto : Nat → N → Option Nat) : Act G → Config M ⊕ Outcome M
  | .shift q =>
    match c.input with
    | [] => .inr .crash
    | (⟨t, a⟩, _) :: rest =>
      .inl { c with stack := .token q t a :: c.stack, input := rest, look := false }
  | .reduce r => c.reduce goto r
  | .accept => .inr (.accept c.stack c.st)
  | .error => .inr (.reject c.stack c.kind c.pos c.st)

def step (auto : Automaton G) (eof : P) (c : Config M) : Config M ⊕ Outcome M :=
  let row := auto.row (topState c.stack)
  let c := if row.acts.isEmpty then c else c.read eof
  c.apply auto.goto (row.act c.kind)

/-- Runs the driver for at most so many steps. -/
def run (auto : Automaton G) (eof : P) : Nat → Config M → Option (Outcome M)
  | 0, _ => none
  | n + 1, c =>
    match c.step auto eof with
    | .inl c' => run auto eof n c'
    | .inr o => some o

/-- The driver, started in a configuration, stops with an outcome. -/
inductive Runs (auto : Automaton G) (eof : P) : Config M → Outcome M → Prop where
  | stop {c o} (h : c.step auto eof = .inr o) : Runs auto eof c o
  | next {c c' o} (h : c.step auto eof = .inl c') (hc : Runs auto eof c' o) : Runs auto eof c o

theorem Runs.of_run {auto : Automaton G} {eof : P} {n : Nat} {c : Config M} {o : Outcome M}
    (h : c.run auto eof n = some o) : c.Runs auto eof o := by
  induction n generalizing c with
  | zero => cases h
  | succ n ih =>
    rw [run] at h
    cases hstep : c.step auto eof with
    | inl c' => exact .next hstep (ih (by rwa [hstep] at h))
    | inr o' =>
      rw [hstep] at h
      exact .stop (Option.some.inj h ▸ hstep)

theorem Runs.unique {auto : Automaton G} {eof : P} {c : Config M} {o o' : Outcome M}
    (h : c.Runs auto eof o) (h' : c.Runs auto eof o') : o = o' := by
  induction h with
  | stop h =>
    cases h' with
    | stop h₁ => exact Sum.inr.inj (h.symm.trans h₁)
    | next h₁ => cases h.symm.trans h₁
  | next h _ ih =>
    cases h' with
    | stop h₁ => cases h.symm.trans h₁
    | next h₁ h₂ => exact ih (Sum.inl.inj (h.symm.trans h₁) ▸ h₂)

end Config

/-! The same automaton building derivations instead of running actions. -/

def Forest.ofVals : {ss : List (Symbol T N)} → Vals A (Tree G A P) ss → Forest G A P ss
  | [], _ => .nil
  | .terminal _ :: _, (a, vs) => .token a (ofVals vs)
  | .nonterminal _ :: _, (d, vs) => .tree d (ofVals vs)

abbrev trees (G : Grammar T N) (A : T → Type) (P : Type) : Semantics G A P where
  V := Tree G A P
  S := Unit
  act r vs p _ := some (.node r p (.ofVals vs), ())

/-- The values of a stack of derivations, its bottom evaluated first. -/
def evalStack (M : Semantics G A P) :
    List (Entry A (Tree G A P)) → M.S → Option (List (Entry A M.V) × M.S)
  | [], s => some ([], s)
  | .token q t a :: es, s => (evalStack M es s).map fun x => (.token q t a :: x.1, x.2)
  | .value q n d :: es, s => (evalStack M es s).bind fun x =>
      (d.eval M x.2).map fun y => (.value q n y.1 :: x.1, y.2)

theorem evalStack_state {M : Semantics G A P} {es : List (Entry A (Tree G A P))} {s : M.S}
    {x : List (Entry A M.V) × M.S} (h : evalStack M es s = some x) : topState x.1 = topState es := by
  cases es with
  | nil =>
    cases h
    rfl
  | cons e es =>
    cases e with
    | token q t a =>
      obtain ⟨y, -, rfl⟩ := Option.map_eq_some_iff.mp h
      rfl
    | value q n d =>
      obtain ⟨y, -, h⟩ := Option.bind_eq_some_iff.mp h
      obtain ⟨z, -, rfl⟩ := Option.map_eq_some_iff.mp h
      rfl

theorem popToken_evalStack [DecidableEq T] (M : Semantics G A P) (t : T) (es : List (Entry A (Tree G A P)))
    (s : M.S) :
    (evalStack M es s).bind (fun x => (popToken t x.1).map fun y => (y, x.2)) =
      (popToken t es).bind fun y => (evalStack M y.2 s).map fun x => ((y.1, x.1), x.2) := by
  cases es with
  | nil => rfl
  | cons e es =>
    cases e with
    | token q t' a =>
      by_cases h : t' = t
      · subst h
        cases hes : evalStack M es s <;> simp [popToken, evalStack, hes]
      · cases hes : evalStack M es s <;> simp [popToken, evalStack, hes, h]
    | value q n d =>
      simp only [popToken, evalStack, Option.bind_none]
      cases hes : evalStack M es s with
      | none => rfl
      | some x => cases hd : d.eval M x.2 <;> simp [hd]

theorem popValue_evalStack [DecidableEq N] (M : Semantics G A P) (n : N) (es : List (Entry A (Tree G A P)))
    (s : M.S) :
    (evalStack M es s).bind (fun x => (popValue n x.1).map fun y => (y, x.2)) =
      (popValue n es).bind fun y => (evalStack M y.2 s).bind fun x =>
        (y.1.eval M x.2).map fun z => ((z.1, x.1), z.2) := by
  cases es with
  | nil => rfl
  | cons e es =>
    cases e with
    | token q t a => cases hes : evalStack M es s <;> simp [popValue, evalStack, hes]
    | value q n' d =>
      by_cases h : n' = n
      · subst h
        cases hes : evalStack M es s with
        | none => simp [popValue, evalStack, hes]
        | some x => cases hd : d.eval M x.2 <;> simp [popValue, evalStack, hes, hd]
      · cases hes : evalStack M es s with
        | none => simp [popValue, evalStack, hes, h]
        | some x => cases hd : d.eval M x.2 <;> simp [popValue, evalStack, hes, h, hd]

variable [DecidableEq T] [DecidableEq N]

/-- Taking derivations off the stack and evaluating them, or the other way round. -/
theorem pop_evalStack (M : Semantics G A P) (ss : List (Symbol T N))
    (es : List (Entry A (Tree G A P))) (s : M.S) :
    (evalStack M es s).bind (fun x => (pop ss x.1).map fun y => (y, x.2)) =
      (pop ss es).bind fun y => (evalStack M y.2 s).bind fun x =>
        ((Forest.ofVals y.1).eval M x.2).map fun z => ((z.1, x.1), z.2) := by
  induction ss with
  | nil => cases hes : evalStack M es s <;> simp [pop, Forest.ofVals, Forest.eval, hes]
  | cons sym ss ih =>
    cases sym with
    | terminal t =>
      have hleft : (evalStack M es s).bind (fun x => (pop (.terminal t :: ss) x.1).map fun y =>
          (y, x.2)) = ((evalStack M es s).bind fun x => (pop ss x.1).map fun y => (y, x.2)).bind
            fun w => (popToken t w.1.2).map fun y => (((y.1, w.1.1), y.2), w.2) := by
        cases evalStack M es s with
        | none => rfl
        | some x => cases hx : pop ss x.1 <;> simp [pop, hx] <;> rfl
      rw [hleft, ih]
      cases hss : pop ss es with
      | none =>
        simp only [pop, hss, Option.bind_none]
        rfl
      | some y =>
        have hpop := popToken_evalStack M t y.2 s
        have hright : (pop (.terminal t :: ss) es).bind (fun z => (evalStack M z.2 s).bind fun x =>
            ((Forest.ofVals z.1).eval M x.2).map fun u => ((u.1, x.1), u.2)) =
            ((popToken t y.2).bind fun z => (evalStack M z.2 s).map fun x =>
              ((z.1, x.1), x.2)).bind fun w => ((Forest.ofVals y.1).eval M w.2).map fun u =>
                (((w.1.1, u.1), w.1.2), u.2) := by
          cases hy : popToken t y.2 with
          | none =>
            simp only [pop, hss, hy, Option.bind_some, Option.map_none, Option.bind_none]
            rfl
          | some z => cases hz : evalStack M z.2 s <;>
              simp [pop, hss, hy, hz, Forest.ofVals, Forest.eval] <;> rfl
        rw [hright, ← hpop, Option.bind_some]
        cases evalStack M y.2 s with
        | none => rfl
        | some x => cases hx : popToken t x.1 <;>
            cases hf : (Forest.ofVals y.1).eval M x.2 <;> simp [hx, hf] <;> rfl
    | nonterminal n =>
      have hleft : (evalStack M es s).bind (fun x => (pop (.nonterminal n :: ss) x.1).map fun y =>
          (y, x.2)) = ((evalStack M es s).bind fun x => (pop ss x.1).map fun y => (y, x.2)).bind
            fun w => (popValue n w.1.2).map fun y => (((y.1, w.1.1), y.2), w.2) := by
        cases evalStack M es s with
        | none => rfl
        | some x => cases hx : pop ss x.1 <;> simp [pop, hx] <;> rfl
      rw [hleft, ih]
      cases hss : pop ss es with
      | none =>
        simp only [pop, hss, Option.bind_none]
        rfl
      | some y =>
        have hpop := popValue_evalStack M n y.2 s
        have hright : (pop (.nonterminal n :: ss) es).bind (fun z =>
            (evalStack M z.2 s).bind fun x =>
              ((Forest.ofVals z.1).eval M x.2).map fun u => ((u.1, x.1), u.2)) =
            ((popValue n y.2).bind fun z => (evalStack M z.2 s).bind fun x =>
              (z.1.eval M x.2).map fun u => ((u.1, x.1), u.2)).bind fun w =>
                ((Forest.ofVals y.1).eval M w.2).map fun u => (((w.1.1, u.1), w.1.2), u.2) := by
          cases hy : popValue n y.2 with
          | none =>
            simp only [pop, hss, hy, Option.bind_some, Option.map_none, Option.bind_none]
            rfl
          | some z =>
            cases hz : evalStack M z.2 s with
            | none =>
              simp only [pop, hss, hy, hz, Option.bind_some, Option.map_some, Option.bind_none]
              rfl
            | some x => cases hd : z.1.eval M x.2 <;>
                simp [pop, hss, hy, hz, hd, Forest.ofVals, Forest.eval] <;> rfl
        rw [hright, ← hpop, Option.bind_some]
        cases evalStack M y.2 s with
        | none => rfl
        | some x => cases hx : popValue n x.1 <;>
            cases hf : (Forest.ofVals y.1).eval M x.2 <;> simp [hx, hf] <;> rfl

/-! The run with actions, from the run that builds derivations. -/

namespace Config

def eval (M : Semantics G A P) (s : M.S) (c : Config (trees G A P)) : Option (Config M) :=
  (evalStack M c.stack s).map fun x => ⟨x.1, c.input, c.look, c.pos, x.2⟩

end Config

/-- What an outcome becomes when the actions are run on the derivations it has built. -/
def Outcome.eval (M : Semantics G A P) (s : M.S) : Outcome (trees G A P) → Outcome M
  | accept stack _ => (evalStack M stack s).elim .crash fun x => .accept x.1 x.2
  | reject stack t p _ => (evalStack M stack s).elim .crash fun x => .reject x.1 t p x.2
  | crash => .crash

namespace Config
variable {M : Semantics G A P} {auto : Automaton G} {eof : P}

theorem reduce_eval (goto : Nat → N → Option Nat) (c : Config (trees G A P)) (s : M.S) {n : N}
    (r : G.Rule n) {c' : Config M} (h : c.eval M s = some c') :
    c'.reduce goto r = match c.reduce goto r with
      | .inl d => (d.eval M s).elim (.inr .crash) .inl
      | .inr o => .inr (o.eval M s) := by
  obtain ⟨x, hx, rfl⟩ := Option.map_eq_some_iff.mp h
  have hpop := pop_evalStack M (G.rhs r) c.stack s
  rw [hx, Option.bind_some] at hpop
  unfold reduce
  dsimp only
  cases hstack : pop (G.rhs r) c.stack with
  | none =>
    rw [hstack, Option.bind_none, Option.map_eq_none_iff] at hpop
    rw [hpop]
    rfl
  | some y =>
    rw [hstack, Option.bind_some] at hpop
    cases hrest : evalStack M y.2 s with
    | none =>
      rw [hrest, Option.bind_none, Option.map_eq_none_iff] at hpop
      rw [hpop]
      cases hgoto : goto (topState y.2) n <;> simp [trees, Outcome.eval, Config.eval, evalStack,
        hgoto, hrest]
    | some z =>
      rw [hrest, Option.bind_some] at hpop
      cases hf : (Forest.ofVals y.1).eval M z.2 with
      | none =>
        rw [hf, Option.map_none, Option.map_eq_none_iff] at hpop
        rw [hpop]
        cases hgoto : goto (topState y.2) n <;> simp [trees, Outcome.eval, Config.eval, evalStack,
          Tree.eval, hgoto, hrest, hf]
      | some u =>
        rw [hf, Option.map_some, Option.map_eq_some_iff] at hpop
        obtain ⟨w, hw, heq⟩ := hpop
        obtain ⟨rfl, hst⟩ := Prod.mk.inj heq
        rw [hw, hst]
        dsimp only
        rw [evalStack_state hrest]
        cases hgoto : goto (topState y.2) n with
        | none => rfl
        | some q => cases hact : M.act r u.1 c.pos u.2 <;> simp [trees, Config.eval, evalStack,
            Tree.eval, hrest, hf, hact]

theorem apply_eval (goto : Nat → N → Option Nat) (c : Config (trees G A P)) (s : M.S) (a : Act G)
    {c' : Config M} (h : c.eval M s = some c') :
    c'.apply goto a = match c.apply goto a with
      | .inl d => (d.eval M s).elim (.inr .crash) .inl
      | .inr o => .inr (o.eval M s) := by
  cases a with
  | reduce r => exact reduce_eval goto c s r h
  | shift q =>
    obtain ⟨x, hx, rfl⟩ := Option.map_eq_some_iff.mp h
    unfold apply
    dsimp only
    cases c.input with
    | nil => rfl
    | cons y rest => simp [Config.eval, evalStack, hx]
  | accept =>
    obtain ⟨x, hx, rfl⟩ := Option.map_eq_some_iff.mp h
    simp [apply, Outcome.eval, hx]
  | error =>
    obtain ⟨x, hx, rfl⟩ := Option.map_eq_some_iff.mp h
    simp [apply, Outcome.eval, hx, kind]

omit [DecidableEq T] [DecidableEq N] in
theorem read_eval (eof : P) (c : Config (trees G A P)) (s : M.S) {c' : Config M}
    (h : c.eval M s = some c') : (c.read eof).eval M s = some (c'.read eof) := by
  obtain ⟨x, hx, rfl⟩ := Option.map_eq_some_iff.mp h
  unfold read
  cases hl : c.look <;> simp [Config.eval, hx, hl]

theorem step_eval (auto : Automaton G) (eof : P) (c : Config (trees G A P)) (s : M.S) {c' : Config M}
    (h : c.eval M s = some c') :
    c'.step auto eof = match c.step auto eof with
      | .inl d => (d.eval M s).elim (.inr .crash) .inl
      | .inr o => .inr (o.eval M s) := by
  have hstate : topState c'.stack = topState c.stack := by
    obtain ⟨x, hx, rfl⟩ := Option.map_eq_some_iff.mp h
    exact evalStack_state hx
  have hkind : ∀ {d : Config (trees G A P)} {d' : Config M}, d.eval M s = some d' →
      d'.kind = d.kind := by
    intro d d' hd
    obtain ⟨x, -, rfl⟩ := Option.map_eq_some_iff.mp hd
    rfl
  unfold step
  rw [hstate]
  by_cases hrow : (auto.row (topState c.stack)).acts.isEmpty = true
  · simp only [hrow, if_true]
    rw [hkind h]
    exact apply_eval _ c s _ h
  · simp only [hrow, Bool.false_eq_true, if_false]
    have hread := read_eval eof c s h
    rw [hkind hread]
    exact apply_eval _ _ s _ hread

theorem apply_eval_none (goto : Nat → N → Option Nat) (c : Config (trees G A P)) (s : M.S) (a : Act G)
    (h : evalStack M c.stack s = none) :
    (∀ d, c.apply goto a = .inl d → evalStack M d.stack s = none) ∧
      ∀ o, c.apply goto a = .inr o → o.eval M s = .crash := by
  cases a with
  | @reduce n r =>
    have hpop := pop_evalStack M (G.rhs r) c.stack s
    rw [h, Option.bind_none] at hpop
    cases hstack : pop (G.rhs r) c.stack with
    | none =>
      have hred : c.apply goto (.reduce r) = .inr .crash := by simp only [apply, reduce, hstack]
      rw [hred]
      refine ⟨fun d hd => ?_, fun o ho => ?_⟩
      · cases hd
      · cases ho
        rfl
    | some y =>
      cases hgoto : goto (topState y.2) n with
      | none =>
        have hred : c.apply goto (.reduce r) = .inr .crash := by
          simp only [apply, reduce, hstack, hgoto]
        rw [hred]
        refine ⟨fun d hd => ?_, fun o ho => ?_⟩
        · cases hd
        · cases ho
          rfl
      | some q =>
        have hred : c.apply goto (.reduce r) = .inl { c with
            stack := .value q n (.node r c.pos (.ofVals y.1)) :: y.2
            st := () } := by simp only [apply, reduce, hstack, hgoto]
        rw [hred]
        rw [hstack, Option.bind_some, eq_comm, Option.bind_eq_none_iff] at hpop
        refine ⟨fun d hd => ?_, fun o ho => ?_⟩
        · obtain rfl := Sum.inl.inj hd
          simp only [evalStack, Tree.eval]
          cases hrest : evalStack M y.2 s with
          | none => rfl
          | some z =>
            have hf := hpop z hrest
            rw [Option.map_eq_none_iff] at hf
            simp [hf]
        · cases ho
  | shift q =>
    unfold apply
    cases c.input with
    | nil =>
      refine ⟨fun d hd => ?_, fun o ho => ?_⟩
      · cases hd
      · cases ho
        rfl
    | cons y rest =>
      refine ⟨fun d hd => ?_, fun o ho => ?_⟩
      · obtain rfl := Sum.inl.inj hd
        simp [evalStack, h]
      · cases ho
  | accept =>
    refine ⟨fun d hd => ?_, fun o ho => ?_⟩
    · cases hd
    · obtain rfl := Sum.inr.inj ho
      simp [Outcome.eval, h]
  | error =>
    refine ⟨fun d hd => ?_, fun o ho => ?_⟩
    · cases hd
    · obtain rfl := Sum.inr.inj ho
      simp [Outcome.eval, h]

omit [DecidableEq T] [DecidableEq N] in
theorem read_stack (c : Config M) : (c.read eof).stack = c.stack := by
  unfold read
  split_ifs <;> rfl

theorem step_eval_none (c : Config (trees G A P)) (s : M.S)
    (h : evalStack M c.stack s = none) :
    (∀ d, c.step auto eof = .inl d → evalStack M d.stack s = none) ∧
      ∀ o, c.step auto eof = .inr o → o.eval M s = .crash := by
  unfold step
  by_cases hrow : (auto.row (topState c.stack)).acts.isEmpty = true
  · simp only [hrow, if_true]
    exact apply_eval_none _ c s _ h
  · simp only [hrow, Bool.false_eq_true, if_false]
    refine apply_eval_none _ _ s _ ?_
    rwa [read_stack]

theorem Runs.crash_of_none {c : Config (trees G A P)} {o : Outcome (trees G A P)} {s : M.S}
    (h : c.Runs auto eof o) (hc : evalStack M c.stack s = none) : o.eval M s = .crash := by
  induction h with
  | stop h => exact (step_eval_none _ s hc).2 _ h
  | next h _ ih => exact ih ((step_eval_none _ s hc).1 _ h)

/-- A run that builds derivations becomes a run with actions. -/
theorem Runs.eval {c : Config (trees G A P)} {o : Outcome (trees G A P)} {s : M.S}
    {c' : Config M} (h : c.Runs auto eof o) (hc : c.eval M s = some c') :
    c'.Runs auto eof (o.eval M s) := by
  induction h generalizing c' with
  | stop h =>
    refine .stop ?_
    rw [step_eval auto eof _ s hc, h]
  | @next c d o h hd ih =>
    have hstep := step_eval auto eof _ s hc
    rw [h] at hstep
    cases heval : d.eval M s with
    | none =>
      simp only [heval, Option.elim_none] at hstep
      rw [hd.crash_of_none (Option.map_eq_none_iff.mp heval)]
      exact .stop hstep
    | some d' =>
      simp only [heval, Option.elim_some] at hstep
      exact .next hstep (ih heval)

/-- A run with actions that does not go wrong is one that builds derivations. -/
theorem Runs.exists_trees {c : Config (trees G A P)} {s : M.S} {c' : Config M} {o' : Outcome M}
    (h : c'.Runs auto eof o') (hc : c.eval M s = some c') (ho : o' ≠ .crash) :
    ∃ o, c.Runs auto eof o ∧ o.eval M s = o' := by
  induction h generalizing c with
  | stop h =>
    have hstep := step_eval auto eof _ s hc
    rw [h] at hstep
    cases hd : c.step auto eof with
    | inl d =>
      rw [hd] at hstep
      cases heval : d.eval M s with
      | none =>
        simp only [heval, Option.elim_none] at hstep
        exact absurd (Sum.inr.inj hstep) ho
      | some d' =>
        simp only [heval, Option.elim_some] at hstep
        cases hstep
    | inr o =>
      rw [hd] at hstep
      exact ⟨o, .stop hd, (Sum.inr.inj hstep).symm⟩
  | next h _ ih =>
    have hstep := step_eval auto eof _ s hc
    rw [h] at hstep
    cases hd : c.step auto eof with
    | inl d =>
      rw [hd] at hstep
      cases heval : d.eval M s with
      | none =>
        simp only [heval, Option.elim_none] at hstep
        cases hstep
      | some d' =>
        simp only [heval, Option.elim_some] at hstep
        obtain ⟨o, hrun, heq⟩ := ih (Sum.inl.inj hstep ▸ heval) ho
        exact ⟨o, .next hd hrun, heq⟩
    | inr o =>
      rw [hd] at hstep
      cases hstep

end Config

end Bison
