import Hsql.Bison.Runs

/-! Two runs that only differ in what the actions do not look at: the parts of values, states and
places that matter to an action are an image of these, and equal images lead to equal images. -/

namespace Bison
variable {T N : Type} {G : Grammar T N} {A : T → Type} {P : Type}

/-- What is seen of tokens, values, places in the text, and states. -/
structure Image (M : Semantics G A P) where
  B : T → Type
  W : N → Type
  Q : Type
  Z : Type
  token : (t : T) → A t → B t
  value : (n : N) → M.V n → W n
  place : P → Q
  state : M.S → Z

namespace Image
variable {M : Semantics G A P} (I : Image M)

def vals : (ss : List (Symbol T N)) → Vals A M.V ss → Vals I.B I.W ss
  | [], _ => ()
  | .terminal t :: ss, (a, vs) => (I.token t a, vals ss vs)
  | .nonterminal n :: ss, (v, vs) => (I.value n v, vals ss vs)

def result {n : N} (x : M.V n × M.S) : I.W n × I.Z := (I.value n x.1, I.state x.2)

def entry : Entry A M.V → Entry I.B I.W
  | .token q t a => .token q t (I.token t a)
  | .value q n v => .value q n (I.value n v)

def input (x : Sigma A × P) : Sigma I.B × I.Q := (⟨x.1.1, I.token _ x.1.2⟩, I.place x.2)

/-- What an action's result is seen as depends on what is seen of its arguments. -/
def Respected : Prop :=
  ∀ {n : N} (r : G.Rule n) (vs vs' : Vals A M.V (G.rhs r)) (p p' : P) (s s' : M.S),
    I.vals _ vs = I.vals _ vs' → I.place p = I.place p' → I.state s = I.state s' →
      (M.act r vs p s).map I.result = (M.act r vs' p' s').map I.result

theorem topState_map (st : List (Entry A M.V)) : topState (st.map I.entry) = topState st := by
  cases st with
  | nil => rfl
  | cons e st => cases e <;> rfl

/-- Everything is seen but a part of the state. -/
def ofState {Z : Type} (f : M.S → Z) : Image M where
  B := A
  W := M.V
  Q := P
  Z := Z
  token _ a := a
  value _ v := v
  place p := p
  state := f

section
variable {Z : Type} (f : M.S → Z)

theorem vals_ofState (ss : List (Symbol T N)) (vs : Vals A M.V ss) :
    (ofState f).vals ss vs = vs := by
  induction ss with
  | nil => rfl
  | cons sym ss ih => cases sym <;> exact congrArg (Prod.mk vs.1) (ih vs.2)

theorem map_entry_ofState (st : List (Entry A M.V)) : st.map (ofState f).entry = st := by
  have hentry : (ofState f).entry = (id : Entry A M.V → Entry A M.V) := by
    funext e
    cases e <;> rfl
  exact (congrArg (List.map · st) hentry).trans (List.map_id st)

theorem ofState_respected (h : ∀ {n : N} (r : G.Rule n) (vs : Vals A M.V (G.rhs r)) (p : P)
    (s s' : M.S), f s = f s' → (M.act r vs p s).map (fun x => (x.1, f x.2)) =
      (M.act r vs p s').map fun x => (x.1, f x.2)) : (ofState f).Respected := by
  intro n r vs vs' p p' s s' hvs hp hs
  rw [vals_ofState, vals_ofState] at hvs
  obtain rfl : vs = vs' := hvs
  obtain rfl : p = p' := hp
  exact h r vs p s s' hs

end

variable [DecidableEq T] [DecidableEq N]

theorem pop_map (ss : List (Symbol T N)) (st : List (Entry A M.V)) :
    pop ss (st.map I.entry) = (pop ss st).map fun x => (I.vals ss x.1, x.2.map I.entry) := by
  have htoken (t : T) (st : List (Entry A M.V)) : popToken t (st.map I.entry) =
      (popToken t st).map fun x => (I.token t x.1, x.2.map I.entry) := by
    cases st with
    | nil => rfl
    | cons e st =>
      cases e with
      | token q t' a =>
        by_cases h : t' = t
        · subst h
          simp [popToken, entry]
        · simp [popToken, entry, h]
      | value q n v => rfl
  have hvalue (n : N) (st : List (Entry A M.V)) : popValue n (st.map I.entry) =
      (popValue n st).map fun x => (I.value n x.1, x.2.map I.entry) := by
    cases st with
    | nil => rfl
    | cons e st =>
      cases e with
      | token q t a => rfl
      | value q n' v =>
        by_cases h : n' = n
        · subst h
          simp [popValue, entry]
        · simp [popValue, entry, h]
  induction ss with
  | nil => rfl
  | cons sym ss ih =>
    cases sym with
    | terminal t =>
      simp only [pop, ih]
      cases pop ss st with
      | none => rfl
      | some x =>
        simp only [Option.map_some, Option.bind_some, htoken]
        cases popToken t x.2 <;> rfl
    | nonterminal n =>
      simp only [pop, ih]
      cases pop ss st with
      | none => rfl
      | some x =>
        simp only [Option.map_some, Option.bind_some, hvalue]
        cases popValue n x.2 <;> rfl

end Image

namespace Config
variable {M : Semantics G A P}

/-- Configurations that look the same. -/
structure Alike (I : Image M) (c c' : Config M) : Prop where
  stack : c.stack.map I.entry = c'.stack.map I.entry
  input : c.input.map I.input = c'.input.map I.input
  look : c.look = c'.look
  pos : I.place c.pos = I.place c'.pos
  st : I.state c.st = I.state c'.st

end Config

/-- Outcomes that look the same. -/
def Outcome.Alike {M : Semantics G A P} (I : Image M) : Outcome M → Outcome M → Prop
  | accept stack s, accept stack' s' =>
    stack.map I.entry = stack'.map I.entry ∧ I.state s = I.state s'
  | reject stack t p s, reject stack' t' p' s' =>
    stack.map I.entry = stack'.map I.entry ∧ t = t' ∧ I.place p = I.place p' ∧
      I.state s = I.state s'
  | crash, crash => True
  | _, _ => False

namespace Config
variable {M : Semantics G A P} {I : Image M} {auto : Automaton G} {eof eof' : P} {c c' : Config M}

theorem Alike.topState (h : Alike I c c') : topState c.stack = topState c'.stack := by
  rw [← I.topState_map, h.stack, I.topState_map]

theorem Alike.kind (h : Alike I c c') : c.kind = c'.kind := by
  have hhead := congrArg (fun l => l.head?.map fun x => x.1.1) h.input
  simp only [List.head?_map, Option.map_map] at hhead
  exact hhead

theorem Alike.ahead (h : Alike I c c') (heof : I.place eof = I.place eof') :
    Alike I (c.ahead auto eof) (c'.ahead auto eof') := by
  unfold Config.ahead
  rw [h.topState]
  split_ifs
  · exact h
  · unfold read
    rw [h.look]
    split_ifs
    · exact h
    · refine ⟨h.stack, h.input, rfl, ?_, h.st⟩
      have hhead := congrArg (fun l => l.head?.map Prod.snd) h.input
      simp only [List.head?_map, Option.map_map] at hhead
      show I.place ((c.input.head?.map Prod.snd).getD eof) =
        I.place ((c'.input.head?.map Prod.snd).getD eof')
      cases hc : c.input.head? <;> cases hc' : c'.input.head? <;> rw [hc, hc'] at hhead
      · exact heof
      · cases hhead
      · cases hhead
      · exact Option.some.inj hhead

variable [DecidableEq T] [DecidableEq N]

/-- Either both go on or both stop, and alike. -/
theorem Alike.step (hI : I.Respected) (h : Alike I c c') (heof : I.place eof = I.place eof') :
    (∃ d d', c.step auto eof = .inl d ∧ c'.step auto eof' = .inl d' ∧ Alike I d d') ∨
      ∃ o o', c.step auto eof = .inr o ∧ c'.step auto eof' = .inr o' ∧ o.Alike I o' := by
  have hahead : Alike I (c.ahead auto eof) (c'.ahead auto eof') := h.ahead heof
  have haction : c.action auto = c'.action auto := by
    unfold action
    rw [h.topState, h.kind]
  rw [step_eq, step_eq, haction]
  generalize c.ahead auto eof = a, c'.ahead auto eof' = a', c'.action auto = act at hahead
  cases act with
  | shift q =>
    have hinput := hahead.input
    cases hin : a.input with
    | nil =>
      rw [hin] at hinput
      have hin' := List.map_eq_nil_iff.mp hinput.symm
      exact .inr ⟨.crash, .crash, by rw [apply, hin], by rw [apply, hin'], trivial⟩
    | cons x rest =>
      obtain ⟨⟨t, b⟩, p⟩ := x
      rw [hin] at hinput
      obtain ⟨⟨⟨t', b'⟩, p'⟩, rest', hin', hx, hrest⟩ := List.map_eq_cons_iff.mp hinput.symm
      simp only [Image.input, Prod.mk.injEq, Sigma.mk.injEq] at hx
      obtain ⟨⟨rfl, htoken⟩, -⟩ := hx
      refine .inl ⟨{ a with stack := .token q t' b :: a.stack, input := rest, look := false },
        { a' with stack := .token q t' b' :: a'.stack, input := rest', look := false },
        by rw [apply, hin], by rw [apply, hin'], ?_, hrest.symm, rfl, hahead.pos, hahead.st⟩
      simp only [List.map_cons, Image.entry, hahead.stack, eq_of_heq htoken]
  | @reduce n r =>
    have hpop := I.pop_map (G.rhs r) a.stack
    rw [hahead.stack, I.pop_map] at hpop
    rw [apply, apply, reduce, reduce]
    cases hst : pop (G.rhs r) a.stack with
    | none =>
      rw [hst, Option.map_none, Option.map_eq_none_iff] at hpop
      rw [hpop]
      exact .inr ⟨_, _, rfl, rfl, trivial⟩
    | some x =>
      rw [hst, Option.map_some, Option.map_eq_some_iff] at hpop
      obtain ⟨x', hst', hx⟩ := hpop
      obtain ⟨hvals, hrest⟩ := Prod.mk.inj hx
      have htop : Bison.topState x.2 = Bison.topState x'.2 := by
        rw [← I.topState_map, ← hrest, I.topState_map]
      rw [hst']
      dsimp only
      rw [htop]
      cases auto.goto (Bison.topState x'.2) n with
      | none => exact .inr ⟨_, _, rfl, rfl, trivial⟩
      | some q =>
        have hact := hI r x.1 x'.1 a.pos a'.pos a.st a'.st hvals.symm hahead.pos hahead.st
        cases hv : M.act r x.1 a.pos a.st with
        | none =>
          rw [hv, Option.map_none] at hact
          rw [Option.map_eq_none_iff.mp hact.symm]
          exact .inr ⟨_, _, rfl, rfl, trivial⟩
        | some y =>
          rw [hv, Option.map_some] at hact
          obtain ⟨y', hv', hy⟩ := Option.map_eq_some_iff.mp hact.symm
          obtain ⟨hvalue, hstate⟩ := Prod.mk.inj hy
          rw [hv']
          refine .inl ⟨_, _, rfl, rfl, ?_, hahead.input, hahead.look, hahead.pos, hstate.symm⟩
          simp only [List.map_cons, Image.entry, hrest, hvalue]
  | accept => exact .inr ⟨_, _, rfl, rfl, hahead.stack, hahead.st⟩
  | error => exact .inr ⟨_, _, rfl, rfl, hahead.stack, hahead.kind, hahead.pos, hahead.st⟩

/-- Runs from configurations that look the same have outcomes that do. -/
theorem Runs.alike (hI : I.Respected) (heof : I.place eof = I.place eof') {o : Outcome M}
    (hrun : c.Runs auto eof o) (h : Alike I c c') :
    ∃ o', c'.Runs auto eof' o' ∧ o.Alike I o' := by
  induction hrun generalizing c' with
  | stop hstop =>
    rcases Alike.step hI h heof with ⟨d, d', hd, -, -⟩ | ⟨o, o', ho, ho', halike⟩
    · cases hd.symm.trans hstop
    · cases ho.symm.trans hstop
      exact ⟨o', .stop ho', halike⟩
  | next hstep _ ih =>
    rcases Alike.step hI h heof with ⟨d, d', hd, hd', halike⟩ | ⟨o, o', ho, -, -⟩
    · cases hd.symm.trans hstep
      obtain ⟨o', hrun', hout⟩ := ih halike
      exact ⟨o', .next hd' hrun', hout⟩
    · cases ho.symm.trans hstep

end Config
end Bison
