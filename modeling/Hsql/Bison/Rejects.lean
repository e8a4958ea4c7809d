import Hsql.Bison.Bases

/-! Runs look no further than the token they read: what lies behind it can be replaced. So a token
that is rejected is rejected whatever comes after it. -/

namespace Bison
variable {T N : Type} {G : Grammar T N} {A : T → Type} {P : Type} [DecidableEq T] [DecidableEq N]

namespace Config
variable {M : Semantics G A P} {auto : Automaton G} {eof eof' : P} {c d : Config M}
  {l rest rest' : List (Sigma A × P)}

def replace (c : Config M) (input : List (Sigma A × P)) : Config M := { c with input := input }

omit [DecidableEq T] [DecidableEq N] in
theorem ahead_replace (hl : l ≠ []) (hin : c.input = l ++ rest) :
    (c.replace (l ++ rest')).ahead auto eof' = (c.ahead auto eof).replace (l ++ rest') := by
  obtain ⟨x, l, rfl⟩ := List.exists_cons_of_ne_nil hl
  obtain ⟨stack, input, look, pos, st⟩ := c
  obtain rfl : input = x :: l ++ rest := hin
  unfold ahead
  show (if (auto.row (topState stack)).acts.isEmpty then _ else _) = replace (if _ then _ else _) _
  split_ifs
  · rfl
  · cases look <;> rfl

omit [DecidableEq N] in
theorem action_replace (hl : l ≠ []) (hin : c.input = l ++ rest) :
    (c.replace (l ++ rest')).action auto = c.action auto := by
  obtain ⟨x, l, rfl⟩ := List.exists_cons_of_ne_nil hl
  unfold action kind
  rw [hin]
  rfl

/-- A step that leaves something of the front of its input does so whatever lies behind. -/
theorem step_replace (hl : l ≠ []) (h : c.step auto eof = .inl d) (hd : d.input = l ++ rest) :
    ∃ front, c.input = front ++ l ++ rest ∧ ∀ rest' eof',
      (c.replace (front ++ l ++ rest')).step auto eof' = .inl (d.replace (l ++ rest')) := by
  rcases step_cases h with ⟨q, t, a, p, input, hact, hin, rfl⟩ |
    ⟨n, r, vs, below, q, v, s, hact, hpop, hgoto, hv, rfl⟩
  · obtain rfl : input = l ++ rest := hd
    have hfront : c.input = ((⟨t, a⟩, p) :: l) ++ rest := hin
    refine ⟨[(⟨t, a⟩, p)], hin, fun rest' eof' => ?_⟩
    show (c.replace (((⟨t, a⟩, p) :: l) ++ rest')).step auto eof' = _
    have hahead : (c.replace (((⟨t, a⟩, p) :: l) ++ rest')).ahead auto eof' =
        (c.ahead auto eof).replace (((⟨t, a⟩, p) :: l) ++ rest') :=
      ahead_replace (List.cons_ne_nil _ _) hfront
    rw [step_shift ((action_replace (List.cons_ne_nil _ _) hfront).trans hact) rfl, hahead]
    rfl
  · have hfront : c.input = l ++ rest := ahead_input.symm.trans hd
    refine ⟨[], hfront, fun rest' eof' => ?_⟩
    show (c.replace (l ++ rest')).step auto eof' = _
    have hahead : (c.replace (l ++ rest')).ahead auto eof' =
      (c.ahead auto eof).replace (l ++ rest') := ahead_replace hl hfront
    have hstep : (c.replace (l ++ rest')).step auto eof' = _ :=
      step_reduce ((action_replace hl hfront).trans hact) hpop hgoto (v := v) (s := s)
        (by rw [hahead]; exact hv)
    rw [hstep, hahead]
    rfl

theorem Steps.replace (hl : l ≠ []) (h : c.Steps auto eof d) (hd : d.input = l ++ rest) :
    ∃ front, c.input = front ++ l ++ rest ∧ ∀ rest' eof',
      (c.replace (front ++ l ++ rest')).Steps auto eof' (d.replace (l ++ rest')) := by
  induction h generalizing l with
  | refl => exact ⟨[], hd, fun rest' eof' => .refl _⟩
  | tail _ hstep ih =>
    obtain ⟨pre, hin, hstep'⟩ := step_replace hl hstep hd
    obtain ⟨front, hin', hsteps⟩ := ih (List.append_ne_nil_of_right_ne_nil pre hl) hin
    rw [← List.append_assoc] at hin'
    refine ⟨front ++ pre, hin', fun rest' eof' => .tail ?_ (hstep' rest' eof')⟩
    have hfront := hsteps rest' eof'
    rwa [← List.append_assoc] at hfront

end Config

end Bison
