import Hsql.Bison.Control
import Hsql.Bison.Marks

/-! Which nonterminal reads a token: once a run has reduced the rule that the token stands in, the
derivation it ends with keeps it. -/

namespace Bison
variable {T N : Type} {G : Grammar T N} {A : T → Type} {P : Type}

/-- For each token, the nonterminal whose rule it stands in. -/
abbrev Tree.readers {n : N} (d : Tree G A P n) : List N := d.marks fun {n} _ _ => [n]

/-- The readers of the tokens on the stack, where the rule is reduced already. -/
def stackReaders : List (Entry A (Tree G A P)) → List (Option N)
  | [] => []
  | .token .. :: es => stackReaders es ++ [none]
  | .value _ _ d :: es => stackReaders es ++ d.readers.map some

def Vals.readers : {ss : List (Symbol T N)} → Vals A (Tree G A P) ss → List (Option N)
  | [], _ => []
  | .terminal _ :: _, (_, vs) => none :: readers vs
  | .nonterminal _ :: _, (d, vs) => d.readers.map some ++ readers vs

/-- More readers are known, and none is another. -/
def Refines (l l' : List (Option N)) : Prop :=
  l.length = l'.length ∧ ∀ (i : ℕ) (n : N), l[i]? = some (some n) → l'[i]? = some (some n)

theorem Refines.rfl {l : List (Option N)} : Refines l l := ⟨Eq.refl _, fun _ _ h => h⟩

theorem Refines.append {l l' m m' : List (Option N)} (h : Refines l l') (h' : Refines m m') :
    Refines (l ++ m) (l' ++ m') := by
  refine ⟨by rw [List.length_append, List.length_append, h.1, h'.1], fun i n hi => ?_⟩
  by_cases hlt : i < l.length
  · rw [List.getElem?_append_left hlt] at hi
    rw [List.getElem?_append_left (h.1 ▸ hlt)]
    exact h.2 i n hi
  · have hle := not_lt.mp hlt
    rw [List.getElem?_append_right hle] at hi
    rw [List.getElem?_append_right (h.1 ▸ hle), ← h.1]
    exact h'.2 _ n hi

theorem refines_ofVals {here : Sigma A → List N} (hhere : ∀ x, (here x).length = 1)
    {ss : List (Symbol T N)} (vs : Vals A (Tree G A P) ss) :
    Refines vs.readers (((Forest.ofVals vs).marks (fun {n} _ _ => [n]) here).map some) := by
  induction ss with
  | nil => exact .rfl
  | cons sym ss ih =>
    cases sym with
    | terminal t =>
      have hone : Refines [none] ((here ⟨t, vs.1⟩).map some) := by
        refine ⟨by rw [List.length_map, hhere, List.length_singleton], fun i n hi => ?_⟩
        cases i <;> cases hi
      show Refines ([none] ++ Vals.readers vs.2) ((here ⟨t, vs.1⟩ ++
        (Forest.ofVals vs.2).marks (fun {n} _ _ => [n]) here).map some)
      rw [List.map_append]
      exact hone.append (ih vs.2)
    | nonterminal n =>
      show Refines (vs.1.readers.map some ++ Vals.readers vs.2) ((vs.1.readers ++
        (Forest.ofVals vs.2).marks (fun {n} _ _ => [n]) here).map some)
      rw [List.map_append]
      exact Refines.rfl.append (ih vs.2)

theorem Tree.length_readers {n : N} (d : Tree G A P n) : d.readers.length = d.yield.length := by
  have hmap : d.readers.map (fun _ => ()) = d.yield.flatMap fun _ => [()] :=
    @Tree.map_marks T N G A P N (fun {n} _ _ => [n]) Unit (fun _ => ()) (fun _ => [()])
      (fun _ _ => Eq.refl _) n d
  rw [← List.length_map, hmap, List.length_flatMap]
  simp

theorem length_stackReaders (st : List (Entry A (Tree G A P))) :
    (stackReaders st).length = (stackYield st).length := by
  induction st with
  | nil => exact Eq.refl 0
  | cons e st ih =>
    cases e with
    | token q t a =>
      show (stackReaders st ++ [none]).length = (stackYield st ++ [(⟨t, a⟩ : Sigma A)]).length
      rw [List.length_append, List.length_append, ih]
      exact Eq.refl _
    | value q n d =>
      show (stackReaders st ++ d.readers.map some).length = (stackYield st ++ d.yield).length
      rw [List.length_append, List.length_append, ih, List.length_map, d.length_readers]

mutual

/-- The readers do not depend on the values of tokens. -/
theorem Tree.readers_erase {n : N} : ∀ d : Tree G A P n, d.erase.readers = d.readers
  | .node _ _ kids => kids.marks_erase fun _ => [n]

theorem Forest.marks_erase {ss : List (Symbol T N)} :
    ∀ (k : Forest G A P ss) (here : Unit → List N),
    k.erase.marks (fun {n} _ _ => [n]) (fun _ => here ()) =
      k.marks (fun {n} _ _ => [n]) fun _ => here ()
  | .nil, _ => Eq.refl _
  | .token a k, here => by
    rw [Forest.erase, Forest.marks, Forest.marks, k.marks_erase here]
  | .tree d k, here => by
    have hd := d.readers_erase
    rw [Forest.erase, Forest.marks, Forest.marks, k.marks_erase here]
    exact congrArg (· ++ _) hd

end

variable [DecidableEq T] [DecidableEq N]

theorem stackReaders_pop {ss : List (Symbol T N)} {st rest : List (Entry A (Tree G A P))}
    {vs : Vals A (Tree G A P) ss} (h : pop ss st = some (vs, rest)) :
    stackReaders st = stackReaders rest ++ vs.readers := by
  induction ss generalizing rest with
  | nil =>
    cases h
    exact (List.append_nil _).symm
  | cons sym ss ih =>
    cases sym with
    | terminal t =>
      obtain ⟨⟨us, st₁⟩, hss, h⟩ := Option.bind_eq_some_iff.mp h
      obtain ⟨⟨a, st₂⟩, ht, heq⟩ := Option.map_eq_some_iff.mp h
      cases heq
      obtain ⟨q, rfl⟩ := popToken_eq_some ht
      rw [ih hss]
      exact List.append_assoc _ _ _
    | nonterminal n =>
      obtain ⟨⟨us, st₁⟩, hss, h⟩ := Option.bind_eq_some_iff.mp h
      obtain ⟨⟨d, st₂⟩, hn, heq⟩ := Option.map_eq_some_iff.mp h
      cases heq
      obtain ⟨q, rfl⟩ := popValue_eq_some hn
      rw [ih hss]
      exact List.append_assoc _ _ _

namespace Config
variable {auto : Automaton G} {eof : P} {c c' : Config (trees G A P)}

/-- The token with this number is read by this nonterminal. -/
def ReadBy (i : ℕ) (n : N) (c : Config (trees G A P)) : Prop :=
  (stackReaders c.stack)[i]? = some (some n)

theorem step_readBy {i : ℕ} {n : N} (hc : c.ReadBy i n) (h : c.step auto eof = .inl c') :
    c'.ReadBy i n := by
  unfold ReadBy at hc ⊢
  rcases step_cases h with ⟨q, t, a, p, rest, -, -, rfl⟩ |
    ⟨m, r, vs, rest, q, v, s, -, hpop, -, hact, rfl⟩
  · show (stackReaders c.stack ++ [none])[i]? = _
    obtain ⟨hi, -⟩ := List.getElem?_eq_some_iff.mp hc
    rw [List.getElem?_append_left hi]
    exact hc
  · obtain ⟨rfl, -⟩ := Prod.mk.inj (Option.some.inj hact)
    rw [stackReaders_pop hpop] at hc
    exact (Refines.rfl.append
      (refines_ofVals (fun _ => Eq.refl 1) vs)).2 i n hc

theorem Runs.readBy {i : ℕ} {n m : N} {q : Nat} {d : Tree G A P m}
    (h : c.Runs auto eof (.accept [.value q m d] ())) (hc : c.ReadBy i n) :
    d.readers[i]? = some n := by
  obtain ⟨c', hread, hlast⟩ := h.last step_readBy hc
  obtain ⟨-, hstack, -⟩ := step_accept hlast
  rw [ReadBy, hstack] at hread
  have hread : (d.readers.map some)[i]? = some (some n) := hread
  rw [List.getElem?_map, Option.map_eq_some_iff] at hread
  obtain ⟨x, hx, heq⟩ := hread
  rw [hx, Option.some.inj heq]

omit [DecidableEq T] [DecidableEq N] in
/-- The token that a rule of its own has just reduced. -/
theorem readBy_of_single {q : Nat} {n : N} {d : Tree G A P n} {rest : List (Entry A (Tree G A P))}
    (hstack : c.stack = .value q n d :: rest) (hd : d.readers = [n]) :
    c.ReadBy (stackReaders rest).length n := by
  rw [ReadBy, hstack]
  show (stackReaders rest ++ d.readers.map some)[_]? = _
  rw [List.getElem?_append_right (Nat.le_refl _), Nat.sub_self, hd]
  exact Eq.refl _

end Config

end Bison
