import Hsql.Bison.Image

/-! Derivations seen through an image: with the same shape and what is seen of their tokens and
places the same, their actions come to values that look the same. -/

namespace Bison
variable {T N : Type} {G : Grammar T N} {A B : T → Type} {P Q : Type}

mutual

def Tree.view (f : (t : T) → A t → B t) (g : P → Q) {n : N} : Tree G A P n → Tree G B Q n
  | .node r p kids => .node r (g p) (kids.view f g)

def Forest.view (f : (t : T) → A t → B t) (g : P → Q) {ss : List (Symbol T N)} :
    Forest G A P ss → Forest G B Q ss
  | .nil => .nil
  | .token a k => .token (f _ a) (k.view f g)
  | .tree d k => .tree (d.view f g) (k.view f g)

end

/-- What is left of a run that builds derivations. -/
abbrev viewImage (G : Grammar T N) (f : (t : T) → A t → B t) (g : P → Q) : Image (trees G A P) where
  B := B
  W := Tree G B Q
  Q := Q
  Z := Unit
  token := f
  value _ := Tree.view f g
  place := g
  state _ := ()

theorem Forest.view_ofVals (f : (t : T) → A t → B t) (g : P → Q) {ss : List (Symbol T N)}
    (vs : Vals A (Tree G A P) ss) :
    (Forest.ofVals vs).view f g = Forest.ofVals ((viewImage G f g).vals ss vs) := by
  induction ss with
  | nil => rfl
  | cons sym ss ih =>
    cases sym with
    | terminal t => exact congrArg (Forest.token (f t vs.1)) (ih vs.2)
    | nonterminal n => exact congrArg (Forest.tree (vs.1.view f g)) (ih vs.2)

theorem viewImage_respected (f : (t : T) → A t → B t) (g : P → Q) :
    (viewImage G f g).Respected := by
  intro n r vs vs' p p' s s' hvs hp _
  have hnode : (Tree.node r p (.ofVals vs)).view f g = (Tree.node r p' (.ofVals vs')).view f g := by
    rw [Tree.view, Tree.view, Forest.view_ofVals, Forest.view_ofVals, hvs]
    exact congrArg (fun q => Tree.node r q _) hp
  exact congrArg (fun d => some (d, ())) hnode

section
variable {M : Semantics G A P} {I : Image M} (hI : I.Respected)
include hI

mutual

/-- The actions on derivations that look the same, run from states that do. -/
theorem Tree.eval_view {n : N} : ∀ (d d' : Tree G A P n) {s s' : M.S},
    d.view I.token I.place = d'.view I.token I.place → I.state s = I.state s' →
      (d.eval M s).map I.result = (d'.eval M s').map I.result
  | .node r p kids, .node r' p' kids', s, s', h, hs => by
    obtain ⟨rfl, hp, hkids⟩ := Tree.node.inj h
    have hvals := kids.eval_view kids' (eq_of_heq hkids) hs
    rw [Tree.eval, Tree.eval]
    cases hk : kids.eval M s with
    | none =>
      rw [hk, Option.map_none] at hvals
      rw [Option.map_eq_none_iff.mp hvals.symm]
      rfl
    | some x =>
      rw [hk, Option.map_some] at hvals
      obtain ⟨x', hk', hx⟩ := Option.map_eq_some_iff.mp hvals.symm
      obtain ⟨hvs, hst⟩ := Prod.mk.inj hx
      rw [hk', Option.bind_some, Option.bind_some]
      exact hI r x.1 x'.1 p p' x.2 x'.2 hvs.symm hp hst.symm

theorem Forest.eval_view {ss : List (Symbol T N)} : ∀ (k k' : Forest G A P ss) {s s' : M.S},
    k.view I.token I.place = k'.view I.token I.place → I.state s = I.state s' →
      (k.eval M s).map (fun x => (I.vals ss x.1, I.state x.2)) =
        (k'.eval M s').map fun x => (I.vals ss x.1, I.state x.2)
  | .nil, .nil, s, s', _, hs => congrArg (fun z => some ((), z)) hs
  | .token a k, .token a' k', s, s', h, hs => by
    obtain ⟨ha, hk⟩ := Forest.token.inj h
    have hvals := congrArg (Option.map fun x => ((I.token _ a, x.1), x.2)) (k.eval_view k' hk hs)
    rw [Option.map_map, Option.map_map] at hvals
    rw [Forest.eval, Forest.eval, Option.map_map, Option.map_map]
    refine hvals.trans ?_
    rw [ha]
    rfl
  | .tree d k, .tree d' k', s, s', h, hs => by
    obtain ⟨hd, hk⟩ := Forest.tree.inj h
    have hfirst := d.eval_view d' hd hs
    rw [Forest.eval, Forest.eval]
    cases hv : d.eval M s with
    | none =>
      rw [hv, Option.map_none] at hfirst
      rw [Option.map_eq_none_iff.mp hfirst.symm]
      rfl
    | some x =>
      rw [hv, Option.map_some] at hfirst
      obtain ⟨x', hv', hx⟩ := Option.map_eq_some_iff.mp hfirst.symm
      obtain ⟨hvalue, hst⟩ := Prod.mk.inj hx
      have hrest := congrArg (Option.map fun y => ((I.value _ x.1, y.1), y.2))
        (k.eval_view k' hk hst.symm)
      rw [Option.map_map, Option.map_map] at hrest
      rw [hv', Option.bind_some, Option.bind_some, Option.map_map, Option.map_map]
      refine hrest.trans ?_
      rw [← hvalue]
      rfl

end

end

end Bison
