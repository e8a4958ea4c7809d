import Hsql.Parser.Values

/-! What a semantic action does to pointers, nodes and addresses. -/

namespace Hsql
open Bison Vals Node Expr

/-- From values with their pointers set, the action makes one with its pointers set, sound if they
are, and every address that they hold or that is new goes into it, but for the lost ones. -/
def Production.Spec {n : NT} (p : Production n)
    (lost : Vals TokenKind.Val NT.Val p.rhs → Multiset Addr) : Prop :=
  ∀ vs, vs.All NT.Given → ∀ l s v s', p.action vs l s = some (v, s') →
    n.Given v ∧ (vs.All NT.Sound → n.Sound v) ∧
      n.addrs v + lost vs + s.heap.made = vs.sum NT.addrs + s'.heap.made

/-- The action loses nothing. -/
abbrev Production.Keeps {n : NT} (p : Production n) : Prop := p.Spec fun _ => 0

variable {n : NT} {rhs : List Sym}

theorem keeps_rule {f : Vals TokenKind.Val NT.Val rhs → n.Val}
    (h : ∀ vs, vs.All NT.Given → n.Given (f vs) ∧ (vs.All NT.Sound → n.Sound (f vs)) ∧
      n.addrs (f vs) = vs.sum NT.addrs) : (rule rhs f).Keeps := by
  intro vs hvs l s v s' heq
  cases heq
  obtain ⟨hgiven, hsound, haddrs⟩ := h vs hvs
  exact ⟨hgiven, hsound, by rw [add_zero, haddrs]; rfl⟩

theorem spec_deref {f : Vals TokenKind.Val NT.Val rhs → Option n.Val}
    {lost : Vals TokenKind.Val NT.Val rhs → Multiset Addr}
    (h : ∀ vs, vs.All NT.Given → ∀ v, f vs = some v → n.Given v ∧ (vs.All NT.Sound → n.Sound v) ∧
      n.addrs v + lost vs = vs.sum NT.addrs) : (deref rhs f).Spec lost := by
  intro vs hvs l s v s' heq
  obtain ⟨u, hu, hpair⟩ := Option.map_eq_some_iff.mp heq
  cases hpair
  obtain ⟨hgiven, hsound, haddrs⟩ := h vs hvs v hu
  exact ⟨hgiven, hsound, by rw [haddrs]; rfl⟩

theorem keeps_deref {f : Vals TokenKind.Val NT.Val rhs → Option n.Val}
    (h : ∀ vs, vs.All NT.Given → ∀ v, f vs = some v → n.Given v ∧ (vs.All NT.Sound → n.Sound v) ∧
      n.addrs v = vs.sum NT.addrs) : (deref rhs f).Keeps :=
  spec_deref fun vs hvs v hv => by simpa only [add_zero] using h vs hvs v hv

theorem keeps_effect
    {f : Vals TokenKind.Val NT.Val rhs → Location → ParserState → Option (n.Val × ParserState)}
    (h : ∀ vs, vs.All NT.Given → ∀ l s v s', f vs l s = some (v, s') → n.Given v ∧
      (vs.All NT.Sound → n.Sound v) ∧
        n.addrs v + s.heap.made = vs.sum NT.addrs + s'.heap.made) : (effect rhs f).Keeps := by
  intro vs hvs l s v s' heq
  obtain ⟨hgiven, hsound, haddrs⟩ := h vs hvs l s v s' heq
  exact ⟨hgiven, hsound, by rw [add_zero, haddrs]; rfl⟩

@[simp] theorem made_newSelect (s : ParserState) :
    s.newSelect.2.heap.made = {.select s.newSelect.1} + s.heap.made := by
  simp [ParserState.newSelect, Heap.made, Multiset.range_succ, add_assoc]

@[simp] theorem made_newOrder (s : ParserState) :
    s.newOrder.2.heap.made = {.order s.newOrder.1} + s.heap.made := by
  simp [ParserState.newOrder, Heap.made, Multiset.range_succ, add_assoc, add_left_comm]

@[simp] theorem made_newLimit (s : ParserState) :
    s.newLimit.2.heap.made = {.limit s.newLimit.1} + s.heap.made := by
  simp [ParserState.newLimit, Heap.made, Multiset.range_succ, add_assoc, add_left_comm]

@[simp] theorem made_newParam (s : ParserState) :
    s.newParam.2.heap.made = {.param s.newParam.1} + s.heap.made := by
  simp [ParserState.newParam, Heap.made, Multiset.range_succ, add_assoc, add_left_comm]

/-! Vectors. -/

section
variable {α : Type} {l v : Option (List (Option α))} {x : Option α}

theorem filled_vector (hx : x.isSome) : Filled (vector x) :=
  ⟨[x], rfl, List.cons_ne_nil _ _, List.forall_mem_singleton.mpr hx⟩

theorem Filled.pushBack (hl : Filled l) (hx : x.isSome) (hv : pushBack l x = some v) :
    Filled v := by
  obtain ⟨xs, rfl, -, hxs⟩ := hl
  cases hv
  exact ⟨xs ++ [x], rfl, by simp, by simpa [or_imp, forall_and] using ⟨hxs, hx⟩⟩

theorem vec_vector (f : α → Node) : vec f (vector x) = ptr f x := by
  simp [vec, vector]

theorem vec_pushBack (f : α → Node) (hv : pushBack l x = some v) : vec f v = vec f l ++ ptr f x := by
  obtain ⟨xs, rfl, rfl⟩ := Option.map_eq_some_iff.mp hv
  simp

end

end Hsql
