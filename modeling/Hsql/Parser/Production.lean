import Hsql.Parser.State

/-! Productions with their semantic actions. -/

namespace Hsql
open Bison

/-- A production of a nonterminal. The action fails where the source dereferences a null
pointer. -/
structure Production (n : NT) where
  rhs : List Sym
  action : Vals TokenKind.Val NT.Val rhs → Location → ParserState → Option (n.Val × ParserState)

/-- An action that computes the value from those of the right-hand side. -/
def rule {n : NT} (rhs : List Sym) (f : Vals TokenKind.Val NT.Val rhs → n.Val) : Production n where
  rhs := rhs
  action vs _ s := some (f vs, s)

/-- An action that dereferences pointers. -/
def deref {n : NT} (rhs : List Sym) (f : Vals TokenKind.Val NT.Val rhs → Option n.Val) :
    Production n where
  rhs := rhs
  action vs _ s := (f vs).map fun v => (v, s)

/-- An action that allocates or works on the location and the result. -/
def effect {n : NT} (rhs : List Sym)
    (f : Vals TokenKind.Val NT.Val rhs → Location → ParserState →
      Option (n.Val × ParserState)) : Production n where
  rhs := rhs
  action := f

namespace Production

/-- The action keeps an invariant of the values. -/
def Preserves {n : NT} (I : ∀ n : NT, n.Val → Prop) (p : Production n) : Prop :=
  ∀ vs : Vals TokenKind.Val NT.Val p.rhs, vs.All I → ∀ l s v s',
    p.action vs l s = some (v, s') → I n v

/-- The action neither looks at the location and the state nor changes the state. -/
def Stateless {n : NT} (p : Production n) : Prop :=
  ∃ f : Vals TokenKind.Val NT.Val p.rhs → Option n.Val,
    ∀ vs l s, p.action vs l s = (f vs).map fun v => (v, s)

variable {n : NT} {I : ∀ n : NT, n.Val → Prop} {rhs : List Sym}

theorem preserves_rule {f : Vals TokenKind.Val NT.Val rhs → n.Val} :
    (∀ vs, vs.All I → I n (f vs)) → (rule rhs f).Preserves I := by
  intro h vs hvs l s v s' heq
  cases heq
  exact h vs hvs

theorem stateless_rule (f : Vals TokenKind.Val NT.Val rhs → n.Val) : (rule rhs f).Stateless :=
  ⟨fun vs => some (f vs), fun _ _ _ => rfl⟩

theorem stateless_deref (f : Vals TokenKind.Val NT.Val rhs → Option n.Val) :
    (deref rhs f).Stateless := ⟨f, fun _ _ _ => rfl⟩

end Production

/-- A new vector with one element. -/
def vector {α : Type} (x : α) : Option (List α) := some [x]

/-- `l->push_back(x)`, with `l` as the value. -/
def pushBack {α : Type} (l : Option (List α)) (x : α) : Option (Option (List α)) :=
  l.map fun l => some (l ++ [x])

/-- `strdup` of a constant. -/
def strdup (s : String) : Option Str := some s.toList

end Hsql
