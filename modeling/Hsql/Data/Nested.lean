import Mathlib.Algebra.BigOperators.Group.Multiset.Basic
import Mathlib.Algebra.Order.BigOperators.Group.List
import Mathlib.Data.Multiset.OrderedMonoid
import Mathlib.Data.Multiset.Bind
import Mathlib.Logic.Relation

/-! Values that own values of the same type, without cycles: what lies within a value, properties
of all of it, and sums over it that count a part as often as it is owned. -/

/-- The parts that a value owns directly. The rank falls from a value to its parts. -/
structure Nested (α : Type) where
  parts : α → List α
  rank : α → Nat
  rank_lt : ∀ a, ∀ b ∈ parts a, rank b < rank a

namespace Nested
variable {α : Type} (S : Nested α)

def Within (a b : α) : Prop := Relation.ReflTransGen (fun a b => b ∈ S.parts a) a b

def Everywhere (P : α → Prop) (a : α) : Prop := ∀ b, S.Within a b → P b

theorem everywhere_iff (P : α → Prop) (a : α) :
    S.Everywhere P a ↔ P a ∧ ∀ b ∈ S.parts a, S.Everywhere P b := by
  constructor
  · intro h
    exact ⟨h a .refl, fun b hb c hc => h c (.head hb hc)⟩
  · rintro ⟨ha, hparts⟩ c hc
    rcases Relation.ReflTransGen.cases_head hc with rfl | ⟨b, hb, hbc⟩
    · exact ha
    · exact hparts b hb c hbc

variable {M : Type} [AddCommMonoid M]

/-- Sum of a weight over a value and all that lies within it. -/
def total (w : α → M) (a : α) : M :=
  w a + ((S.parts a).attach.map fun b => total w b.1).sum
termination_by S.rank a
decreasing_by exact S.rank_lt a b.1 b.2

theorem total_eq (w : α → M) (a : α) :
    S.total w a = w a + ((S.parts a).map (S.total w)).sum := by
  rw [total, List.attach_map_val (f := S.total w)]

def totals (w : α → M) (l : List α) : M := (l.map (S.total w)).sum

theorem totals_append (w : α → M) (l l' : List α) :
    S.totals w (l ++ l') = S.totals w l + S.totals w l' := by
  rw [totals, List.map_append, List.sum_append]
  rfl

theorem mem_total {β : Type} {w : α → Multiset β} {a b : α} (h : S.Within a b) {x : β}
    (hx : x ∈ w b) : x ∈ S.total w a := by
  induction h using Relation.ReflTransGen.head_induction_on with
  | refl =>
    rw [total_eq]
    exact Multiset.mem_add.mpr (.inl hx)
  | head hac _ ih =>
    have hle := List.single_le_sum (fun y _ => Multiset.zero_le y) _
      (List.mem_map_of_mem (f := S.total w) hac)
    rw [total_eq]
    exact Multiset.mem_add.mpr (.inr (Multiset.mem_of_le hle ih))

end Nested
