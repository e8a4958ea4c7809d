import Hsql.Data.Nested
import Mathlib.Algebra.Order.BigOperators.Group.Multiset

/-! Values that own others and are destroyed with them: each disposes of some of its parts and
leaves the others behind. What is owned is either destroyed or within a part that is left. -/

structure Disposal (α : Type) extends Nested α where
  disposed : α → List α
  left : α → List α
  perm : ∀ a, (disposed a ++ left a).Perm (parts a)

namespace Nested
variable {α : Type} (S : Nested α) {M : Type} [AddCommMonoid M]

/-- A total is the only function that adds up over the parts. -/
theorem total_unique {w f : α → M} (h : ∀ a, f a = w a + ((S.parts a).map f).sum) (a : α) :
    S.total w a = f a := by
  induction hrank : S.rank a using Nat.strong_induction_on generalizing a with
  | _ n ih =>
    have hparts : (S.parts a).map (S.total w) = (S.parts a).map f :=
      List.map_congr_left fun b hb => ih _ (hrank ▸ S.rank_lt a b hb) b rfl
    rw [total_eq, h a, hparts]

theorem total_add (w w' : α → M) (a : α) :
    S.total (fun b => w b + w' b) a = S.total w a + S.total w' a := by
  refine S.total_unique (f := fun a => S.total w a + S.total w' a) (fun a => ?_) a
  rw [List.sum_map_add, S.total_eq w, S.total_eq w']
  exact add_add_add_comm _ _ _ _

/-- A total vanishes exactly if there is nothing to add. -/
theorem total_eq_zero_iff {β : Type} {w : α → Multiset β} {a : α} :
    S.total w a = 0 ↔ ∀ b, S.Within a b → w b = 0 := by
  constructor
  · intro h b hb
    by_contra hne
    obtain ⟨x, hx⟩ := Multiset.exists_mem_of_ne_zero hne
    have hmem := S.mem_total hb hx
    rw [h] at hmem
    exact Multiset.notMem_zero x hmem
  · intro h
    induction hrank : S.rank a using Nat.strong_induction_on generalizing a with
    | _ n ih =>
      have hparts : ∀ x ∈ (S.parts a).map (S.total w), x = 0 := by
        intro x hx
        obtain ⟨b, hb, rfl⟩ := List.mem_map.mp hx
        exact ih _ (hrank ▸ S.rank_lt a b hb) (fun c hc => h c (.head hb hc)) rfl
      rw [total_eq, h a .refl, List.sum_eq_zero hparts, zero_add]

end Nested

namespace Disposal
variable {α : Type} (D : Disposal α)

/-- The parts that a destruction goes to. -/
def reached : Nested α where
  parts := D.disposed
  rank := D.rank
  rank_lt a b hb := D.rank_lt a b ((D.perm a).subset (List.mem_append_left _ hb))

/-- A value goes after the parts that it disposes of. -/
def destroy (a : α) : List α :=
  ((D.disposed a).attach.flatMap fun b => destroy b.1) ++ [a]
termination_by D.rank a
decreasing_by exact D.reached.rank_lt a b.1 b.2

theorem destroy_eq (a : α) : D.destroy a = (D.disposed a).flatMap D.destroy ++ [a] := by
  rw [destroy, List.flatMap_subtype (g := D.destroy) (fun _ _ => rfl), List.unattach_attach]

section
variable {M : Type} [AddCommMonoid M]

theorem totals_perm (w : α → M) {l l' : List α} (h : l.Perm l') :
    D.totals w l = D.totals w l' := (h.map (D.total w)).sum_eq

/-- What lies within a value is destroyed with it, or within a part that something destroyed with it
leaves behind. -/
theorem total_eq_reached (w : α → M) (a : α) :
    D.total w a = D.reached.total (fun b => w b + D.totals w (D.left b)) a := by
  refine (D.reached.total_unique (f := D.total w) (fun a => ?_) a).symm
  have hparts : ((D.parts a).map (D.total w)).sum =
      D.totals w (D.disposed a) + D.totals w (D.left a) := by
    rw [← D.totals_append]
    exact (D.totals_perm w (D.perm a)).symm
  rw [D.total_eq, hparts, add_assoc, add_comm (D.totals w (D.left a))]
  rfl

/-- What is left behind when a value is destroyed. -/
def leftBehind (w : α → M) : α → M := D.reached.total fun b => D.totals w (D.left b)

theorem total_accounts (w : α → M) (a : α) :
    D.reached.total w a + D.leftBehind w a = D.total w a := by
  rw [total_eq_reached, Nested.total_add]
  rfl

theorem sum_destroy (w : α → M) (a : α) :
    ((D.destroy a).map w).sum = D.reached.total w a := by
  refine (D.reached.total_unique (f := fun a => ((D.destroy a).map w).sum) (fun a => ?_) a).symm
  have hparts (l : List α) : ((l.flatMap D.destroy).map w).sum =
      (l.map fun b => ((D.destroy b).map w).sum).sum := by
    induction l with
    | nil => rfl
    | cons b l ih => rw [List.flatMap_cons, List.map_append, List.sum_append, ih, List.map_cons,
        List.sum_cons]
  rw [destroy_eq, List.map_append, List.sum_append, hparts, List.map_singleton, List.sum_singleton]
  exact add_comm _ _

theorem coe_destroy (a : α) : (D.destroy a : Multiset α) = D.reached.total (fun b => {b}) a := by
  rw [← sum_destroy, ← Multiset.sum_coe, ← Multiset.map_coe, Multiset.sum_map_singleton]

theorem totals_accounts (w : α → M) (l : List α) :
    D.reached.totals w l + (l.map (D.leftBehind w)).sum = D.totals w l := by
  rw [Nested.totals, ← List.sum_map_add]
  exact congrArg List.sum (List.map_congr_left fun a _ => D.total_accounts w a)

end

theorem within_of_reached {a b : α} (h : D.reached.Within a b) : D.Within a b :=
  Relation.ReflTransGen.mono (fun a _ hb => (D.perm a).subset (List.mem_append_left _ hb)) _ _ h

/-- What lies within a value is destroyed with it, or lies within a part that is left behind. -/
theorem within_cases {a b : α} (h : D.Within a b) : D.reached.Within a b ∨
    ∃ c, D.reached.Within a c ∧ ∃ d ∈ D.left c, D.Within d b := by
  induction h with
  | refl => exact .inl .refl
  | @tail b c _ hc ih =>
    rcases ih with hb | ⟨e, he, d, hd, hb⟩
    · rcases List.mem_append.mp ((D.perm b).symm.subset hc) with hmem | hmem
      · exact .inl (hb.tail hmem)
      · exact .inr ⟨b, hb, c, hmem, .refl⟩
    · exact .inr ⟨e, he, d, hd, hb.tail hc⟩

/-- Nothing of a weight is left behind exactly if no part that could be left has any. -/
theorem leftBehind_eq_zero_iff {β : Type} {w : α → Multiset β} {a : α} :
    D.leftBehind w a = 0 ↔ ∀ b, D.Within a b → D.totals w (D.left b) = 0 := by
  have htotals (b : α) : D.totals w (D.left b) = 0 ↔
      ∀ c ∈ D.left b, ∀ d, D.Within c d → w d = 0 := by
    rw [Nested.totals, List.sum_eq_zero_iff, List.forall_mem_map]
    exact forall₂_congr fun c _ => D.total_eq_zero_iff
  rw [leftBehind, Nested.total_eq_zero_iff]
  refine ⟨fun h b hb => ?_, fun h b hb => h b (D.within_of_reached hb)⟩
  rcases D.within_cases hb with hb | ⟨c, hc, d, hd, hb⟩
  · exact h b hb
  · have hzero := (htotals c).mp (h c hc) d hd
    exact (htotals b).mpr fun e he f hf =>
      hzero f (hb.trans (.head ((D.perm b).subset (List.mem_append_right _ he)) hf))

theorem totals_singleton_eq_zero_iff (l : List α) :
    D.totals (fun b => ({b} : Multiset α)) l = 0 ↔ l = [] := by
  cases l with
  | nil => exact iff_of_true rfl rfl
  | cons b l =>
    refine iff_of_false (fun h => ?_) nofun
    have hmem := D.mem_total (w := fun b => ({b} : Multiset α)) .refl (Multiset.mem_singleton_self b)
    rw [Nested.totals, List.map_cons, List.sum_cons] at h
    rw [(add_eq_zero.mp h).1] at hmem
    exact Multiset.notMem_zero b hmem

end Disposal
