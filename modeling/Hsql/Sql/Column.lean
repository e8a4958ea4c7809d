import Hsql.Sql.Statement
import Mathlib.Data.List.Induction

/-! The constructor of a column with what it deletes: its loop over the constraints, the two
members that own what a constraint brings, and the deletions of what these owned before. -/

namespace Hsql

/-- Whether the constraint brings an object of its own. -/
def ColumnConstraint.brings (c : ColumnConstraint) : Bool :=
  match c.type with
  | .DEFAULT => c.expr.isSome
  | .FOREIGNKEY => c.fk.isSome
  | _ => false

/-- The state of the loop. An object is named by the place of the constraint that brings it. -/
structure Construction where
  column : ColumnDefinition
  /-- What `defaultVal` points to. -/
  defaultVal : Option Nat
  /-- What `foreignKeyConstraint` points to. -/
  foreignKeyConstraint : Option Nat
  deleted : List Nat

namespace Construction

def start (name : Option Str) (type : DataType) : Construction where
  column :=
    { name := name
      type := type
      isPrimaryKey := false
      isUnique := false
      nullable := true
      defaultVal := none
      isAutoIncrement := false
      hasTypemod := false
      typemod := none
      isForeignKey := false
      foreignKeyConstraint := none }
  defaultVal := none
  foreignKeyConstraint := none
  deleted := []

/-- One round. Deleting a null pointer does nothing. -/
def round (s : Construction) (c : ColumnConstraint) (i : Nat) : Construction :=
  let object := if c.brings then some i else none
  match c.type with
  | .DEFAULT =>
    { s with
      column := s.column.constrain c
      deleted := s.deleted ++ s.defaultVal.toList
      defaultVal := object }
  | .FOREIGNKEY =>
    { s with
      column := s.column.constrain c
      deleted := s.deleted ++ s.foreignKeyConstraint.toList
      foreignKeyConstraint := object }
  | _ => { s with column := s.column.constrain c }

def run (name : Option Str) (type : DataType) (constraints : List ColumnConstraint) : Construction :=
  constraints.zipIdx.foldl (fun s x => s.round x.1 x.2) (start name type)

@[simp] theorem round_column (s : Construction) (c : ColumnConstraint) (i : Nat) :
    (s.round c i).column = s.column.constrain c := by
  unfold round
  cases c.type <;> rfl

theorem run_concat (name : Option Str) (type : DataType) (l : List ColumnConstraint)
    (c : ColumnConstraint) :
    run name type (l ++ [c]) = (run name type l).round c l.length := by
  unfold run
  rw [List.zipIdx_append, List.foldl_append, Nat.zero_add]
  rfl

/-- The column is the one that the constructor makes. -/
theorem run_column (name : Option Str) (type : DataType) (l : List ColumnConstraint) :
    ColumnDefinition.new name type (some (l.map some)) = some (run name type l).column := by
  have hcolumn : (run name type l).column = l.foldl .constrain (start name type).column := by
    induction l using List.reverseRecOn with
    | nil => rfl
    | append_singleton l c ih =>
      rw [run_concat, round_column, ih, List.foldl_append]
      rfl
  have hfold (s : ColumnDefinition) : (l.map some).foldlM (fun column c =>
      Option.map (ColumnDefinition.constrain column) c) s = some (l.foldl .constrain s) := by
    clear hcolumn
    induction l generalizing s with
    | nil => rfl
    | cons c l ih => exact ih _
  rw [hcolumn]
  exact hfold _

end Construction

/-! What the objects come to. -/

section
variable (l : List ColumnConstraint) (c : ColumnConstraint) (t : ConstraintType) (i : Nat)

/-- The object of this place is that of the last constraint of the type. -/
def Kept : Prop :=
  ∃ a, l[i]? = some a ∧ a.type = t ∧ a.brings = true ∧
    ∀ j b, i < j → l[j]? = some b → b.type ≠ t

/-- A constraint of the same type comes after the one that brings the object of this place. -/
def Replaced : Prop :=
  ∃ a, l[i]? = some a ∧ a.brings = true ∧ ∃ j b, i < j ∧ l[j]? = some b ∧ b.type = a.type

variable {l c t i}

theorem Kept.not_replaced (h : Kept l t i) : ¬ Replaced l i := by
  obtain ⟨a, ha, rfl, -, hlast⟩ := h
  rintro ⟨a', ha', -, j, b, hij, hb, htype⟩
  obtain rfl := Option.some.inj (ha.symm.trans ha')
  exact hlast j b hij hb htype

theorem Kept.lt (h : Kept l t i) : i < l.length := by
  obtain ⟨a, ha, -⟩ := h
  exact (List.getElem?_eq_some_iff.mp ha).1

/-- Places in a list with one more at its end. -/
theorem getElem?_concat_iff {α : Type} {l : List α} {x y : α} {i : Nat} :
    (l ++ [x])[i]? = some y ↔ l[i]? = some y ∨ i = l.length ∧ x = y := by
  rw [List.getElem?_append]
  split_ifs with h
  · simp [Nat.ne_of_lt h]
  · have hnone : l[i]? = none := List.getElem?_eq_none (not_lt.mp h)
    rw [hnone, List.getElem?_singleton]
    split_ifs with h' <;> simp <;> omega

theorem kept_concat : Kept (l ++ [c]) t i ↔
    if c.type = t then i = l.length ∧ c.brings = true else Kept l t i := by
  have hbound {j : Nat} {b : ColumnConstraint} (hb : l[j]? = some b) : j < l.length :=
    (List.getElem?_eq_some_iff.mp hb).1
  split_ifs with ht
  -- behind one of its own type an object is not kept
  · constructor
    · rintro ⟨a, ha, hat, hbrings, hlast⟩
      rcases getElem?_concat_iff.mp ha with ha | ⟨rfl, rfl⟩
      · exact absurd ht (hlast l.length c (hbound ha) (getElem?_concat_iff.mpr (.inr ⟨rfl, rfl⟩)))
      · exact ⟨rfl, hbrings⟩
    · rintro ⟨rfl, hbrings⟩
      refine ⟨c, getElem?_concat_iff.mpr (.inr ⟨rfl, rfl⟩), ht, hbrings, fun j b hj hb => ?_⟩
      rcases getElem?_concat_iff.mp hb with hb | ⟨rfl, -⟩
      · exact absurd (hbound hb) (Nat.lt_asymm hj)
      · exact absurd hj (Nat.lt_irrefl _)
  · constructor
    · rintro ⟨a, ha, hat, hbrings, hlast⟩
      rcases getElem?_concat_iff.mp ha with ha | ⟨-, rfl⟩
      · exact ⟨a, ha, hat, hbrings, fun j b hj hb =>
          hlast j b hj (getElem?_concat_iff.mpr (.inl hb))⟩
      · exact absurd hat ht
    · rintro ⟨a, ha, hat, hbrings, hlast⟩
      refine ⟨a, getElem?_concat_iff.mpr (.inl ha), hat, hbrings, fun j b hj hb => ?_⟩
      rcases getElem?_concat_iff.mp hb with hb | ⟨-, rfl⟩
      · exact hlast j b hj hb
      · exact ht

theorem replaced_concat : Replaced (l ++ [c]) i ↔ Replaced l i ∨ Kept l c.type i := by
  have hbound {j : Nat} {b : ColumnConstraint} (hb : l[j]? = some b) : j < l.length :=
    (List.getElem?_eq_some_iff.mp hb).1
  constructor
  · rintro ⟨a, ha, hbrings, j, b, hij, hb, hbt⟩
    rcases getElem?_concat_iff.mp ha with ha | ⟨rfl, rfl⟩
    -- one of the old constraints may have replaced it already
    · by_cases hlater : ∃ k d, i < k ∧ l[k]? = some d ∧ d.type = a.type
      · exact .inl ⟨a, ha, hbrings, hlater⟩
      · rcases getElem?_concat_iff.mp hb with hb | ⟨-, rfl⟩
        · exact absurd ⟨j, b, hij, hb, hbt⟩ hlater
        · refine .inr ⟨a, ha, hbt.symm, hbrings, fun k d hk hd hdt => ?_⟩
          exact hlater ⟨k, d, hk, hd, hdt.trans hbt⟩
    · rcases getElem?_concat_iff.mp hb with hb | ⟨rfl, -⟩
      · exact absurd (hbound hb) (Nat.lt_asymm hij)
      · exact absurd hij (Nat.lt_irrefl _)
  · rintro (⟨a, ha, hbrings, j, b, hij, hb, hbt⟩ | h)
    · exact ⟨a, getElem?_concat_iff.mpr (.inl ha), hbrings, j, b, hij,
        getElem?_concat_iff.mpr (.inl hb), hbt⟩
    · have hlt := h.lt
      obtain ⟨a, ha, hat, hbrings, -⟩ := h
      exact ⟨a, getElem?_concat_iff.mpr (.inl ha), hbrings, l.length, c, hlt,
        getElem?_concat_iff.mpr (.inr ⟨rfl, rfl⟩), hat.symm⟩

/-- The last constraint of a type. -/
def lastOf (t : ConstraintType) (l : List ColumnConstraint) : Option ColumnConstraint :=
  (l.filter fun c => c.type = t).getLast?

theorem lastOf_concat : lastOf t (l ++ [c]) = if c.type = t then some c else lastOf t l := by
  unfold lastOf
  rw [List.filter_append]
  split_ifs with ht
  · rw [List.filter_cons_of_pos (by simpa using ht), List.filter_nil, List.getLast?_concat]
  · rw [List.filter_cons_of_neg (by simpa using ht), List.filter_nil, List.append_nil]

end

/-! The loop. -/

namespace Construction
variable {l : List ColumnConstraint} {s : Construction}

/-- What the members and the deletions say of the constraints that have been read. -/
structure Reads (l : List ColumnConstraint) (s : Construction) : Prop where
  isPrimaryKey : s.column.isPrimaryKey = true ↔ ∃ c ∈ l, c.type = .PRIMARYKEY
  isUnique : s.column.isUnique = true ↔ ∃ c ∈ l, c.type = .PRIMARYKEY ∨ c.type = .UNIQUE
  nullable : s.column.nullable = true ↔ ∀ c ∈ l, c.type ≠ .PRIMARYKEY ∧ c.type ≠ .NOTNULL
  isAutoIncrement : s.column.isAutoIncrement = true ↔ ∃ c ∈ l, c.type = .AUTOINCREMENT
  isForeignKey : s.column.isForeignKey = true ↔ ∃ c ∈ l, c.type = .FOREIGNKEY
  default_eq : s.column.defaultVal = (lastOf .DEFAULT l).bind ColumnConstraint.expr
  foreignKey_eq : s.column.foreignKeyConstraint = (lastOf .FOREIGNKEY l).bind ColumnConstraint.fk
  default_kept : ∀ i, s.defaultVal = some i ↔ Kept l .DEFAULT i
  foreignKey_kept : ∀ i, s.foreignKeyConstraint = some i ↔ Kept l .FOREIGNKEY i
  replaced : ∀ i, Replaced l i → s.deleted.count i = 1
  not_replaced : ∀ i, ¬ Replaced l i → s.deleted.count i = 0

theorem reads_start (name : Option Str) (type : DataType) : (start name type).Reads [] := by
  have hkept (t : ConstraintType) (i : Nat) : none = some i ↔ Kept [] t i :=
    iff_of_false nofun fun h => absurd h.lt (Nat.not_lt_zero i)
  have hnone {i : Nat} (h : Replaced [] i) : False := by
    obtain ⟨a, ha, -⟩ := h
    cases ha
  constructor <;> first | exact hkept _ | exact fun i h => (hnone h).elim | simp [start, lastOf]

section
variable (h : s.Reads l) (c : ColumnConstraint)
include h

/-- What a member owned is deleted when a constraint of its type comes. -/
theorem Reads.count_deleted {t : ConstraintType} {o : Option Nat}
    (ho : ∀ i, o = some i ↔ Kept l t i) (ht : c.type = t) (i : Nat) :
    (Replaced (l ++ [c]) i → (s.deleted ++ o.toList).count i = 1) ∧
      (¬ Replaced (l ++ [c]) i → (s.deleted ++ o.toList).count i = 0) := by
  have hcount : o.toList.count i = if o = some i then 1 else 0 := by
    cases o with
    | none => rfl
    | some j => simp [List.count_cons]
  rw [List.count_append, hcount, replaced_concat, ht]
  -- the member owned this object, which nothing replaced before
  by_cases hk : Kept l t i
  · rw [if_pos ((ho i).mpr hk), h.not_replaced i hk.not_replaced]
    exact ⟨fun _ => rfl, fun hnot => absurd (.inr hk) hnot⟩
  · rw [if_neg fun heq => hk ((ho i).mp heq)]
    exact ⟨fun hr => h.replaced i (hr.resolve_right hk), fun hnot =>
      h.not_replaced i fun hr => hnot (.inl hr)⟩

/-- A constraint that brings nothing does not end anything either. -/
theorem Reads.count_kept (hc : c.type ≠ .DEFAULT) (hc' : c.type ≠ .FOREIGNKEY) (i : Nat) :
    (Replaced (l ++ [c]) i → s.deleted.count i = 1) ∧
      (¬ Replaced (l ++ [c]) i → s.deleted.count i = 0) := by
  have hnone : ¬ Kept l c.type i := by
    rintro ⟨a, -, hat, hbrings, -⟩
    unfold ColumnConstraint.brings at hbrings
    rw [hat] at hbrings
    cases hct : c.type <;> simp_all
  rw [replaced_concat]
  exact ⟨fun hr => h.replaced i (hr.resolve_right hnone), fun hnot =>
    h.not_replaced i fun hr => hnot (.inl hr)⟩

theorem Reads.round : (s.round c l.length).Reads (l ++ [c]) := by
  have hobject (i : Nat) : (if c.brings then some l.length else none) = some i ↔
      i = l.length ∧ c.brings = true := by
    split_ifs with hbrings
    · simp [hbrings, eq_comm]
    · simp [hbrings]
  have hsome (p : ColumnConstraint → Prop) : (∃ a ∈ l ++ [c], p a) ↔ (∃ a ∈ l, p a) ∨ p c := by
    simp [or_and_right, exists_or]
  have hcount (i : Nat) : (Replaced (l ++ [c]) i → (s.round c l.length).deleted.count i = 1) ∧
      (¬ Replaced (l ++ [c]) i → (s.round c l.length).deleted.count i = 0) := by
    cases ht : c.type with
    | DEFAULT =>
      have hdeleted := h.count_deleted c h.default_kept ht i
      unfold Construction.round
      rwa [ht]
    | FOREIGNKEY =>
      have hdeleted := h.count_deleted c h.foreignKey_kept ht i
      unfold Construction.round
      rwa [ht]
    | _ =>
      have hdeleted := h.count_kept c (by rw [ht]; decide) (by rw [ht]; decide) i
      unfold Construction.round
      rwa [ht]
  constructor
  -- the flags, the last objects, what the members own, and what is deleted
  · rw [round_column, hsome, ← h.isPrimaryKey]
    cases ht : c.type <;> simp [ColumnDefinition.constrain, ht]
  · rw [round_column, hsome, ← h.isUnique]
    cases ht : c.type <;> simp [ColumnDefinition.constrain, ht]
  · rw [round_column, List.forall_mem_append, ← h.nullable]
    cases ht : c.type <;> simp [ColumnDefinition.constrain, ht]
  · rw [round_column, hsome, ← h.isAutoIncrement]
    cases ht : c.type <;> simp [ColumnDefinition.constrain, ht]
  · rw [round_column, hsome, ← h.isForeignKey]
    cases ht : c.type <;> simp [ColumnDefinition.constrain, ht]
  · rw [round_column, lastOf_concat]
    cases ht : c.type <;> simp [ColumnDefinition.constrain, ht, h.default_eq]
  · rw [round_column, lastOf_concat]
    cases ht : c.type <;> simp [ColumnDefinition.constrain, ht, h.foreignKey_eq]
  · intro i
    rw [kept_concat]
    unfold Construction.round
    cases ht : c.type <;> simp [h.default_kept, hobject]
  · intro i
    rw [kept_concat]
    unfold Construction.round
    cases ht : c.type <;> simp [h.foreignKey_kept, hobject]
  · exact fun i => (hcount i).1
  · exact fun i => (hcount i).2

end

theorem reads_run (name : Option Str) (type : DataType) (l : List ColumnConstraint) :
    (run name type l).Reads l := by
  induction l using List.reverseRecOn with
  | nil => exact reads_start name type
  | append_singleton l c ih =>
    rw [run_concat]
    exact ih.round c

end Construction

/-- **The constructor's fold is exact**, whatever the order and the multiplicity of the
constraints. Of the objects that they bring, those of the last of their type are kept and the
others are deleted once. -/
theorem construction_exact (name : Option Str) (type : DataType) (l : List ColumnConstraint) :
    ∃ column, ColumnDefinition.new name type (some (l.map some)) = some column ∧
      (column.isPrimaryKey = true ↔ ∃ c ∈ l, c.type = .PRIMARYKEY) ∧
      (column.isUnique = true ↔ ∃ c ∈ l, c.type = .PRIMARYKEY ∨ c.type = .UNIQUE) ∧
      (column.nullable = true ↔ ∀ c ∈ l, c.type ≠ .PRIMARYKEY ∧ c.type ≠ .NOTNULL) ∧
      (column.isAutoIncrement = true ↔ ∃ c ∈ l, c.type = .AUTOINCREMENT) ∧
      (column.isForeignKey = true ↔ ∃ c ∈ l, c.type = .FOREIGNKEY) ∧
      column.defaultVal = (lastOf .DEFAULT l).bind ColumnConstraint.expr ∧
      column.foreignKeyConstraint = (lastOf .FOREIGNKEY l).bind ColumnConstraint.fk ∧
      (Construction.run name type l).column = column ∧
      (∀ i, (Construction.run name type l).defaultVal = some i ↔ Kept l .DEFAULT i) ∧
      (∀ i, (Construction.run name type l).foreignKeyConstraint = some i ↔
        Kept l .FOREIGNKEY i) ∧
      ∀ i, (Replaced l i → (Construction.run name type l).deleted.count i = 1) ∧
        (¬ Replaced l i → (Construction.run name type l).deleted.count i = 0) := by
  have h := Construction.reads_run name type l
  exact ⟨_, Construction.run_column name type l, h.isPrimaryKey, h.isUnique, h.nullable,
    h.isAutoIncrement, h.isForeignKey, h.default_eq, h.foreignKey_eq, rfl, h.default_kept,
    h.foreignKey_kept, fun i => ⟨h.replaced i, h.not_replaced i⟩⟩

end Hsql
