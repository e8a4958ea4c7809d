import Hsql.Bison.Lookahead
import Hsql.Parser.Splits

/-! Statements that end without a lookahead: the parser has not read the semicolon behind them when
it measures them. -/

namespace Hsql
open Bison

/-- Some state reduces the rule without a lookahead. -/
def quick {n : NT} (r : grammar.Rule n) : Bool :=
  Tables.states.any fun x => (Tables.actions.getD x.1 []).isEmpty && match x.2 with
    | @Act.reduce _ _ _ m r' => m = n && r'.val == r.val
    | _ => false

theorem quick_of_row {q : Nat} {n : NT} {r : grammar.Rule n}
    (hempty : (automaton.row q).acts.isEmpty = true)
    (hdefault : (automaton.row q).default = .reduce r) : quick r = true := by
  cases hq : Tables.states[q]? with
  | none =>
    have hrow : automaton.row q = ⟨[], .error⟩ := by
      simp only [automaton, hq]
    rw [hrow] at hdefault
    cases hdefault
  | some x =>
    have hrow : automaton.row q = ⟨Tables.actions.getD x.1 [], x.2⟩ := by
      simp only [automaton, hq]
    rw [hrow] at hempty hdefault
    refine List.any_eq_true.mpr ⟨x, List.mem_of_getElem? hq, ?_⟩
    rw [show x.2 = .reduce r from hdefault, Bool.and_eq_true]
    exact ⟨hempty, by simp⟩

theorem shift_reads {q p : Nat} {t : TokenKind} (h : (automaton.row q).act (some t) = .shift p) :
    (automaton.row q).acts.isEmpty = false := by
  have hrow := row_all (fun _ row => shiftsOn (fun _ => false) row.default) (fun _ _ => rfl)
    (by decide +kernel) q
  by_contra hempty
  rw [Bool.not_eq_false] at hempty
  have hdefault : (automaton.row q).default = .shift p := by
    rw [← h]
    unfold Row.act
    rw [List.isEmpty_iff.mp hempty]
    rfl
  rw [hdefault] at hrow
  cases hrow

section
variable {t : List (Sigma TokenKind.Val × Location)} {eof : Location}
  {l : Derivation .statementList}

theorem Comes.yield (h : Comes t eof l) : l.yield = t.map Prod.fst := by
  obtain ⟨look, pos, hsteps⟩ := h
  have hspells := hsteps.inv (I := Config.Spells t) Config.step_spells rfl
  exact (List.append_nil _).symm.trans hspells

/-- The list is measured at the end, or, where it ends unread, behind its last token. -/
theorem Comes.place (h : Comes t eof l) : l.place = eof ∨
    l.endsUnread quick = true ∧ l.place = (t.getLast?.map Prod.snd).getD .zero := by
  obtain ⟨look, pos, hsteps⟩ := h
  obtain ⟨hlooks, hplaced, pre, hpre, hpos⟩ := hsteps.inv (I := fun c => c.Looks eof ∧
      c.Placed quick ∧ c.Behind Location.zero t)
    (fun hc hstep => ⟨Config.step_looks hc.1 hstep,
      Config.step_placed (fun h h' => quick_of_row h h') hc.2.1 hstep,
      Config.step_behind hc.1 (fun h => shift_reads h) hc.2.2 hstep⟩)
    ⟨fun h => (by cases h), ⟨fun _ _ _ _ h => (by cases h), fun _ _ _ _ _ h => (by cases h)⟩,
      [], rfl, fun _ => rfl⟩
  have hplace := hplaced.place 11 .statementList l [] rfl
  obtain rfl : t = pre := hpre.trans (List.append_nil pre)
  cases look with
  | true => exact .inl (hplace.trans (hlooks rfl))
  | false =>
    exact .inr ⟨hplaced.unread rfl 11 .statementList l [] rfl, hplace.trans (hpos rfl)⟩

end

/-! The statements that do. -/

/-- Tables, indices and triggers are created, rows of values inserted, tables and columns renamed,
and indices, triggers and names with a schema dropped by statements that end unread. -/
def endsUnread : List TokenKind → Bool
  | .kw .CREATE :: ts => ts.head? ≠ some (.kw .VIEW)
  | .kw .INSERT :: ts => .kw .VALUES ∈ ts
  | .kw .ALTER :: ts => .kw .RENAME ∈ ts
  | .kw .DROP :: ts => ts.head? = some (.kw .TRIGGER) ∨ ts.head? = some (.kw .INDEX) ∨ .ch '.' ∈ ts
  | _ => false

theorem node_endsUnread {n : NT} {r : grammar.Rule n} (h : quick r = false) (p : Location)
    (kids : Bison.Forest grammar TokenKind.Val Location (grammar.rhs r)) :
    (Bison.Tree.node r p kids).endsUnread quick = false := by
  rw [Tree.endsUnread, h, Bool.false_and]

theorem kids_endsUnread {n : NT} {r : grammar.Rule n} {p : Location}
    {kids : Bison.Forest grammar TokenKind.Val Location (grammar.rhs r)}
    (h : (Bison.Tree.node r p kids).endsUnread quick = true) : kids.endsUnread quick = true := by
  rw [Tree.endsUnread, Bool.and_eq_true] at h
  exact h.2

theorem endsUnread_eq_false {n : NT} (h : ∀ r : grammar.Rule n, quick r = false)
    (d : Derivation n) : d.endsUnread quick = false := by
  cases d with
  | node r p kids => exact node_endsUnread (h r) p kids

theorem quick_slow : ∀ n ∈ [NT.optLimit, .optWhere, .pragmaStatement],
    ∀ r : grammar.Rule n, quick r = false := by
  decide +kernel

theorem optLimit_endsUnread (d : Derivation .optLimit) : d.endsUnread quick = false :=
  endsUnread_eq_false (quick_slow _ (by decide)) d

theorem optWhere_endsUnread (d : Derivation .optWhere) : d.endsUnread quick = false :=
  endsUnread_eq_false (quick_slow _ (by decide)) d

theorem pragmaStatement_endsUnread (d : Derivation .pragmaStatement) :
    d.endsUnread quick = false := endsUnread_eq_false (quick_slow _ (by decide)) d

section
set_option maxRecDepth 2000

theorem selectNoParen_endsUnread (d : Derivation .selectNoParen) :
    d.endsUnread quick = false := by
  match d with
  | .node ⟨0, _⟩ p (.tree c (.tree o (.tree l .nil))) =>
    simp [Tree.endsUnread, Forest.endsUnread, optLimit_endsUnread]
  | .node ⟨1, _⟩ p (.tree c (.tree s (.tree u (.tree o (.tree l .nil))))) =>
    simp [Tree.endsUnread, Forest.endsUnread, optLimit_endsUnread]

theorem selectStatement_endsUnread (d : Derivation .selectStatement) :
    d.endsUnread quick = false := by
  match d with
  | .node ⟨0, _⟩ p (.tree s .nil) =>
    have hrule : quick (⟨0, by decide⟩ : grammar.Rule .selectStatement) = false := by
      decide
    exact node_endsUnread hrule p _
  | .node ⟨1, _⟩ p (.tree s .nil) =>
    simp [Tree.endsUnread, Forest.endsUnread, selectNoParen_endsUnread]
  | .node ⟨2, _⟩ p (.tree s (.tree t (.tree u (.tree o (.tree l .nil))))) =>
    simp [Tree.endsUnread, Forest.endsUnread, optLimit_endsUnread]

theorem columnDef_endsUnread (d : Derivation .columnDef) : d.endsUnread quick = false := by
  have hlist (d : Derivation .columnConstraintListNullable) : d.endsUnread quick = false :=
    endsUnread_eq_false (by decide) d
  match d with
  | .node ⟨0, _⟩ p (.tree n (.tree t (.tree l .nil))) =>
    simp [Tree.endsUnread, Forest.endsUnread, hlist]
  | .node ⟨1, _⟩ p (.tree n (.tree t (.token _ (.token i (.token _ (.tree l .nil)))))) =>
    simp [Tree.endsUnread, Forest.endsUnread, hlist]

theorem deleteStatement_endsUnread (d : Derivation .deleteStatement) :
    d.endsUnread quick = false := by
  match d with
  | .node ⟨0, _⟩ p (.token _ (.token _ (.tree n (.tree w .nil)))) =>
    simp [Tree.endsUnread, Forest.endsUnread, optWhere_endsUnread]

theorem updateStatement_endsUnread (d : Derivation .updateStatement) :
    d.endsUnread quick = false := by
  match d with
  | .node ⟨0, _⟩ p (.token _ (.tree t (.token _ (.tree u (.tree w .nil))))) =>
    simp [Tree.endsUnread, Forest.endsUnread, optWhere_endsUnread]

/-- A table's name that ends unread has a schema. -/
theorem mem_tableName {d : Derivation .tableName} (h : d.endsUnread quick = true) :
    .ch '.' ∈ d.yield.map Sigma.fst := by
  match d with
  | .node ⟨0, _⟩ p (.tree n .nil) =>
    have hrule : quick (⟨0, by decide⟩ : grammar.Rule .tableName) = false := by
      decide
    cases h.symm.trans (node_endsUnread hrule p _)
  | .node ⟨1, _⟩ p (.tree s (.token _ (.tree n .nil))) =>
    simp [Tree.yield, Forest.yield]

theorem optVirtual_yield : (d : Derivation .optVirtual) →
    .kw .VIEW ∉ d.yield.map Sigma.fst
  | .node ⟨0, _⟩ _ (.token _ .nil) => by simp [Tree.yield, Forest.yield]
  | .node ⟨1, _⟩ _ .nil => by simp [Tree.yield, Forest.yield]

theorem optTemporary_yield : (d : Derivation .optTemporary) →
    .kw .VIEW ∉ d.yield.map Sigma.fst
  | .node ⟨0, _⟩ _ (.token _ .nil) => by simp [Tree.yield, Forest.yield]
  | .node ⟨1, _⟩ _ (.token _ .nil) => by simp [Tree.yield, Forest.yield]
  | .node ⟨2, _⟩ _ .nil => by simp [Tree.yield, Forest.yield]

theorem optUnique_yield : (d : Derivation .optUnique) →
    .kw .VIEW ∉ d.yield.map Sigma.fst
  | .node ⟨0, _⟩ _ (.token _ .nil) => by simp [Tree.yield, Forest.yield]
  | .node ⟨1, _⟩ _ .nil => by simp [Tree.yield, Forest.yield]

/-- What is created is a view only if `VIEW` comes next. -/
theorem endsUnread_create {ts us : List TokenKind} {t : TokenKind} (hts : .kw .VIEW ∉ ts)
    (ht : t ≠ .kw .VIEW) : endsUnread (.kw .CREATE :: (ts ++ t :: us)) = true := by
  cases ts with
  | nil => simpa [endsUnread] using ht
  | cons x ts =>
    have hx : x ≠ .kw .VIEW := fun h => hts (h ▸ List.mem_cons_self)
    simpa [endsUnread] using hx

theorem create_endsUnread {d : Derivation .createStatement} (h : d.endsUnread quick = true) :
    endsUnread (d.yield.map Sigma.fst) = true := by
  match d with
  | .node ⟨0, _⟩ p (.token _ (.tree v (.tree t (.token _ kids)))) =>
    have hnone : .kw .VIEW ∉ v.yield.map Sigma.fst ++ t.yield.map Sigma.fst := by
      simp [optVirtual_yield, optTemporary_yield]
    simpa [Tree.yield, Forest.yield] using endsUnread_create (t := .kw .TABLE) hnone (by decide)
  | .node ⟨1, _⟩ p (.token _ (.token _ (.tree e (.tree n (.tree c (.token _ (.tree s .nil))))))) =>
    simp [Tree.endsUnread, Forest.endsUnread, selectStatement_endsUnread] at h
  | .node ⟨2, _⟩ p (.token _ (.tree u (.token _ kids))) =>
    simpa [Tree.yield, Forest.yield] using
      endsUnread_create (t := .kw .INDEX) (optUnique_yield u) (by decide)
  | .node ⟨3, _⟩ p (.token _ (.token _ kids)) => rfl

theorem insert_endsUnread {d : Derivation .insertStatement} (h : d.endsUnread quick = true) :
    endsUnread (d.yield.map Sigma.fst) = true := by
  match d with
  | .node ⟨0, _⟩ p (.token _ (.tree o (.token _ (.tree n (.tree c (.token _ kids)))))) =>
    simp [Tree.yield, Forest.yield, endsUnread]
  | .node ⟨1, _⟩ p (.token _ (.tree o (.token _ (.tree n (.tree c (.tree s .nil)))))) =>
    simp [Tree.endsUnread, Forest.endsUnread, selectNoParen_endsUnread] at h

theorem alter_endsUnread {d : Derivation .alterStatement} (h : d.endsUnread quick = true) :
    endsUnread (d.yield.map Sigma.fst) = true := by
  match d with
  | .node ⟨0, _⟩ p (.token _ (.token _ (.tree n (.token _ kids)))) =>
    simp [Tree.yield, Forest.yield, endsUnread]
  | .node ⟨1, _⟩ p (.token _ (.token _ (.tree n (.token _ kids)))) =>
    simp [Tree.yield, Forest.yield, endsUnread]
  | .node ⟨2, _⟩ p (.token _ (.token _ (.tree n (.token _ (.tree c .nil))))) =>
    simp [Tree.endsUnread, Forest.endsUnread, columnDef_endsUnread] at h

theorem drop_endsUnread {d : Derivation .dropStatement} (h : d.endsUnread quick = true) :
    endsUnread (d.yield.map Sigma.fst) = true := by
  match d with
  | .node ⟨0, _⟩ p (.token _ (.token _ (.tree e (.tree n .nil)))) =>
    have hname := mem_tableName (d := n) (kids_endsUnread h)
    simp [Tree.yield, Forest.yield, endsUnread, hname]
  | .node ⟨1, _⟩ p (.token _ (.token _ (.tree e (.tree n .nil)))) =>
    have hname := mem_tableName (d := n) (kids_endsUnread h)
    simp [Tree.yield, Forest.yield, endsUnread, hname]
  | .node ⟨2, _⟩ p (.token _ (.token _ kids)) => rfl
  | .node ⟨3, _⟩ p (.token _ (.token _ kids)) => rfl

theorem statement_endsUnread {d : Derivation .statement} (h : d.endsUnread quick = true) :
    endsUnread (d.yield.map Sigma.fst) = true := by
  match d with
  | .node ⟨0, _⟩ p (.tree s .nil) => cases (selectStatement_endsUnread s).symm.trans (kids_endsUnread h)
  | .node ⟨1, _⟩ p (.tree s .nil) =>
    simpa [Tree.yield, Forest.yield] using create_endsUnread (kids_endsUnread h)
  | .node ⟨2, _⟩ p (.tree s .nil) =>
    simpa [Tree.yield, Forest.yield] using insert_endsUnread (kids_endsUnread h)
  | .node ⟨3, _⟩ p (.tree s .nil) => cases (deleteStatement_endsUnread s).symm.trans (kids_endsUnread h)
  | .node ⟨4, _⟩ p (.tree s .nil) => cases (updateStatement_endsUnread s).symm.trans (kids_endsUnread h)
  | .node ⟨5, _⟩ p (.tree s .nil) =>
    simpa [Tree.yield, Forest.yield] using drop_endsUnread (kids_endsUnread h)
  | .node ⟨6, _⟩ p (.tree s .nil) => cases (pragmaStatement_endsUnread s).symm.trans (kids_endsUnread h)
  | .node ⟨7, _⟩ p (.tree s .nil) =>
    simpa [Tree.yield, Forest.yield] using alter_endsUnread (kids_endsUnread h)

end
end Hsql
