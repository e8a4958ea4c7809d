import Hsql.Bison.Losses
import Hsql.Parser.Parameters

/-! Which of the nodes that a text asks for end up in its statements. Two actions lose some: a set
operation overwrites clauses of a parenthesised query, and a column keeps one `DEFAULT` only. -/

namespace Hsql
open Bison Vals Node

inductive Kind where
  | select
  | order
  | limit
  | param
deriving DecidableEq

def Addr.kind : Addr → Kind
  | .select _ => .select
  | .order _ => .order
  | .limit _ => .limit
  | .param _ => .param

/-- The kind of node that an action makes. -/
def makes : (n : NT) → Fin (productions n).length → Option Kind
  | .selectClause, _ => some .select
  | .orderDesc, _ => some .order
  | .optLimit, r => if r.1 < 3 then some .limit else none
  | .paramExpr, r => if r.1 = 0 then some .param else none
  | _, _ => none

section
variable (K : Kind → Bool)

/-- How many nodes of these kinds an action makes. -/
def made (n : NT) (r : Fin (productions n).length) : ℕ := if (makes n r).any K then 1 else 0

/-- What the text of a symbol asks for: the number of nodes of some kinds, and those of them that
later actions can lose. -/
structure Clauses where
  all : ℕ := 0
  /-- In the parts of a query that a set operation behind it overwrites. -/
  union : ℕ := 0
  order : ℕ := 0
  limit : ℕ := 0
  hasLimit : Bool := false
  /-- In each `DEFAULT`. -/
  defaults : List ℕ := []

abbrev ClausesOf (rhs : List Sym) := Vals TokenKind.Val (fun _ => Clauses) rhs

def selectWithParenClauses : (r : Fin selectWithParenRules.length) →
    ClausesOf (selectWithParenRules.get r).rhs → Clauses
  | ⟨0, _⟩, (_, s, _) => s
  | ⟨1, _⟩, (_, s, _) => s

def selectNoParenClauses : (r : Fin selectNoParenRules.length) →
    ClausesOf (selectNoParenRules.get r).rhs → Clauses
  | ⟨0, _⟩, (_, o, l, _) => { order := o.all, limit := l.all }
  | ⟨1, _⟩, (_, _, u, o, l, _) => { union := u.all, order := o.all, limit := l.all }

def columnConstraintClauses : (r : Fin columnConstraintRules.length) →
    ClausesOf (columnConstraintRules.get r).rhs → Clauses
  | ⟨4, _⟩, (_, e, _) => { defaults := [e.all] }
  | _, _ => {}

def columnConstraintListClauses : (r : Fin columnConstraintListRules.length) →
    ClausesOf (columnConstraintListRules.get r).rhs → Clauses
  | ⟨0, _⟩, (c, _) => { defaults := c.defaults }
  | ⟨1, _⟩, (l, c, _) => { defaults := l.defaults ++ c.defaults }

def columnConstraintListNullableClauses : (r : Fin columnConstraintListNullableRules.length) →
    ClausesOf (columnConstraintListNullableRules.get r).rhs → Clauses
  | ⟨0, _⟩, (l, _) => { defaults := l.defaults }
  | ⟨1, _⟩, _ => {}

def openClauses : (n : NT) → (r : Fin (productions n).length) →
    ClausesOf ((productions n).get r).rhs → Clauses
  | .selectWithParen => selectWithParenClauses
  | .selectNoParen => selectNoParenClauses
  | .optLimit => fun r _ => { hasLimit := (makes .optLimit r).isSome }
  | .columnConstraint => columnConstraintClauses
  | .columnConstraintList => columnConstraintListClauses
  | .columnConstraintListNullable => columnConstraintListNullableClauses
  | _ => fun _ _ => {}

def clauses {n : NT} (r : grammar.Rule n) (_ : Location) (as : ClausesOf (grammar.rhs r)) : Clauses :=
  { openClauses n r as with all := as.sum (fun _ a => a.all) + made K n r }

/-- The action of a set operation loses nothing: what it overwrites was not there. -/
def selectStatementKeeps : (r : Fin selectStatementRules.length) →
    ClausesOf (selectStatementRules.get r).rhs → Prop
  | ⟨2, _⟩, (s, _, _, _, l, _) => s.union = 0 ∧ s.order = 0 ∧ (l.hasLimit = true → s.limit = 0)
  | _, _ => True

/-- The action of a column loses nothing: only the last `DEFAULT` counts. -/
def columnDefKeeps : (r : Fin columnDefRules.length) →
    ClausesOf (columnDefRules.get r).rhs → Prop
  | ⟨0, _⟩, (_, _, l, _) => ∀ k ∈ l.defaults.dropLast, k = 0
  | ⟨1, _⟩, (_, _, _, _, _, l, _) => ∀ k ∈ l.defaults.dropLast, k = 0

def keepsClauses : {n : NT} → (r : grammar.Rule n) → ClausesOf (grammar.rhs r) → Prop
  | .selectStatement => selectStatementKeeps
  | .columnDef => columnDefKeeps
  | _ => fun _ _ => True

instance decidableSelectStatementKeeps (r : Fin selectStatementRules.length)
    (as : ClausesOf (selectStatementRules.get r).rhs) : Decidable (selectStatementKeeps r as) :=
  match r, as with
  | ⟨0, _⟩, _ | ⟨1, _⟩, _ => .isTrue trivial
  | ⟨2, _⟩, (s, _, _, _, l, _) =>
    inferInstanceAs (Decidable (s.union = 0 ∧ s.order = 0 ∧ (l.hasLimit = true → s.limit = 0)))

instance decidableColumnDefKeeps (r : Fin columnDefRules.length)
    (as : ClausesOf (columnDefRules.get r).rhs) : Decidable (columnDefKeeps r as) :=
  match r, as with
  | ⟨0, _⟩, (_, _, l, _) => inferInstanceAs (Decidable (∀ k ∈ l.defaults.dropLast, k = 0))
  | ⟨1, _⟩, (_, _, _, _, _, l, _) =>
    inferInstanceAs (Decidable (∀ k ∈ l.defaults.dropLast, k = 0))

instance {n : NT} (r : grammar.Rule n) (as : ClausesOf (grammar.rhs r)) :
    Decidable (keepsClauses r as) := by
  cases n with
  | selectStatement => exact decidableSelectStatementKeeps r as
  | columnDef => exact decidableColumnDefKeeps r as
  | _ => exact .isTrue trivial

/-! What the values of the symbols have of it. -/

/-- The nodes of these kinds that are reachable, each as often as it is reached. -/
noncomputable def count (l : List Node) : ℕ := (Node.addrs l).countP fun a => K a.kind

@[simp] theorem count_nil : count K [] = 0 := Multiset.countP_zero _

@[simp] theorem count_append (l l' : List Node) : count K (l ++ l') = count K l + count K l' := by
  have hadd := addrs_append l l'
  rw [count, hadd, Multiset.countP_add]
  rfl

theorem count_flatMap_eq_zero (l : List (Option Expr)) :
    count K (l.flatMap (ptr .expr)) = 0 ↔ ∀ k ∈ l.map fun e => count K (ptr .expr e), k = 0 := by
  induction l with
  | nil => simp
  | cons e l ih =>
    rw [List.flatMap_cons, count_append, Nat.add_eq_zero_iff, ih, List.map_cons, List.forall_mem_cons]

/-- The numbers of a text are those of its value: of the parts that later actions can lose. -/
def OpenDescribed : (n : NT) → Clauses → n.Val → Prop
  | .selectWithParen | .selectNoParen => fun a v => ∀ s, v = some s →
      count K (ptr .select s.unionSelect) = a.union ∧ count K (vec .order s.order) = a.order ∧
        count K (ptr .limit s.limit) = a.limit
  | .optLimit => fun a v => v.isSome = a.hasLimit
  | .columnConstraint => fun a v => a.defaults = (defaults [v]).map fun e => count K (ptr .expr e)
  | .columnConstraintList | .columnConstraintListNullable => fun a v =>
      ∀ l, v = some l → a.defaults = (defaults l).map fun e => count K (ptr .expr e)
  | _ => fun _ _ => True

/-- The numbers of a text are those of its value. The input's nodes are with the result. -/
structure Described (n : NT) (a : Clauses) (v : n.Val) : Prop where
  all : n ≠ .input → count K (n.nodes v) = a.all
  opened : OpenDescribed K n a v

noncomputable def madeCount (s : ParserState) : ℕ := s.heap.made.countP fun a => K a.kind

/-- What is lost on the way to the result. -/
noncomputable def lostCount {n : NT} (r : grammar.Rule n)
    (vs : Vals TokenKind.Val NT.Val (grammar.rhs r)) : ℕ :=
  if n = .input then 0 else (lost n r vs).countP fun a => K a.kind

theorem madeCount_eq {s s' : ParserState} {a : Addr} (h : s'.heap.made = {a} + s.heap.made) :
    madeCount K s' = madeCount K s + if K a.kind then 1 else 0 := by
  have hcount : Multiset.countP (fun a => K a.kind = true) {a} = if K a.kind then 1 else 0 := by
    rw [← Multiset.cons_zero, Multiset.countP_cons, Multiset.countP_zero, zero_add]
  rw [madeCount, h, Multiset.countP_add, hcount, add_comm]
  rfl

theorem actions_make : actions.Makes (madeCount K) fun {n} r => made K n r := by
  intro n r p vs s v s' h
  have hchanges := changes (List.get_mem _ r) h
  cases n with
  | input =>
    obtain ⟨stmts, rfl⟩ := hchanges
    rfl
  | statementList =>
    obtain rfl : s' = _ := hchanges
    rfl
  | selectClause =>
    obtain rfl : s' = _ := hchanges
    exact madeCount_eq K (made_newSelect s)
  | orderDesc =>
    obtain rfl : s' = _ := hchanges
    exact madeCount_eq K (made_newOrder s)
  | optLimit =>
    match r, vs, h with
    | ⟨0, _⟩, vs, h =>
      obtain rfl := (Prod.mk.inj (Option.some.inj h)).2
      exact madeCount_eq K (made_newLimit s)
    | ⟨1, _⟩, vs, h =>
      obtain rfl := (Prod.mk.inj (Option.some.inj h)).2
      exact madeCount_eq K (made_newLimit s)
    | ⟨2, _⟩, vs, h =>
      obtain rfl := (Prod.mk.inj (Option.some.inj h)).2
      exact madeCount_eq K (made_newLimit s)
    | ⟨3, _⟩, vs, h =>
      obtain rfl := (Prod.mk.inj (Option.some.inj h)).2
      rfl
  | paramExpr =>
    match r, vs, h with
    | ⟨0, _⟩, vs, h =>
      obtain rfl := (Prod.mk.inj (Option.some.inj h)).2
      exact madeCount_eq K (made_newParam s)
    | ⟨1, _⟩, vs, h =>
      obtain rfl := (Prod.mk.inj (Option.some.inj h)).2
      rfl
  | _ =>
    obtain rfl : s' = _ := hchanges
    rfl

theorem count_spec {n : NT} (r : grammar.Rule n) {p : Location}
    {vs : Vals TokenKind.Val NT.Val (grammar.rhs r)} {s s' : ParserState} {v : n.Val}
    (hvs : vs.All NT.Given) (h : actions.act r vs p s = some (v, s')) :
    count K (n.nodes v) + (lost n r vs).countP (fun a => K a.kind) + madeCount K s =
      vs.sum (fun n v => count K (n.nodes v)) + madeCount K s' := by
  obtain ⟨-, -, heq⟩ := spec n r vs hvs p s v s' h
  have hcount := congrArg (Multiset.countP fun a : Addr => K a.kind = true) heq
  have hsum := Vals.sum_hom (Multiset.countPAddMonoidHom fun a : Addr => K a.kind = true) NT.addrs vs
  simp only [Multiset.countP_add] at hcount
  exact hcount.trans (congrArg (· + madeCount K s') hsum)

theorem actions_account : actions.Accounts NT.Given (· ≠ .input) (fun n v => count K (n.nodes v))
    (madeCount K) fun r vs => lostCount K r vs := by
  intro n r p vs s v s' hn hvs h
  have hlost : lostCount K r vs = (lost n r vs).countP fun a => K a.kind := if_neg hn
  dsimp only
  rw [hlost]
  exact count_spec K r hvs h

theorem all_described {n : NT} (hn : n ≠ .input) (r : grammar.Rule n) {p : Location}
    {as : ClausesOf (grammar.rhs r)} {vs : Vals TokenKind.Val NT.Val (grammar.rhs r)}
    {s s' : ParserState} {v : n.Val} (hrel : Vals.Rel (Described K) as vs) (hvs : vs.All NT.Given)
    (h : actions.act r vs p s = some (v, s')) (hlost : lostCount K r vs = 0) :
    count K (n.nodes v) = (clauses K r p as).all := by
  have haccount : count K (n.nodes v) + lostCount K r vs + madeCount K s =
      vs.sum (fun n v => count K (n.nodes v)) + madeCount K s' :=
    actions_account K r p vs s v s' hn hvs h
  have hmade : madeCount K s' = madeCount K s + made K n r := actions_make K r p vs s v s' h
  have hsum : as.sum (fun _ a => a.all) = vs.sum fun n v => count K (n.nodes v) := by
    refine hrel.sum fun m hm a v hav => ?_
    have hmem : m ≠ .input := by
      rintro rfl
      exact not_mem_rhs_input n r hm
    exact (hav.all hmem).symm
  show count K (n.nodes v) = as.sum (fun _ a => a.all) + made K n r
  omega

theorem open_selectWithParen (r : grammar.Rule .selectWithParen) {p : Location}
    {as : ClausesOf (grammar.rhs r)} {vs : Vals TokenKind.Val NT.Val (grammar.rhs r)}
    {s s' : ParserState} {v : NT.selectWithParen.Val} (hrel : Vals.Rel (Described K) as vs)
    (h : actions.act r vs p s = some (v, s')) :
    OpenDescribed K .selectWithParen (clauses K r p as) v := by
  match r, as, vs, hrel, h with
  | ⟨0, _⟩, as, vs, hrel, h =>
    obtain rfl := (Prod.mk.inj (Option.some.inj h)).1
    exact hrel.2.1.opened
  | ⟨1, _⟩, as, vs, hrel, h =>
    obtain rfl := (Prod.mk.inj (Option.some.inj h)).1
    exact hrel.2.1.opened

theorem open_selectNoParen (r : grammar.Rule .selectNoParen) {p : Location}
    {as : ClausesOf (grammar.rhs r)} {vs : Vals TokenKind.Val NT.Val (grammar.rhs r)}
    {s s' : ParserState} {v : NT.selectNoParen.Val} (hrel : Vals.Rel (Described K) as vs)
    (hvs : vs.All NT.Given) (h : actions.act r vs p s = some (v, s')) :
    OpenDescribed K .selectNoParen (clauses K r p as) v := by
  match r, as, vs, hrel, hvs, h with
  | ⟨0, _⟩, as, vs, hrel, hvs, h =>
    obtain ⟨y, hy, hu, -, hl⟩ : NT.selectClause.Given vs.1 := hvs.1
    have horder : count K (vec .order vs.2.1) = as.2.1.all := hrel.2.1.all (by decide)
    have hlimit : count K (ptr .limit vs.2.2.1) = as.2.2.1.all := hrel.2.2.1.all (by decide)
    obtain ⟨w, hw, heq⟩ := Option.map_eq_some_iff.mp h
    obtain ⟨z, hz, rfl⟩ := Option.map_eq_some_iff.mp hw
    obtain rfl := (Prod.mk.inj heq).1
    obtain rfl := Option.some.inj (hy.symm.trans hz)
    intro t ht
    cases ht
    rw [setLimit_eq, hl, Option.or_none]
    exact ⟨by rw [hu]; exact count_nil K, horder, hlimit⟩
  | ⟨1, _⟩, as, vs, hrel, hvs, h =>
    obtain ⟨y, hy, -, -, hl⟩ : NT.selectClause.Given vs.1 := hvs.1
    have hunion : count K (ptr .select vs.2.2.1) = as.2.2.1.all := hrel.2.2.1.all (by decide)
    have horder : count K (vec .order vs.2.2.2.1) = as.2.2.2.1.all := hrel.2.2.2.1.all (by decide)
    have hlimit : count K (ptr .limit vs.2.2.2.2.1) = as.2.2.2.2.1.all :=
      hrel.2.2.2.2.1.all (by decide)
    obtain ⟨w, hw, heq⟩ := Option.map_eq_some_iff.mp h
    obtain ⟨z, hz, rfl⟩ := Option.map_eq_some_iff.mp hw
    obtain rfl := (Prod.mk.inj heq).1
    obtain rfl := Option.some.inj (hy.symm.trans hz)
    intro t ht
    cases ht
    rw [SelectStatement.union, setLimit_eq, hl, Option.or_none]
    exact ⟨hunion, horder, hlimit⟩

theorem open_optLimit (r : grammar.Rule .optLimit) {p : Location}
    {as : ClausesOf (grammar.rhs r)} {vs : Vals TokenKind.Val NT.Val (grammar.rhs r)}
    {s s' : ParserState} {v : NT.optLimit.Val} (h : actions.act r vs p s = some (v, s')) :
    OpenDescribed K .optLimit (clauses K r p as) v := by
  match r, as, vs, h with
  | ⟨0, _⟩, as, vs, h | ⟨1, _⟩, as, vs, h | ⟨2, _⟩, as, vs, h | ⟨3, _⟩, as, vs, h =>
    obtain rfl := (Prod.mk.inj (Option.some.inj h)).1
    rfl

theorem open_columnConstraint (r : grammar.Rule .columnConstraint) {p : Location}
    {as : ClausesOf (grammar.rhs r)} {vs : Vals TokenKind.Val NT.Val (grammar.rhs r)}
    {s s' : ParserState} {v : NT.columnConstraint.Val} (hrel : Vals.Rel (Described K) as vs)
    (h : actions.act r vs p s = some (v, s')) :
    OpenDescribed K .columnConstraint (clauses K r p as) v := by
  match r, as, vs, hrel, h with
  | ⟨4, _⟩, as, vs, hrel, h =>
    have hexpr : count K (ptr .expr vs.2.1) = as.2.1.all := hrel.2.1.all (by decide)
    obtain rfl := (Prod.mk.inj (Option.some.inj h)).1
    exact congrArg (fun k => [k]) hexpr.symm
  | ⟨0, _⟩, as, vs, hrel, h | ⟨1, _⟩, as, vs, hrel, h | ⟨2, _⟩, as, vs, hrel, h
  | ⟨3, _⟩, as, vs, hrel, h | ⟨5, _⟩, as, vs, hrel, h | ⟨6, _⟩, as, vs, hrel, h =>
    obtain rfl := (Prod.mk.inj (Option.some.inj h)).1
    rfl

theorem defaults_append (l l' : List (Option ColumnConstraint)) :
    defaults (l ++ l') = defaults l ++ defaults l' := List.filterMap_append

theorem open_columnConstraintList (r : grammar.Rule .columnConstraintList) {p : Location}
    {as : ClausesOf (grammar.rhs r)} {vs : Vals TokenKind.Val NT.Val (grammar.rhs r)}
    {s s' : ParserState} {v : NT.columnConstraintList.Val} (hrel : Vals.Rel (Described K) as vs)
    (h : actions.act r vs p s = some (v, s')) :
    OpenDescribed K .columnConstraintList (clauses K r p as) v := by
  match r, as, vs, hrel, h with
  | ⟨0, _⟩, as, vs, hrel, h =>
    obtain rfl := (Prod.mk.inj (Option.some.inj h)).1
    intro l hl
    cases hl
    exact hrel.1.opened
  | ⟨1, _⟩, as, vs, hrel, h =>
    obtain ⟨w, hw, heq⟩ := Option.map_eq_some_iff.mp h
    obtain rfl := (Prod.mk.inj heq).1
    obtain ⟨l, hl, rfl⟩ := Option.map_eq_some_iff.mp hw
    intro l' hl'
    cases hl'
    have hlist : as.1.defaults = (defaults l).map fun e => count K (ptr .expr e) :=
      hrel.1.opened l hl
    have hlast : as.2.1.defaults = (defaults [vs.2.1]).map fun e => count K (ptr .expr e) :=
      hrel.2.1.opened
    rw [defaults_append, List.map_append, ← hlist, ← hlast]
    rfl

theorem open_columnConstraintListNullable (r : grammar.Rule .columnConstraintListNullable)
    {p : Location} {as : ClausesOf (grammar.rhs r)}
    {vs : Vals TokenKind.Val NT.Val (grammar.rhs r)} {s s' : ParserState}
    {v : NT.columnConstraintListNullable.Val} (hrel : Vals.Rel (Described K) as vs)
    (h : actions.act r vs p s = some (v, s')) :
    OpenDescribed K .columnConstraintListNullable (clauses K r p as) v := by
  match r, as, vs, hrel, h with
  | ⟨0, _⟩, as, vs, hrel, h =>
    obtain rfl := (Prod.mk.inj (Option.some.inj h)).1
    exact hrel.1.opened
  | ⟨1, _⟩, as, vs, hrel, h =>
    obtain rfl := (Prod.mk.inj (Option.some.inj h)).1
    intro l hl
    cases hl
    rfl

theorem clauses_describe {n : NT} (r : grammar.Rule n) (p : Location)
    (as : ClausesOf (grammar.rhs r)) (vs : Vals TokenKind.Val NT.Val (grammar.rhs r))
    (s : ParserState) (v : n.Val) (s' : ParserState) (hrel : Vals.Rel (Described K) as vs)
    (hvs : vs.All NT.Given) (h : actions.act r vs p s = some (v, s'))
    (hkeeps : lostCount K r vs = 0) : Described K n (clauses K r p as) v := by
  refine ⟨fun hn => all_described K hn r hrel hvs h hkeeps, ?_⟩
  cases n with
  | selectWithParen => exact open_selectWithParen K r hrel h
  | selectNoParen => exact open_selectNoParen K r hrel hvs h
  | optLimit => exact open_optLimit K r h
  | columnConstraint => exact open_columnConstraint K r hrel h
  | columnConstraintList => exact open_columnConstraintList K r hrel h
  | columnConstraintListNullable => exact open_columnConstraintListNullable K r hrel h
  | _ => trivial

/-! Where nothing is lost. -/

theorem superseded_iff {l : Option (List (Option ColumnConstraint))} {a : Clauses}
    (hgiven : NT.columnConstraintListNullable.Given l)
    (h : OpenDescribed K .columnConstraintListNullable a l) :
    count K (superseded l) = 0 ↔ ∀ k ∈ a.defaults.dropLast, k = 0 := by
  obtain ⟨cs, rfl, -⟩ := hgiven
  have hdefaults : a.defaults = (defaults cs).map fun e => count K (ptr .expr e) := h cs rfl
  rw [hdefaults, ← List.map_dropLast]
  exact count_flatMap_eq_zero K (defaults cs).dropLast

theorem overwritten_iff {s : SelectStatement} {limit : Option LimitDescription} {a b : Clauses}
    (h : OpenDescribed K .selectWithParen a (some s)) (hlimit : OpenDescribed K .optLimit b limit) :
    count K (s.overwritten limit) = 0 ↔
      a.union = 0 ∧ a.order = 0 ∧ (b.hasLimit = true → a.limit = 0) := by
  obtain ⟨hu, ho, hl⟩ := h s rfl
  have hlimit : limit.isSome = b.hasLimit := hlimit
  rw [← hlimit, SelectStatement.overwritten, count_append, count_append, hu, ho]
  by_cases hsome : limit.isSome = true
  · simp [hsome, hl, and_assoc]
  · simp [hsome]

theorem lost_iff {n : NT} (r : grammar.Rule n) (as : ClausesOf (grammar.rhs r))
    (vs : Vals TokenKind.Val NT.Val (grammar.rhs r)) (hrel : Vals.Rel (Described K) as vs)
    (hvs : vs.All NT.Given) : lostCount K r vs = 0 ↔ keepsClauses r as := by
  cases n with
  | input => exact iff_of_true rfl trivial
  | selectStatement =>
    match r, as, vs, hrel, hvs with
    | ⟨0, _⟩, as, vs, hrel, hvs | ⟨1, _⟩, as, vs, hrel, hvs =>
      exact iff_of_true (Multiset.countP_zero fun a : Addr => K a.kind = true) trivial
    | ⟨2, _⟩, as, vs, hrel, hvs =>
      obtain ⟨y, hy⟩ := Option.isSome_iff_exists.mp (show vs.1.isSome from hvs.1)
      have hleft : OpenDescribed K .selectWithParen as.1 (some y) := hy ▸ hrel.1.opened
      have hlimit : OpenDescribed K .optLimit as.2.2.2.2.1 vs.2.2.2.2.1 := hrel.2.2.2.2.1.opened
      have hlost : lostCount K (⟨2, by decide⟩ : grammar.Rule .selectStatement) vs =
          count K (y.overwritten vs.2.2.2.2.1) := by
        show (vs.1.elim 0 fun s => Node.addrs (s.overwritten vs.2.2.2.2.1)).countP _ = _
        rw [hy]
        rfl
      rw [hlost]
      exact overwritten_iff K hleft hlimit
  | columnDef =>
    match r, as, vs, hrel, hvs with
    | ⟨0, _⟩, as, vs, hrel, hvs => exact superseded_iff K hvs.2.2.1 hrel.2.2.1.opened
    | ⟨1, _⟩, as, vs, hrel, hvs =>
      exact superseded_iff K hvs.2.2.1 hrel.2.2.2.2.2.1.opened
  | _ => exact iff_of_true (Multiset.countP_zero fun a : Addr => K a.kind = true) trivial


theorem actions_own : actions.Owns NT.Given NT.addrs fun s : ParserState => s.heap.made := by
  intro n r p vs s v s' hvs h
  obtain ⟨-, -, heq⟩ := spec n r vs hvs p s v s' h
  calc n.addrs v + s.heap.made ≤ n.addrs v + lost n r vs + s.heap.made :=
        add_le_add_left (Multiset.le_add_right _ _) _
    _ = vs.sum NT.addrs + s'.heap.made := heq

theorem eval_optSemicolon (d : Derivation .optSemicolon) (s : ParserState) :
    d.eval actions s = some ((), s) ∧ d.Each (clauses K) keepsClauses := by
  match d with
  | .node ⟨0, _⟩ p (.token a .nil) => exact ⟨rfl, trivial, trivial⟩
  | .node ⟨1, _⟩ p .nil => exact ⟨rfl, trivial, trivial⟩

/-- The nodes of these kinds that a derivation makes are all reachable exactly if it keeps its
clauses. -/
theorem count_eq_iff {d : Derivation .input} {s s' : ParserState}
    (h : d.eval actions s = some ((), s')) : ∃ stmts,
      s'.result.statements = s.result.statements ++ stmts ∧
        Node.addrs (vec .statement (some stmts)) + s.heap.made ≤ s'.heap.made ∧
          (count K (vec .statement (some stmts)) + madeCount K s = madeCount K s' ↔
            d.Each (clauses K) keepsClauses) := by
  obtain ⟨p, list, semicolon, stmts, s₁, s₂, rfl, hlist, hsemi, rfl⟩ := Derivation.eval_input h
  have hstatements : (s₂.finish stmts).result.statements = s.result.statements ++ stmts := by
    rw [ParserState.statements_finish, Derivation.result_eq (by decide) semicolon hsemi,
      Derivation.result_eq (by decide) list hlist]
  obtain ⟨hsemi', hsemiEach⟩ := eval_optSemicolon K semicolon s₁
  obtain rfl : s₁ = s₂ := (Prod.mk.inj (Option.some.inj (hsemi'.symm.trans hsemi))).2
  have hrhs : ∀ {n : NT} (r : grammar.Rule n), n ≠ .input → ∀ m, .nonterminal m ∈ grammar.rhs r →
      m ≠ .input := by
    rintro n r - m hm rfl
    exact not_mem_rhs_input n r hm
  have howns := list.eval_owns preserves_given actions_own hlist
  obtain ⟨-, hcount⟩ := list.eval_accounts preserves_given hrhs (actions_account K) (by decide) hlist
  obtain ⟨heach, -⟩ := list.throughout_iff preserves_given (clauses_describe K) (lost_iff K) hlist
  have hdown : (.node ⟨0, by decide⟩ p (.tree list (.tree semicolon .nil)) :
      Derivation .input).Each (clauses K) keepsClauses ↔ list.Each (clauses K) keepsClauses :=
    ⟨fun h => h.1.1, fun h => ⟨⟨h, hsemiEach, trivial⟩, trivial⟩⟩
  exact ⟨stmts, hstatements, howns, hcount.trans (heach.trans hdown.symm)⟩

end
end Hsql
