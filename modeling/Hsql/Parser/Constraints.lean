import Hsql.Parser.KeyClause
import Hsql.Parser.Sign

/-! Column definitions: what the parser makes of a list of constraints, in every order of it. -/

namespace Hsql
open Bison NT Keyword TokenKind
open Hsql.Expr (makeOpUnary)

/-! Constraints. -/

inductive Constraint where
  | primaryKey
  | notNull
  | notNullWord
  | unique
  | autoIncrement
  | default (signed : Bool) (x : Scalar)
  | references (f : KeyClause)

namespace Constraint

def tokens : Constraint → List Token
  | primaryKey => [.kw PRIMARY, .kw KEY]
  | notNull => [.kw NOT, .kw NULL]
  | notNullWord => [.kw NOTNULL]
  | unique => [.kw UNIQUE]
  | autoIncrement => [.kw AUTOINCREMENT]
  | default signed x => .kw DEFAULT :: (if signed then .ch '-' :: x.tokens else x.tokens)
  | references f => f.tokens

def value (s : ParserState) : Constraint → ColumnConstraint
  | primaryKey => .new .PRIMARYKEY
  | notNull | notNullWord => .new .NOTNULL
  | unique => .new .UNIQUE
  | autoIncrement => .new .AUTOINCREMENT
  | default signed x => .withExpr .DEFAULT
      (some (if signed then makeOpUnary .kOpUnaryMinus (some (x.value s)) else x.value s))
  | references f => .withConstraint .FOREIGNKEY (some f.value)

def after (s : ParserState) : Constraint → ParserState → Prop
  | default _ x, s' => x.after s s'
  | _, s' => s' = s

def reading (c : Constraint) (s : ParserState) (v : ColumnConstraint) (s' : ParserState) : Prop :=
  v = c.value s ∧ c.after s s'

/-- A NOT behind the constraint would belong to it. -/
def Open : Constraint → Prop
  | default _ _ => True
  | references f => f.deferral = .none
  | _ => False

def IsDefault : Constraint → Prop
  | default _ _ => True
  | _ => False

def IsReferences : Constraint → Prop
  | references _ => True
  | _ => False

end Constraint

theorem ahead_deferral {d : Deferral} {xs rest : List (Sigma TokenKind.Val × Location)}
    (hxs : Spell xs d.tokens) (hends : ahead rest ∈ behindConstraint) :
    ahead (xs ++ rest) ∈ some (.kw DEFERRABLE) :: behindConstraint := by
  cases d with
  | none =>
    obtain rfl := hxs.nil
    exact List.mem_cons_of_mem _ hends
  | deferrable | deferred | immediate =>
    obtain ⟨loc, xs₁, rfl, -⟩ := hxs.cons
    exact List.mem_cons_self
  | notDeferrable | notDeferred | notImmediate =>
    obtain ⟨loc, xs₁, rfl, -⟩ := hxs.cons
    exact List.mem_cons_of_mem _ (by decide : some (.kw NOT) ∈ behindConstraint)

theorem ahead_events {es : List KeyEvent} {xs rest : List (Sigma TokenKind.Val × Location)}
    (hxs : Spell xs (es.flatMap KeyEvent.tokens))
    (hends : ahead rest ∈ some (.kw DEFERRABLE) :: behindConstraint) : ahead (xs ++ rest) ∈ behindColumns := by
  cases es with
  | nil =>
    obtain rfl := hxs.nil
    exact List.mem_cons_of_mem _ (List.mem_cons_of_mem _ hends)
  | cons e es =>
    obtain ⟨ys, zs, rfl, hys, -⟩ := Spell.append hxs
    cases e with
    | onDelete a | onUpdate a =>
      obtain ⟨loc, xs₁, rfl, -⟩ := hys.cons
      exact List.mem_cons_self
    | «match» k =>
      obtain ⟨loc, xs₁, rfl, -⟩ := hys.cons
      exact List.mem_cons_of_mem _ List.mem_cons_self

/-- Where the tokens that start a constraint lead. -/
theorem constraint_tables : ∀ x ∈ Tables.gotos .columnConstraint,
    (automaton.row x.1).act (some (.kw PRIMARY)) = .shift 382 ∧
      (automaton.row x.1).act (some (.kw NOT)) = .shift 384 ∧
        (automaton.row x.1).act (some (.kw NOTNULL)) = .shift 381 ∧
          (automaton.row x.1).act (some (.kw UNIQUE)) = .shift 383 ∧
            (automaton.row x.1).act (some (.kw DEFAULT)) = .shift 380 ∧
              (automaton.row x.1).act (some (.kw AUTOINCREMENT)) = .shift 378 ∧
                (automaton.row x.1).act (some (.kw REFERENCES)) = .shift 379 ∧
                  automaton.goto x.1 .foreignKeyConstraint = some 389 := by
  decide

theorem waits_default : Waits .operand 380 4 53 := by
  decide

theorem shuts_not : Shuts (some (.kw NOT)) 4 where
  closes := by decide
  name := by decide
  sign _ := by decide

section
variable {eof : Location} {st : List (Entry TokenKind.Val NT.Val)}
  {xs rest : List (Sigma TokenKind.Val × Location)}

/-- The literal behind DEFAULT, with its sign. -/
theorem makes_default (signed : Bool) (x : Scalar) (hst : topState st = 380)
    (hshuts : Shuts (ahead rest) 4)
    (hxs : Spell xs (if signed then .ch '-' :: x.tokens else x.tokens)) :
    Makes actions automaton eof (st, xs ++ rest)
      (fun s v s' => v = some (if signed then makeOpUnary .kOpUnaryMinus (some (x.value s))
        else x.value s) ∧ x.after s s')
      fun v => (.value 53 .operand v :: st, rest) := by
  have hw : Waits .operand (topState st) 4 53 := by
    rw [hst]
    exact waits_default
  cases signed with
  | false => exact reads_chain (x := fun _ => .scalar x) (.operand 0) hw trivial trivial hshuts hxs
  | true =>
    have hminus : Makes actions automaton eof (st, xs ++ rest)
        ((Chain.minus (.operand 0)).reading fun _ => .scalar x)
        fun v => (.value 53 .operand v :: st, rest) :=
      reads_chain _ hw ⟨trivial, trivial⟩ trivial hshuts hxs
    refine hminus.imp fun s v s' h => ?_
    obtain ⟨a, ⟨rfl, hafter⟩, rfl⟩ := h
    exact ⟨rfl, hafter⟩

/-- The stack behind the events of a foreign key. -/
def KeyClause.stack (f : KeyClause) (st : List (Entry TokenKind.Val NT.Val)) :
    List (Entry TokenKind.Val NT.Val) :=
  .value 441 .foreignKeyEventList f.eventValues :: .value 421 .optColumnList f.columnValues ::
    .value 404 .stringOrToken f.table.value :: .token 379 (.kw REFERENCES) () :: st

/-- A foreign key as far as its events. -/
theorem leads_front (f : KeyClause)
    (hshift : (automaton.row (topState st)).act (some (.kw REFERENCES)) = .shift 379)
    (hxs : Spell xs f.front) (hends : ahead rest ∈ some (.kw DEFERRABLE) :: behindConstraint) :
    Leads actions automaton eof (st, xs ++ rest) (f.stack st, rest) := by
  obtain ⟨loc, xs₁, rfl, hxs₁⟩ := hxs.cons
  obtain ⟨loc₁, xs₂, rfl, hxs₂⟩ := hxs₁.cons
  obtain ⟨ys, zs, rfl, hys, hzs⟩ := hxs₂.append
  have hopen : Leads actions automaton eof
      (st, ((Token.kw REFERENCES).input, loc) :: (f.table.token.input, loc₁) :: (ys ++ (zs ++ rest)))
      (.token 379 (.kw REFERENCES) () :: st, (f.table.token.input, loc₁) :: (ys ++ (zs ++ rest))) :=
    .shift hshift
  have hname : Leads actions automaton eof
      (.token 379 (.kw REFERENCES) () :: st, (f.table.token.input, loc₁) :: (ys ++ (zs ++ rest)))
      (.value 404 .stringOrToken f.table.value :: .token 379 (.kw REFERENCES) () :: st,
        ys ++ (zs ++ rest)) :=
    leads_nameToken f.table (q := 379) rfl (by decide) (by decide) loc₁
  have hcolumns : Leads actions automaton eof
      (.value 404 .stringOrToken f.table.value :: .token 379 (.kw REFERENCES) () :: st,
        ys ++ (zs ++ rest))
      (.value 421 .optColumnList f.columnValues :: .value 404 .stringOrToken f.table.value ::
        .token 379 (.kw REFERENCES) () :: st, zs ++ rest) :=
    leads_columnList f rfl hys (ahead_events hzs hends)
  have hevents : Leads actions automaton eof
      (.value 421 .optColumnList f.columnValues :: .value 404 .stringOrToken f.table.value ::
        .token 379 (.kw REFERENCES) () :: st, zs ++ rest)
      (f.stack st, rest) := leads_eventList f rfl hzs hends
  have hinput : ((Token.kw REFERENCES).input, loc) :: (f.table.token.input, loc₁) :: (ys ++ zs) ++ rest
      = ((Token.kw REFERENCES).input, loc) :: (f.table.token.input, loc₁) :: (ys ++ (zs ++ rest)) := by
    rw [List.cons_append, List.cons_append, List.append_assoc]
  rw [hinput]
  exact ((hopen.trans hname).trans hcolumns).trans hevents

theorem makes_constraint (c : Constraint) {p : Nat}
    (hgoto : automaton.goto (topState st) .columnConstraint = some p) (hxs : Spell xs c.tokens)
    (hends : ahead rest ∈ behindConstraint) (hnot : c.Open → ahead rest ≠ some (.kw NOT)) :
    Makes actions automaton eof (st, xs ++ rest) c.reading
      fun v => (.value p .columnConstraint (some v) :: st, rest) := by
  obtain ⟨hprimary, hno, hnotNull, hunique, hdefault, hauto, hreferences, hkey⟩ :=
    constraint_tables _ (goto_mem hgoto)
  cases c with
  | primaryKey =>
    obtain ⟨loc, xs₁, rfl, hxs₁⟩ := hxs.cons
    obtain ⟨loc₁, xs₂, rfl, hxs₂⟩ := hxs₁.cons
    obtain rfl := hxs₂.nil
    exact .of_leads (((Leads.shift hprimary).trans (.shift rfl)).trans (Leads.reduce (M := actions)
      (n := NT.columnConstraint) (r := ⟨0, by decide⟩) rfl rfl hgoto fun _ _ => rfl))
  | notNull =>
    obtain ⟨loc, xs₁, rfl, hxs₁⟩ := hxs.cons
    obtain ⟨loc₁, xs₂, rfl, hxs₂⟩ := hxs₁.cons
    obtain rfl := hxs₂.nil
    exact .of_leads (((Leads.shift hno).trans (.shift rfl)).trans (Leads.reduce (M := actions)
      (n := NT.columnConstraint) (r := ⟨1, by decide⟩) rfl rfl hgoto fun _ _ => rfl))
  | notNullWord =>
    obtain ⟨loc, xs₁, rfl, hxs₁⟩ := hxs.cons
    obtain rfl := hxs₁.nil
    exact .of_leads ((Leads.shift hnotNull).trans (Leads.reduce (M := actions)
      (n := NT.columnConstraint) (r := ⟨2, by decide⟩) rfl rfl hgoto fun _ _ => rfl))
  | unique =>
    obtain ⟨loc, xs₁, rfl, hxs₁⟩ := hxs.cons
    obtain rfl := hxs₁.nil
    exact .of_leads ((Leads.shift hunique).trans (Leads.reduce (M := actions)
      (n := NT.columnConstraint) (r := ⟨3, by decide⟩) rfl rfl hgoto fun _ _ => rfl))
  | autoIncrement =>
    obtain ⟨loc, xs₁, rfl, hxs₁⟩ := hxs.cons
    obtain rfl := hxs₁.nil
    exact .of_leads ((Leads.shift hauto).trans (Leads.reduce (M := actions)
      (n := NT.columnConstraint) (r := ⟨5, by decide⟩) rfl rfl hgoto fun _ _ => rfl))
  | default signed x =>
    obtain ⟨loc, xs₁, rfl, hxs₁⟩ := hxs.cons
    obtain ⟨-, -, -, -, hclosed⟩ := behind_tables _ hends
    obtain ⟨hexpr, -, hconstraint⟩ := hclosed (hnot trivial)
    have hshift : Leads actions automaton eof (st, ((Token.kw DEFAULT).input, loc) :: (xs₁ ++ rest))
        (.token 380 (.kw DEFAULT) () :: st, xs₁ ++ rest) := .shift hdefault
    have hliteral := Makes.head hshift
      (makes_default signed x rfl (hexpr.shuts.mono (Nat.zero_le _)) hxs₁)
    intro look pos s
    obtain ⟨v, s', look₁, pos₁, ⟨rfl, hafter⟩, hsteps⟩ := hliteral look pos s
    -- behind the literal it is reduced to an expression, and that to the constraint
    have hoperand (v : Option Expr) : Leads actions automaton eof
        (.value 53 .operand v :: .token 380 (.kw DEFAULT) () :: st, rest)
        (.value 405 .expr v :: .token 380 (.kw DEFAULT) () :: st, rest) :=
      .reduce hexpr.operand rfl rfl fun _ _ => rfl
    have hreduce (v : Option Expr) : Leads actions automaton eof
        (.value 405 .expr v :: .token 380 (.kw DEFAULT) () :: st, rest)
        (.value p .columnConstraint (some (.withExpr .DEFAULT v)) :: st, rest) :=
      Leads.reduce (M := actions) (n := NT.columnConstraint) (r := ⟨4, by decide⟩) hconstraint rfl
        hgoto fun _ _ => rfl
    obtain ⟨look₂, pos₂, hrest⟩ := (hoperand _).trans (hreduce _) look₁ pos₁ s'
    exact ⟨_, s', look₂, pos₂, ⟨rfl, hafter⟩, hsteps.trans hrest⟩
  | references f =>
    obtain ⟨ys, zs, rfl, hys, hzs⟩ := hxs.append
    have hfront : Leads actions automaton eof (st, ys ++ (zs ++ rest)) (f.stack st, zs ++ rest) :=
      leads_front f hreferences hys (ahead_deferral hzs hends)
    have hdeferral : Leads actions automaton eof (f.stack st, zs ++ rest)
        (.value 460 .optForeignKeyDeferrable f.deferral.value :: f.stack st, rest) :=
      leads_deferral f.deferral rfl hzs hends hnot
    have hkeyClause : Leads actions automaton eof
        (.value 460 .optForeignKeyDeferrable f.deferral.value :: f.stack st, rest)
        (.value 389 .foreignKeyConstraint (some f.value) :: st, rest) :=
      Leads.reduce (M := actions) (n := NT.foreignKeyConstraint) (r := ⟨0, by decide⟩) rfl rfl hkey
        fun _ _ => rfl
    have hreduce : Leads actions automaton eof
        (.value 389 .foreignKeyConstraint (some f.value) :: st, rest)
        (.value p .columnConstraint (some (.withConstraint .FOREIGNKEY (some f.value))) :: st, rest) :=
      Leads.reduce (M := actions) (n := NT.columnConstraint) (r := ⟨6, by decide⟩) rfl rfl hgoto
        fun _ _ => rfl
    rw [List.append_assoc]
    exact .of_leads (((hfront.trans hdeferral).trans hkeyClause).trans hreduce)

/-- Where NOT NULL stands behind an open constraint, the parser is stuck in front of NULL. -/
theorem stuck_open {c : Constraint} (hc : c.Open) {p : Nat}
    (hgoto : automaton.goto (topState st) .columnConstraint = some p) (hxs : Spell xs c.tokens)
    (loc : Location) : Makes actions automaton eof (st, xs ++ ((Token.kw NOT).input, loc) :: rest)
      (fun _ w _ => (automaton.row (topState w)).act (some (.kw NULL)) = .error)
      fun w => (w, rest) := by
  obtain ⟨-, -, -, -, hdefault, -, hreferences, -⟩ := constraint_tables _ (goto_mem hgoto)
  cases c with
  | primaryKey | notNull | notNullWord | unique | autoIncrement => exact hc.elim
  | default signed x =>
    obtain ⟨loc', xs₁, rfl, hxs₁⟩ := hxs.cons
    have hshift : Leads actions automaton eof
        (st, ((Token.kw DEFAULT).input, loc') :: (xs₁ ++ ((Token.kw NOT).input, loc) :: rest))
        (.token 380 (.kw DEFAULT) () :: st, xs₁ ++ ((Token.kw NOT).input, loc) :: rest) :=
      .shift hdefault
    have hliteral := Makes.head hshift (makes_default signed x rfl shuts_not hxs₁)
    have hno (v : Option Expr) : Leads actions automaton eof
        (.value 53 .operand v :: .token 380 (.kw DEFAULT) () :: st,
          ((Token.kw NOT).input, loc) :: rest)
        (.token 124 (.kw NOT) () :: .value 53 .operand v :: .token 380 (.kw DEFAULT) () :: st, rest) :=
      .shift rfl
    -- the parser expects a predicate of the literal
    have hstuck : (automaton.row 124).act (some (.kw NULL)) = .error := by decide
    refine (hliteral.map (fun v => .token 124 (.kw NOT) () :: .value 53 .operand v ::
      .token 380 (.kw DEFAULT) () :: st) hno).imp fun s w s' h => ?_
    obtain ⟨v, -, rfl⟩ := h
    exact hstuck
  | references f =>
    obtain ⟨ys, zs, rfl, hys, hzs⟩ := hxs.append
    have hnone : f.deferral = .none := hc
    rw [hnone] at hzs
    obtain rfl := hzs.nil
    have hahead : ahead (((Token.kw NOT).input, loc) :: rest) ∈ some (.kw DEFERRABLE) :: behindConstraint := by
      show some (TokenKind.kw NOT) ∈ some (.kw DEFERRABLE) :: behindConstraint
      decide
    have hfront : Leads actions automaton eof (st, ys ++ ((Token.kw NOT).input, loc) :: rest)
        (f.stack st, ((Token.kw NOT).input, loc) :: rest) := leads_front f hreferences hys hahead
    have hno : Leads actions automaton eof (f.stack st, ((Token.kw NOT).input, loc) :: rest)
        (.token 459 (.kw NOT) () :: f.stack st, rest) := .shift rfl
    -- the parser expects a deferral
    have hstuck : (automaton.row 459).act (some (.kw NULL)) = .error := by decide
    rw [List.append_nil]
    refine (Makes.of_leads (z := fun w => (w, rest)) (hfront.trans hno)).imp fun s w s' h => ?_
    obtain ⟨rfl, -⟩ := h
    exact hstuck

end

/-! Lists of constraints. -/

namespace Constraint

/-- The constraint that follows is not one that would belong to the first. -/
def Before (c d : Constraint) : Prop := c.Open → d ≠ .notNull

/-- The values of the constraints, read one after the other. -/
def listReading : List Constraint → ParserState → List ColumnConstraint → ParserState → Prop
  | [], s, vs, s' => vs = [] ∧ s' = s
  | c :: l, s, vs, s' => ∃ v s₁, c.reading s v s₁ ∧ ∃ ws, listReading l s₁ ws s' ∧ vs = v :: ws

theorem ahead_tokens (c : Constraint) {xs rest : List (Sigma TokenKind.Val × Location)}
    (hxs : Spell xs c.tokens) : ahead (xs ++ rest) ∈ behindConstraint ∧
      (c ≠ .notNull → ahead (xs ++ rest) ≠ some (.kw NOT)) := by
  have hhead {t : Token} {ts : List Token} (hxs : Spell xs (t :: ts)) :
      ahead (xs ++ rest) = some t.kind := by
    obtain ⟨loc, xs', rfl, -⟩ := hxs.cons
    rfl
  cases c with
  | primaryKey | notNullWord | unique | autoIncrement =>
    rw [hhead hxs]
    exact ⟨by decide, fun _ => by decide⟩
  | notNull =>
    rw [hhead hxs]
    exact ⟨by decide, fun h => absurd rfl h⟩
  | default signed x =>
    rw [hhead hxs]
    exact ⟨by decide, fun _ => by decide⟩
  | references f =>
    rw [hhead hxs]
    exact ⟨by decide, fun _ => by decide⟩

end Constraint

/-- What stands behind the definition of a column. -/
def EndsColumn (t : Option TokenKind) : Prop := t = some (.ch ',') ∨ t = some (.ch ')')

theorem EndsColumn.behind {t : Option TokenKind} (h : EndsColumn t) :
    t ∈ behindConstraint ∧ t ≠ some (.kw NOT) := by
  rcases h with rfl | rfl
  · exact ⟨by decide, by decide⟩
  · exact ⟨by decide, by decide⟩

theorem ahead_constraints {c : Constraint} {l : List Constraint}
    {xs rest : List (Sigma TokenKind.Val × Location)} (hl : List.IsChain Constraint.Before (c :: l))
    (hxs : Spell xs (l.flatMap Constraint.tokens)) (hends : EndsColumn (ahead rest)) :
    ahead (xs ++ rest) ∈ behindConstraint ∧ (c.Open → ahead (xs ++ rest) ≠ some (.kw NOT)) := by
  cases l with
  | nil =>
    obtain rfl := hxs.nil
    exact ⟨hends.behind.1, fun _ => hends.behind.2⟩
  | cons d l =>
    obtain ⟨ys, zs, rfl, hys, -⟩ := Spell.append hxs
    rw [List.append_assoc]
    have hahead : ahead (ys ++ (zs ++ rest)) ∈ behindConstraint ∧
        (d ≠ .notNull → ahead (ys ++ (zs ++ rest)) ≠ some (.kw NOT)) := d.ahead_tokens hys
    obtain ⟨hmem, hnot⟩ := hahead
    obtain ⟨hbefore, -⟩ := List.isChain_cons_cons.mp hl
    exact ⟨hmem, fun hopen => hnot (hbefore hopen)⟩

section
variable {eof : Location} {st : List (Entry TokenKind.Val NT.Val)}
  {xs rest : List (Sigma TokenKind.Val × Location)}

/-- Constraints behind the first one. -/
theorem makes_list (l : List Constraint) (acc : List ColumnConstraint)
    (hgoto : automaton.goto (topState st) .columnConstraintList = some 387)
    (hxs : Spell xs (l.flatMap Constraint.tokens)) (hends : EndsColumn (ahead rest))
    (hl : List.IsChain Constraint.Before l) : Makes actions automaton eof
      (.value 387 .columnConstraintList (some (acc.map some)) :: st, xs ++ rest)
      (Constraint.listReading l)
      fun vs => (.value 387 .columnConstraintList (some ((acc ++ vs).map some)) :: st, rest) := by
  induction l generalizing acc xs with
  | nil =>
    obtain rfl := hxs.nil
    intro look pos s
    refine ⟨[], s, look, pos, ⟨rfl, rfl⟩, ?_⟩
    dsimp only
    rw [List.append_nil]
    exact .refl _
  | cons c l ih =>
    obtain ⟨ys, zs, rfl, hys, hzs⟩ := Spell.append hxs
    obtain ⟨hbehind, hnot⟩ := ahead_constraints hl hzs hends
    have hconstraint : Makes actions automaton eof
        (.value 387 .columnConstraintList (some (acc.map some)) :: st, ys ++ (zs ++ rest)) c.reading
        fun v => (.value 409 .columnConstraint (some v) ::
          .value 387 .columnConstraintList (some (acc.map some)) :: st, zs ++ rest) :=
      makes_constraint c rfl hys hbehind hnot
    have hreduce (v : ColumnConstraint) : Leads actions automaton eof
        (.value 409 .columnConstraint (some v) ::
          .value 387 .columnConstraintList (some (acc.map some)) :: st, zs ++ rest)
        (.value 387 .columnConstraintList (some ((acc ++ [v]).map some)) :: st, zs ++ rest) := by
      rw [List.map_append]
      exact Leads.reduce (M := actions) (n := NT.columnConstraintList) (r := ⟨1, by decide⟩) rfl rfl
        hgoto fun _ _ => rfl
    have hrest (v : ColumnConstraint) : Makes actions automaton eof
        (.value 387 .columnConstraintList (some ((acc ++ [v]).map some)) :: st, zs ++ rest)
        (fun s vs s' => ∃ ws, Constraint.listReading l s ws s' ∧ vs = v :: ws)
        fun vs => (.value 387 .columnConstraintList (some ((acc ++ vs).map some)) :: st, rest) := by
      refine (ih (acc ++ [v]) hzs hl.of_cons).map (fun ws => v :: ws) fun ws => ?_
      rw [List.append_assoc, List.singleton_append]
      exact .refl _
    rw [List.append_assoc]
    -- one more constraint, and the rest of them behind it
    exact (hconstraint.tail hreduce).bind hrest

/-- The states behind the type of a column lead to the same states of the constraints. -/
theorem list_tables : ∀ x ∈ Tables.gotos .columnConstraintListNullable,
    automaton.goto x.1 .columnConstraintList = some 387 ∧
      automaton.goto x.1 .columnConstraint = some 388 ∧
        ∀ t ∈ [some (.ch ','), some (.ch ')')],
          (automaton.row x.1).act t = Tables.reduce columnConstraintListNullable 1 ∧
            (automaton.row 387).act t = Tables.reduce columnConstraintListNullable 0 := by
  decide

theorem makes_nullable (l : List Constraint) {g : Nat}
    (hgoto : automaton.goto (topState st) .columnConstraintListNullable = some g)
    (hxs : Spell xs (l.flatMap Constraint.tokens)) (hends : EndsColumn (ahead rest))
    (hl : List.IsChain Constraint.Before l) : Makes actions automaton eof (st, xs ++ rest)
      (Constraint.listReading l)
      fun vs => (.value g .columnConstraintListNullable (some (vs.map some)) :: st, rest) := by
  obtain ⟨hlist, hfirst, hreduce⟩ := list_tables _ (goto_mem hgoto)
  have hend : ahead rest ∈ [some (.ch ','), some (.ch ')')] := by
    rcases hends with heq | heq <;> rw [heq] <;> decide
  obtain ⟨hempty, hfull⟩ := hreduce _ hend
  cases l with
  | nil =>
    obtain rfl := hxs.nil
    have hleads : Leads actions automaton eof (st, rest)
        (.value g .columnConstraintListNullable (some []) :: st, rest) :=
      Leads.reduce (M := actions) (n := NT.columnConstraintListNullable) (r := ⟨1, by decide⟩) hempty
        rfl hgoto fun _ _ => rfl
    intro look pos s
    obtain ⟨look', pos', hsteps⟩ := hleads look pos s
    exact ⟨[], s, look', pos', ⟨rfl, rfl⟩, hsteps⟩
  | cons c l =>
    obtain ⟨ys, zs, rfl, hys, hzs⟩ := Spell.append hxs
    obtain ⟨hbehind, hnot⟩ := ahead_constraints hl hzs hends
    have hconstraint : Makes actions automaton eof (st, ys ++ (zs ++ rest)) c.reading
        fun v => (.value 388 .columnConstraint (some v) :: st, zs ++ rest) :=
      makes_constraint c hfirst hys hbehind hnot
    have hvector (v : ColumnConstraint) : Leads actions automaton eof
        (.value 388 .columnConstraint (some v) :: st, zs ++ rest)
        (.value 387 .columnConstraintList (some ([v].map some)) :: st, zs ++ rest) :=
      Leads.reduce (M := actions) (n := NT.columnConstraintList) (r := ⟨0, by decide⟩) rfl rfl hlist
        fun _ _ => rfl
    have hnullable (vs : List ColumnConstraint) : Leads actions automaton eof
        (.value 387 .columnConstraintList (some (vs.map some)) :: st, rest)
        (.value g .columnConstraintListNullable (some (vs.map some)) :: st, rest) :=
      Leads.reduce (M := actions) (n := NT.columnConstraintListNullable) (r := ⟨0, by decide⟩) hfull
        rfl hgoto fun _ _ => rfl
    have hrest (v : ColumnConstraint) : Makes actions automaton eof
        (.value 387 .columnConstraintList (some ([v].map some)) :: st, zs ++ rest)
        (fun s vs s' => ∃ ws, Constraint.listReading l s ws s' ∧ vs = v :: ws)
        fun vs => (.value g .columnConstraintListNullable (some (vs.map some)) :: st, rest) :=
      (makes_list l [v] hlist hzs hends hl.of_cons).map (fun ws => v :: ws)
        fun ws => hnullable ([v] ++ ws)
    rw [List.append_assoc]
    exact (hconstraint.tail hvector).bind hrest

end

/-! Columns. -/

/-- The words for types. -/
inductive TypeWord where
  | int | integer | long | boolean | text | blob | real | double | float | varchar | datetime

namespace TypeWord

def token : TypeWord → Token
  | int => .kw INT
  | integer => .kw INTEGER
  | long => .kw LONG
  | boolean => .kw BOOLEAN
  | text => .kw TEXT
  | blob => .kw BLOB
  | real => .kw REAL
  | double => .kw DOUBLE
  | float => .kw FLOAT
  | varchar => .kw VARCHAR
  | datetime => .kw DATETIME

def value : TypeWord → DataType
  | int | integer | long | boolean => .INTEGER
  | text | varchar => .TEXT
  | blob => .BLOB
  | real | double | float => .REAL
  | datetime => .DATETIME

end TypeWord

/-- A column without its constraints: the number between the parentheses is the typemod. -/
structure ColumnHead where
  name : NameToken
  type : TypeWord
  typemod : Option Int

namespace ColumnHead

def typemodTokens (h : ColumnHead) : List Token :=
  match h.typemod with
  | none => []
  | some i => [.ch '(', ⟨INTVAL, i⟩, .ch ')']

def text (h : ColumnHead) (l : List Constraint) : List Token :=
  h.name.token :: h.type.token :: (h.typemodTokens ++ l.flatMap Constraint.tokens)

/-- The column in front of the constructor's loop. -/
def blank (h : ColumnHead) : ColumnDefinition where
  name := h.name.value
  type := h.type.value
  isPrimaryKey := false
  isUnique := false
  nullable := true
  defaultVal := none
  isAutoIncrement := false
  hasTypemod := false
  typemod := none
  isForeignKey := false
  foreignKeyConstraint := none

def column (h : ColumnHead) (vs : List ColumnConstraint) : ColumnDefinition :=
  let c := vs.foldl ColumnDefinition.constrain h.blank
  match h.typemod with
  | none => c
  | some i => { c with hasTypemod := true, typemod := some (toInt i) }

theorem new_eq (h : ColumnHead) (vs : List ColumnConstraint) :
    ColumnDefinition.new h.name.value h.type.value (some (vs.map some)) =
      some (vs.foldl ColumnDefinition.constrain h.blank) := by
  have hfold (c : ColumnDefinition) : (vs.map some).foldlM
      (fun column c => c.map (ColumnDefinition.constrain column)) c =
        some (vs.foldl ColumnDefinition.constrain c) := by
    induction vs generalizing c with
    | nil => rfl
    | cons v vs ih => exact ih (c.constrain v)
  exact hfold h.blank

end ColumnHead

/-- Wherever the parser waits for the definition of a column, it makes such a one of the tokens. -/
def ColumnAs (ts : List Token) (R : ParserState → ColumnDefinition → Prop) : Prop :=
  ∀ {eof : Location} {st : List (Entry TokenKind.Val NT.Val)}
    {xs rest : List (Sigma TokenKind.Val × Location)} {p : Nat},
    automaton.goto (topState st) .columnDef = some p → Spell xs ts → EndsColumn (ahead rest) →
      Makes actions automaton eof (st, xs ++ rest) (fun s v _ => R s v)
        fun v => (.value p .columnDef (some v) :: st, rest)

theorem column_tables : ∀ x ∈ Tables.gotos .columnDef,
    x.1 ∈ [225, 360, 414, 379, 242, 357, 439] ∧ automaton.goto x.1 .stringOrToken = some 283 := by
  decide

section
variable {eof : Location} {st : List (Entry TokenKind.Val NT.Val)}
  {xs rest : List (Sigma TokenKind.Val × Location)}

theorem leads_type (w : TypeWord) (v : Option Str) (loc : Location) :
    Leads actions automaton eof
      (.value 283 .stringOrToken v :: st, (w.token.input, loc) :: rest)
      (.value 350 .columnType w.value :: .value 283 .stringOrToken v :: st, rest) := by
  cases w with
  | int => exact (Leads.shift rfl).trans (Leads.reduce (M := actions) (n := NT.columnType)
      (r := ⟨0, by decide⟩) rfl rfl rfl fun _ _ => rfl)
  | integer => exact (Leads.shift rfl).trans (Leads.reduce (M := actions) (n := NT.columnType)
      (r := ⟨1, by decide⟩) rfl rfl rfl fun _ _ => rfl)
  | long => exact (Leads.shift rfl).trans (Leads.reduce (M := actions) (n := NT.columnType)
      (r := ⟨2, by decide⟩) rfl rfl rfl fun _ _ => rfl)
  | boolean => exact (Leads.shift rfl).trans (Leads.reduce (M := actions) (n := NT.columnType)
      (r := ⟨3, by decide⟩) rfl rfl rfl fun _ _ => rfl)
  | text => exact (Leads.shift rfl).trans (Leads.reduce (M := actions) (n := NT.columnType)
      (r := ⟨4, by decide⟩) rfl rfl rfl fun _ _ => rfl)
  | blob => exact (Leads.shift rfl).trans (Leads.reduce (M := actions) (n := NT.columnType)
      (r := ⟨5, by decide⟩) rfl rfl rfl fun _ _ => rfl)
  | real => exact (Leads.shift rfl).trans (Leads.reduce (M := actions) (n := NT.columnType)
      (r := ⟨6, by decide⟩) rfl rfl rfl fun _ _ => rfl)
  | double => exact (Leads.shift rfl).trans (Leads.reduce (M := actions) (n := NT.columnType)
      (r := ⟨7, by decide⟩) rfl rfl rfl fun _ _ => rfl)
  | float => exact (Leads.shift rfl).trans (Leads.reduce (M := actions) (n := NT.columnType)
      (r := ⟨8, by decide⟩) rfl rfl rfl fun _ _ => rfl)
  | varchar => exact (Leads.shift rfl).trans (Leads.reduce (M := actions) (n := NT.columnType)
      (r := ⟨9, by decide⟩) rfl rfl rfl fun _ _ => rfl)
  | datetime => exact (Leads.shift rfl).trans (Leads.reduce (M := actions) (n := NT.columnType)
      (r := ⟨10, by decide⟩) rfl rfl rfl fun _ _ => rfl)

/-- The name and the type of a column. -/
theorem leads_head (h : ColumnHead) {p : Nat}
    (hgoto : automaton.goto (topState st) .columnDef = some p) (loc loc' : Location) :
    Leads actions automaton eof
      (st, (h.name.token.input, loc) :: (h.type.token.input, loc') :: rest)
      (.value 350 .columnType h.type.value :: .value 283 .stringOrToken h.name.value :: st, rest) := by
  obtain ⟨hmem, hname⟩ := column_tables _ (goto_mem hgoto)
  exact (leads_nameToken h.name rfl hmem hname loc).trans (leads_type h.type _ loc')

/-- The typemod of a column. -/
theorem leads_typemod (i : Int) (t : DataType) (loc loc' loc'' : Location) :
    Leads actions automaton eof
      (.value 350 .columnType t :: st, (⟨.ch '(', ()⟩, loc) :: (⟨INTVAL, i⟩, loc') ::
        (⟨.ch ')', ()⟩, loc'') :: rest)
      (.token 422 (.ch ')') () :: .token 408 INTVAL i :: .token 385 (.ch '(') () ::
        .value 350 .columnType t :: st, rest) := by
  have hopen : Leads actions automaton eof
      (.value 350 .columnType t :: st, (⟨.ch '(', ()⟩, loc) :: (⟨INTVAL, i⟩, loc') ::
        (⟨.ch ')', ()⟩, loc'') :: rest)
      (.token 385 (.ch '(') () :: .value 350 .columnType t :: st,
        (⟨INTVAL, i⟩, loc') :: (⟨.ch ')', ()⟩, loc'') :: rest) := .shift rfl
  have hnumber : Leads actions automaton eof
      (.token 385 (.ch '(') () :: .value 350 .columnType t :: st,
        (⟨INTVAL, i⟩, loc') :: (⟨.ch ')', ()⟩, loc'') :: rest)
      (.token 408 INTVAL i :: .token 385 (.ch '(') () :: .value 350 .columnType t :: st,
        (⟨.ch ')', ()⟩, loc'') :: rest) := .shift rfl
  exact (hopen.trans hnumber).trans (.shift rfl)

end

namespace ColumnHead

/-- The parser reads a column whose constraints leave each other alone. -/
theorem columnAs (h : ColumnHead) {l : List Constraint} (hl : List.IsChain Constraint.Before l) :
    ColumnAs (h.text l) fun s v => ∃ vs s', Constraint.listReading l s vs s' ∧ v = h.column vs := by
  intro eof st xs rest p hgoto hxs hends
  obtain ⟨loc, xs₁, rfl, hxs₁⟩ := hxs.cons
  obtain ⟨loc', xs₂, rfl, hxs₂⟩ := hxs₁.cons
  obtain ⟨ys, zs, rfl, hys, hzs⟩ := hxs₂.append
  have hhead : Leads actions automaton eof
      (st, (h.name.token.input, loc) :: (h.type.token.input, loc') :: (ys ++ (zs ++ rest)))
      (.value 350 .columnType h.type.value :: .value 283 .stringOrToken h.name.value :: st,
        ys ++ (zs ++ rest)) := leads_head h hgoto loc loc'
  have hinput : (h.name.token.input, loc) :: (h.type.token.input, loc') :: (ys ++ zs) ++ rest =
      (h.name.token.input, loc) :: (h.type.token.input, loc') :: (ys ++ (zs ++ rest)) := by
    rw [List.cons_append, List.cons_append, List.append_assoc]
  rw [hinput]
  unfold typemodTokens at hys
  unfold column
  cases htypemod : h.typemod with
  | none =>
    rw [htypemod] at hys
    obtain rfl := hys.nil
    have hlist : Makes actions automaton eof
        (.value 350 .columnType h.type.value :: .value 283 .stringOrToken h.name.value :: st,
          zs ++ rest) (Constraint.listReading l)
        fun vs => (.value 386 .columnConstraintListNullable (some (vs.map some)) ::
          .value 350 .columnType h.type.value :: .value 283 .stringOrToken h.name.value :: st, rest) :=
      makes_nullable l rfl hzs hends hl
    have hreduce (vs : List ColumnConstraint) : Leads actions automaton eof
        (.value 386 .columnConstraintListNullable (some (vs.map some)) ::
          .value 350 .columnType h.type.value :: .value 283 .stringOrToken h.name.value :: st, rest)
        (.value p .columnDef (some (vs.foldl ColumnDefinition.constrain h.blank)) :: st, rest) := by
      refine Leads.reduce (M := actions) (n := NT.columnDef) (r := ⟨0, by decide⟩) rfl rfl hgoto
        fun _ s => ?_
      show ((ColumnDefinition.new _ _ (some (vs.map some))).map some).map _ = _
      rw [h.new_eq vs]
      rfl
    refine ((hlist.map _ hreduce).head hhead).imp fun s v s' hR => ?_
    obtain ⟨vs, hvs, rfl⟩ := hR
    exact ⟨vs, s', hvs, rfl⟩
  | some i =>
    rw [htypemod] at hys
    obtain ⟨loc₁, ys₁, rfl, hys₁⟩ := hys.cons
    obtain ⟨loc₂, ys₂, rfl, hys₂⟩ := hys₁.cons
    obtain ⟨loc₃, ys₃, rfl, hys₃⟩ := hys₂.cons
    obtain rfl := hys₃.nil
    have htype : Leads actions automaton eof
        (.value 350 .columnType h.type.value :: .value 283 .stringOrToken h.name.value :: st,
          (⟨.ch '(', ()⟩, loc₁) :: (⟨INTVAL, i⟩, loc₂) :: (⟨.ch ')', ()⟩, loc₃) :: (zs ++ rest))
        (.token 422 (.ch ')') () :: .token 408 INTVAL i :: .token 385 (.ch '(') () ::
          .value 350 .columnType h.type.value :: .value 283 .stringOrToken h.name.value :: st,
          zs ++ rest) := leads_typemod i h.type.value loc₁ loc₂ loc₃
    have hlist : Makes actions automaton eof
        (.token 422 (.ch ')') () :: .token 408 INTVAL i :: .token 385 (.ch '(') () ::
          .value 350 .columnType h.type.value :: .value 283 .stringOrToken h.name.value :: st,
          zs ++ rest) (Constraint.listReading l)
        fun vs => (.value 443 .columnConstraintListNullable (some (vs.map some)) ::
          .token 422 (.ch ')') () :: .token 408 INTVAL i :: .token 385 (.ch '(') () ::
          .value 350 .columnType h.type.value :: .value 283 .stringOrToken h.name.value :: st, rest) :=
      makes_nullable l rfl hzs hends hl
    have hreduce (vs : List ColumnConstraint) : Leads actions automaton eof
        (.value 443 .columnConstraintListNullable (some (vs.map some)) ::
          .token 422 (.ch ')') () :: .token 408 INTVAL i :: .token 385 (.ch '(') () ::
          .value 350 .columnType h.type.value :: .value 283 .stringOrToken h.name.value :: st, rest)
        (.value p .columnDef (some { vs.foldl ColumnDefinition.constrain h.blank with
          hasTypemod := true, typemod := some (toInt i) }) :: st, rest) := by
      refine Leads.reduce (M := actions) (n := NT.columnDef) (r := ⟨1, by decide⟩) rfl rfl hgoto
        fun _ s => ?_
      show ((ColumnDefinition.new _ _ (some (vs.map some))).map _).map _ = _
      rw [h.new_eq vs]
      rfl
    refine ((hlist.map _ hreduce).head (hhead.trans htype)).imp fun s v s' hR => ?_
    obtain ⟨vs, hvs, rfl⟩ := hR
    exact ⟨vs, s', hvs, rfl⟩

end ColumnHead

/-! Permutations. -/

/-- At most one member of the list has the property. -/
def AtMostOne (p : Constraint → Prop) (l : List Constraint) : Prop :=
  l.Pairwise fun c d => ¬ (p c ∧ p d)

theorem AtMostOne.perm {p : Constraint → Prop} {l l' : List Constraint} (h : AtMostOne p l)
    (hperm : l.Perm l') : AtMostOne p l' :=
  (hperm.pairwise_iff fun hcd hdc => hcd hdc.symm).mp h

namespace Constraint

theorem value_eq {c : Constraint} (hc : ¬ c.IsDefault) (s s' : ParserState) :
    c.value s = c.value s' := by
  cases c with
  | default signed x => exact absurd trivial hc
  | primaryKey | notNull | notNullWord | unique | autoIncrement | references f => rfl

theorem after_eq {c : Constraint} (hc : ¬ c.IsDefault) {s s' : ParserState} (h : c.after s s') :
    s' = s := by
  cases c with
  | default signed x => exact absurd trivial hc
  | primaryKey | notNull | notNullWord | unique | autoIncrement | references f => exact h

/-- Only the default depends on the state and works on it, so all constraints may be read in the
first state. -/
theorem listReading_eq {l : List Constraint} (hl : AtMostOne IsDefault l) {s s' : ParserState}
    {vs : List ColumnConstraint} (h : listReading l s vs s') : vs = l.map (value s) := by
  induction l generalizing s vs with
  | nil => exact h.1
  | cons c l ih =>
    obtain ⟨v, s₁, ⟨rfl, hafter⟩, ws, hws, rfl⟩ := h
    obtain ⟨hfirst, hrest⟩ := List.pairwise_cons.mp hl
    have hvalues : l.map (value s₁) = l.map (value s) := by
      by_cases hc : c.IsDefault
      · refine List.map_congr_left fun d hd => value_eq (fun hdefault => ?_) s₁ s
        exact hfirst d hd ⟨hc, hdefault⟩
      · rw [after_eq hc hafter]
    rw [ih hrest hws, hvalues]
    rfl

/-- Rounds of the constructor's loop commute, unless both set the same pointer. -/
theorem constrain_comm {c d : Constraint} (hdefault : ¬ (c.IsDefault ∧ d.IsDefault))
    (hreferences : ¬ (c.IsReferences ∧ d.IsReferences)) (s : ParserState) (b : ColumnDefinition) :
    (b.constrain (c.value s)).constrain (d.value s) =
      (b.constrain (d.value s)).constrain (c.value s) := by
  cases c with
  | default signed x =>
    cases d with
    | default signed' x' => exact absurd ⟨trivial, trivial⟩ hdefault
    | primaryKey | notNull | notNullWord | unique | autoIncrement | references f => rfl
  | references f =>
    cases d with
    | references f' => exact absurd ⟨trivial, trivial⟩ hreferences
    | primaryKey | notNull | notNullWord | unique | autoIncrement | default signed x => rfl
  | primaryKey | notNull | notNullWord | unique | autoIncrement => cases d <;> rfl

theorem foldl_perm {l l' : List Constraint} (hperm : l.Perm l') (hdefault : AtMostOne IsDefault l)
    (hreferences : AtMostOne IsReferences l) (s : ParserState) (b : ColumnDefinition) :
    (l.map (value s)).foldl ColumnDefinition.constrain b =
      (l'.map (value s)).foldl ColumnDefinition.constrain b := by
  induction hperm generalizing b with
  | nil => rfl
  | cons c _ ih => exact ih hdefault.of_cons hreferences.of_cons (b.constrain (c.value s))
  | swap c d l =>
    have hd := (List.pairwise_cons.mp hdefault).1 c List.mem_cons_self
    have hr := (List.pairwise_cons.mp hreferences).1 c List.mem_cons_self
    exact congrArg (fun b => (l.map (value s)).foldl ColumnDefinition.constrain b)
      (constrain_comm hd hr s b)
  | trans hperm _ ih ih' =>
    exact (ih hdefault hreferences b).trans (ih' (hdefault.perm hperm) (hreferences.perm hperm) b)

/-- With the plain NOT NULLs in front, no constraint takes in the next one. -/
theorem exists_chain (l : List Constraint) : ∃ l', l'.Perm l ∧ List.IsChain Before l' := by
  classical
  let isNotNull (c : Constraint) : Bool := decide (c = .notNull)
  refine ⟨l.filter isNotNull ++ l.filter fun c => !isNotNull c, l.filter_append_perm isNotNull,
    List.Pairwise.isChain ?_⟩
  refine List.pairwise_append.mpr ⟨?_, ?_, ?_⟩
  · refine List.pairwise_of_forall_mem_list fun c hc d _ hopen => ?_
    obtain rfl := of_decide_eq_true (List.mem_filter.mp hc).2
    exact hopen.elim
  · refine List.pairwise_of_forall_mem_list fun c _ d hd _ heq => ?_
    subst heq
    have hnot := (List.mem_filter.mp hd).2
    simp [isNotNull] at hnot
  · intro c hc d _ hopen
    obtain rfl := of_decide_eq_true (List.mem_filter.mp hc).2
    exact hopen.elim

end Constraint

namespace ColumnHead

/-- All orders of the constraints are accepted if one is, and give the same column. -/
def Commutes (h : ColumnHead) (l : List Constraint) : Prop :=
  ∀ l₁ l₂ : List Constraint, l₁.Perm l → l₂.Perm l → ColumnAs (h.text l₁) (fun _ _ => True) →
    ∃ f : ParserState → ColumnDefinition,
      ColumnAs (h.text l₁) (fun s v => v = f s) ∧ ColumnAs (h.text l₂) (fun s v => v = f s)

/-- NOT NULL behind an open constraint ends the run with an error. -/
theorem not_columnAs (h : ColumnHead) {c : Constraint} (hc : c.Open) (l : List Constraint)
    (R : ParserState → ColumnDefinition → Prop) : ¬ ColumnAs (h.text (c :: .notNull :: l)) R := by
  intro hcolumn
  let input (ts : List Token) : List (Sigma TokenKind.Val × Location) :=
    ts.map fun t => (t.input, .zero)
  have hspell (ts : List Token) : Spell (input ts) ts := by
    show List.map Prod.fst (List.map _ ts) = _
    rw [List.map_map]
    rfl
  let rest := input [.ch ',']
  let behindNot := input (.kw NULL :: l.flatMap Constraint.tokens) ++ rest
  let st : List (Entry TokenKind.Val NT.Val) := [.token 225 (.ch '(') ()]
  have hgoto : automaton.goto (topState st) .columnDef = some 282 := by decide
  have hmakes : Makes actions automaton .zero (st, input (h.text (c :: .notNull :: l)) ++ rest)
      (fun s v _ => R s v) fun v => (.value 282 .columnDef (some v) :: st, rest) :=
    hcolumn hgoto (hspell _) (.inl rfl)
  have hhead : Leads actions automaton .zero
      (st, (h.name.token.input, .zero) :: (h.type.token.input, .zero) ::
        (input h.typemodTokens ++ (input c.tokens ++ ((Token.kw NOT).input, .zero) :: behindNot)))
      (.value 350 .columnType h.type.value :: .value 283 .stringOrToken h.name.value :: st,
        input h.typemodTokens ++ (input c.tokens ++ ((Token.kw NOT).input, .zero) :: behindNot)) :=
    leads_head h hgoto .zero .zero
  have hinput : input (h.text (c :: .notNull :: l)) ++ rest =
      (h.name.token.input, .zero) :: (h.type.token.input, .zero) ::
        (input h.typemodTokens ++ (input c.tokens ++ ((Token.kw NOT).input, .zero) :: behindNot)) := by
    show List.map _ (_ :: _ :: (_ ++ (c.tokens ++ (Token.kw NOT :: Token.kw NULL :: _)))) ++ rest = _
    rw [List.map_cons, List.map_cons, List.map_append, List.map_append, List.cons_append,
      List.cons_append, List.append_assoc, List.append_assoc]
    rfl
  -- Whatever the typemod is, the constraints start in a state that waits for one.
  have hstuck : ∃ st', (∃ p, automaton.goto (topState st') .columnConstraint = some p) ∧
      Leads actions automaton .zero (st, input (h.text (c :: .notNull :: l)) ++ rest)
        (st', input c.tokens ++ ((Token.kw NOT).input, .zero) :: behindNot) := by
    rw [hinput]
    cases htypemod : h.typemod with
    | none =>
      have hnil : input h.typemodTokens = [] := by
        unfold typemodTokens
        rw [htypemod]
        rfl
      rw [hnil] at hhead ⊢
      exact ⟨_, ⟨388, rfl⟩, hhead⟩
    | some i =>
      have hcons : input h.typemodTokens =
          [(⟨.ch '(', ()⟩, .zero), (⟨INTVAL, i⟩, .zero), (⟨.ch ')', ()⟩, .zero)] := by
        unfold typemodTokens
        rw [htypemod]
        rfl
      rw [hcons] at hhead ⊢
      exact ⟨_, ⟨388, rfl⟩, hhead.trans (leads_typemod i h.type.value .zero .zero .zero)⟩
  obtain ⟨st', ⟨p, hp⟩, hleads⟩ := hstuck
  have hopen : Makes actions automaton .zero
      (st', input c.tokens ++ ((Token.kw NOT).input, .zero) :: behindNot)
      (fun _ w _ => (automaton.row (topState w)).act (some (.kw NULL)) = .error)
      fun w => (w, behindNot) := stuck_open hc hp (hspell _) .zero
  obtain ⟨v, w, hle⟩ := hmakes.stuck_le (hopen.head hleads) (fun _ _ _ hact => hact) false .zero
    (.start ⟨0, 0, 0, 0⟩ .new)
  have hlength : (Nat.succ (input (l.flatMap Constraint.tokens) ++ rest).length) ≤ rest.length := hle
  rw [List.length_append] at hlength
  omega

theorem commutes_of {h : ColumnHead} {l : List Constraint}
    (hdefault : AtMostOne Constraint.IsDefault l) (hreferences : AtMostOne Constraint.IsReferences l)
    (hapart : ¬ (.notNull ∈ l ∧ ∃ c ∈ l, c.Open)) : h.Commutes l := by
  intro l₁ l₂ hl₁ hl₂ _
  have hcolumn {l' : List Constraint} (hl' : l'.Perm l) : ColumnAs (h.text l')
      fun s v => v = h.column (l.map (Constraint.value s)) := by
    have hchain : List.IsChain Constraint.Before l' := by
      refine List.Pairwise.isChain (List.pairwise_of_forall_mem_list fun c hc d hd hopen heq => ?_)
      subst heq
      exact hapart ⟨hl'.mem_iff.mp hd, c, hl'.mem_iff.mp hc, hopen⟩
    intro eof st xs rest p hgoto hxs hends
    refine (h.columnAs hchain hgoto hxs hends).imp fun s v s' hread => ?_
    obtain ⟨vs, s₁, hvs, rfl⟩ := hread
    have hfold := Constraint.foldl_perm hl' (hdefault.perm hl'.symm) (hreferences.perm hl'.symm) s
      h.blank
    rw [Constraint.listReading_eq (hdefault.perm hl'.symm) hvs]
    unfold column
    rw [hfold]
  exact ⟨fun s => h.column (l.map (Constraint.value s)), hcolumn hl₁, hcolumn hl₂⟩

theorem not_commutes (h : ColumnHead) {l : List Constraint} (hnotNull : .notNull ∈ l)
    {c : Constraint} (hmem : c ∈ l) (hc : c.Open) : ¬ h.Commutes l := by
  intro hcommutes
  obtain ⟨l₁, hl₁, hchain⟩ := Constraint.exists_chain l
  -- The open constraint first, NOT NULL second.
  obtain ⟨a, b, rfl⟩ := List.append_of_mem hmem
  have hrest : .notNull ∈ a ++ b := by
    rcases List.mem_append.mp hnotNull with hleft | hright
    · exact List.mem_append_left _ hleft
    · rcases List.mem_cons.mp hright with rfl | htail
      · exact hc.elim
      · exact List.mem_append_right _ htail
  obtain ⟨a', b', hab⟩ := List.append_of_mem hrest
  have hl₂ : (c :: .notNull :: (a' ++ b')).Perm (a ++ c :: b) := by
    refine List.Perm.trans (List.Perm.cons c ?_) List.perm_middle.symm
    rw [hab]
    exact List.perm_middle.symm
  have haccepted : ColumnAs (h.text l₁) fun _ _ => True := by
    intro eof st xs rest p hgoto hxs hends
    exact (h.columnAs hchain hgoto hxs hends).imp fun _ _ _ _ => trivial
  obtain ⟨f, -, hsecond⟩ := hcommutes l₁ _ hl₁ hl₂ haccepted
  exact h.not_columnAs hc _ _ hsecond

/-- **The constraints of a column commute exactly if there is no plain NOT NULL, or nothing that
takes in the NOT behind it**: neither a default nor a foreign key without a deferrable clause. -/
theorem commutes_iff (h : ColumnHead) {l : List Constraint}
    (hdefault : AtMostOne Constraint.IsDefault l)
    (hreferences : AtMostOne Constraint.IsReferences l) :
    h.Commutes l ↔ ¬ (.notNull ∈ l ∧ ∃ c ∈ l, c.Open) := by
  constructor
  · rintro hcommutes ⟨hnotNull, c, hmem, hc⟩
    exact h.not_commutes hnotNull hmem hc hcommutes
  · exact commutes_of hdefault hreferences

/-- The column `a INT`. -/
def columnInt : ColumnHead where
  name := .identifier ['a']
  type := .int
  typemod := none

theorem commutes_iff_unique : columnInt.Commutes [.unique, .notNull] ↔
    ¬ (.notNull ∈ [Constraint.unique, .notNull] ∧ ∃ c ∈ [Constraint.unique, .notNull], c.Open) :=
  columnInt.commutes_iff (List.pairwise_pair.mpr fun h => h.1) (List.pairwise_pair.mpr fun h => h.1)

/-- `a INT NOT NULL DEFAULT 1` is accepted, `a INT DEFAULT 1 NOT NULL` is not. -/
theorem not_commutes_default :
    ¬ columnInt.Commutes [.default false (.int 1), .notNull] :=
  columnInt.not_commutes (List.mem_cons_of_mem _ List.mem_cons_self) List.mem_cons_self trivial

end ColumnHead

end Hsql
