import Hsql.Parser.Reading

/-! Foreign keys of columns, and what the parser makes of them: the table with its columns, the
events, and the clause at the end. -/

namespace Hsql
open Bison NT Keyword TokenKind

inductive EventAction where
  | setNull | setDefault | cascade | restrict | noAction

namespace EventAction

def tokens : EventAction → List Token
  | setNull => [.kw SET, .kw NULL]
  | setDefault => [.kw SET, .kw DEFAULT]
  | cascade => [.kw CASCADE]
  | restrict => [.kw RESTRICT]
  | noAction => [.kw NO, .kw ACTION]

def value : EventAction → ForeignKeyEventAction
  | setNull => .kFKSetNull
  | setDefault => .kFKSetDefault
  | cascade => .kFKCascade
  | restrict => .kFKRestrict
  | noAction => .kFKNoAction

end EventAction

inductive KeyEvent where
  | onDelete (a : EventAction)
  | onUpdate (a : EventAction)
  | match (k : NameToken)

namespace KeyEvent

def tokens : KeyEvent → List Token
  | onDelete a => .kw ON :: .kw DELETE :: a.tokens
  | onUpdate a => .kw ON :: .kw UPDATE :: a.tokens
  | «match» k => [.kw MATCH, k.token]

def value : KeyEvent → ForeignKeyEvent
  | onDelete a => { ForeignKeyEvent.new .kFKDelete with action := some a.value }
  | onUpdate a => { ForeignKeyEvent.new .kFKUpdate with action := some a.value }
  | «match» k => { ForeignKeyEvent.new .kFKMatch with «match» := k.value }

end KeyEvent

/-- The clause at the end of a foreign key. -/
inductive Deferral where
  | none | deferrable | notDeferrable | deferred | immediate | notDeferred | notImmediate

namespace Deferral

def tokens : Deferral → List Token
  | none => []
  | deferrable => [.kw DEFERRABLE]
  | notDeferrable => [.kw NOT, .kw DEFERRABLE]
  | deferred => [.kw DEFERRABLE, .kw INITIALLY, .kw DEFERRED]
  | immediate => [.kw DEFERRABLE, .kw INITIALLY, .kw IMMEDIATE]
  | notDeferred => [.kw NOT, .kw DEFERRABLE, .kw INITIALLY, .kw DEFERRED]
  | notImmediate => [.kw NOT, .kw DEFERRABLE, .kw INITIALLY, .kw IMMEDIATE]

def value : Deferral → ForeignKeyDeferred
  | none => .kUndefined
  | deferred => .kDeferred
  | _ => .kNotDeferred

end Deferral

structure KeyClause where
  table : NameToken
  /-- The columns between parentheses, if there are any. -/
  columns : Option (NameToken × List NameToken)
  events : List KeyEvent
  deferral : Deferral

namespace KeyClause

def columnTokens (f : KeyClause) : List Token :=
  match f.columns with
  | none => []
  | some (k, ks) => .ch '(' :: k.token :: (ks.flatMap (fun k => [.ch ',', k.token]) ++ [.ch ')'])

def columnValues (f : KeyClause) : Option (List (Option Str)) :=
  f.columns.map fun x => x.1.value :: x.2.map NameToken.value

def eventValues (f : KeyClause) : Option (List (Option ForeignKeyEvent)) :=
  if f.events = [] then none else some (f.events.map fun e => some e.value)

/-- The clause as far as its events. -/
def front (f : KeyClause) : List Token :=
  .kw REFERENCES :: f.table.token :: (f.columnTokens ++ f.events.flatMap KeyEvent.tokens)

def tokens (f : KeyClause) : List Token := f.front ++ f.deferral.tokens

def value (f : KeyClause) : ForeignKeyConstraint :=
  { ForeignKeyConstraint.new f.table.value with
    columns := f.columnValues
    events := f.eventValues
    deferred := f.deferral.value }

end KeyClause

/-! Facts about the tables. -/

/-- Where the tokens of a name lead where it cannot be a column. -/
def nameStates : List (TokenKind × Nat) := [(IDENTIFIER, 74), (STRING, 34), (.kw RECURSIVE, 37),
  (.kw REPLACE, 38), (.kw TEMP, 42), (.kw TEXT, 43), (.kw KEY, 44), (.kw ON, 46)]

theorem name_tables : ∀ q ∈ [225, 360, 414, 379, 242, 357, 439], ∀ x ∈ nameStates,
    (automaton.row q).act (some x.1) = .shift x.2 := by
  decide

theorem NameToken.mem_nameStates (k : NameToken) : (k.token.kind, k.entered) ∈ nameStates := by
  cases k <;> simp [nameStates, token, entered, Token.kw]

/-- What can stand behind a constraint. -/
def behindConstraint : List (Option TokenKind) := [some (.kw PRIMARY), some (.kw NOT), some (.kw NOTNULL),
  some (.kw UNIQUE), some (.kw DEFAULT), some (.kw AUTOINCREMENT), some (.kw REFERENCES),
  some (.ch ','), some (.ch ')')]

theorem behind_tables : ∀ t ∈ behindConstraint, (automaton.row 421).act t = Tables.reduce foreignKeyEventList 2 ∧
    (automaton.row 404).act t = Tables.reduce optColumnList 1 ∧
      (automaton.row 458).act t = Tables.reduce optForeignKeyDeferrable 5 ∧
        (automaton.row 477).act t = Tables.reduce optForeignKeyDeferrable 3 ∧
          (t ≠ some (.kw NOT) → EndsExpr t ∧
            (automaton.row 441).act t = Tables.reduce optForeignKeyDeferrable 6 ∧
              (automaton.row 405).act t = Tables.reduce columnConstraint 4) := by
  rw [automaton_eq_rowwise]
  decide +kernel

theorem row_initially : (automaton.row 476).act (some (.kw DEFERRED)) = .shift 486 ∧
    (automaton.row 476).act (some (.kw IMMEDIATE)) = .shift 485 ∧
      (automaton.row 487).act (some (.kw DEFERRED)) = .shift 493 ∧
        (automaton.row 487).act (some (.kw IMMEDIATE)) = .shift 492 := by
  rw [automaton_eq_rowwise]
  decide +kernel

/-- What can stand behind the name and the columns of a foreign key. -/
def behindColumns : List (Option TokenKind) :=
  some (.kw ON) :: some (.kw MATCH) :: some (.kw DEFERRABLE) :: behindConstraint

theorem behindColumns_tables : ∀ t ∈ behindColumns,
    (automaton.row 404).act t = Tables.reduce optColumnList 1 := by
  decide

section
variable {eof : Location} {st : List (Entry TokenKind.Val NT.Val)}
  {xs rest : List (Sigma TokenKind.Val × Location)}

theorem leads_nameToken (k : NameToken) {q g : Nat} (hq : topState st = q)
    (hmem : q ∈ [225, 360, 414, 379, 242, 357, 439])
    (hgoto : automaton.goto q .stringOrToken = some g) (loc : Location) :
    Leads actions automaton eof (st, (k.token.input, loc) :: rest)
      (.value g .stringOrToken k.value :: st, rest) := by
  subst hq
  have hshift : Leads actions automaton eof (st, (k.token.input, loc) :: rest)
      (.token k.entered k.token.kind k.token.val :: st, rest) :=
    .shift (name_tables _ hmem _ k.mem_nameStates)
  exact hshift.trans (leads_name k hgoto)

/-- The columns of a foreign key behind the first one. -/
theorem leads_columns (ks : List NameToken) (acc : List (Option Str))
    (hxs : Spell xs (ks.flatMap fun k => [.ch ',', k.token])) : Leads actions automaton eof
      (.value 298 .identCommalist (some acc) :: .token 242 (.ch '(') () :: st, xs ++ rest)
      (.value 298 .identCommalist (some (acc ++ ks.map NameToken.value)) ::
        .token 242 (.ch '(') () :: st, rest) := by
  induction ks generalizing acc xs with
  | nil =>
    obtain rfl := hxs.nil
    rw [List.map_nil, List.append_nil]
    exact .refl _
  | cons k ks ih =>
    obtain ⟨loc, xs₁, rfl, hxs₁⟩ := hxs.cons
    obtain ⟨loc₁, xs₂, rfl, hxs₂⟩ := hxs₁.cons
    have hcomma : Leads actions automaton eof
        (.value 298 .identCommalist (some acc) :: .token 242 (.ch '(') () :: st,
          ((Token.ch ',').input, loc) :: (k.token.input, loc₁) :: (xs₂ ++ rest))
        (.token 357 (.ch ',') () :: .value 298 .identCommalist (some acc) ::
          .token 242 (.ch '(') () :: st, (k.token.input, loc₁) :: (xs₂ ++ rest)) := .shift rfl
    have hname : Leads actions automaton eof
        (.token 357 (.ch ',') () :: .value 298 .identCommalist (some acc) ::
          .token 242 (.ch '(') () :: st, (k.token.input, loc₁) :: (xs₂ ++ rest))
        (.value 392 .stringOrToken k.value :: .token 357 (.ch ',') () ::
          .value 298 .identCommalist (some acc) :: .token 242 (.ch '(') () :: st, xs₂ ++ rest) :=
      leads_nameToken k (q := 357) rfl (by decide) (by decide) loc₁
    have hreduce : Leads actions automaton eof
        (.value 392 .stringOrToken k.value :: .token 357 (.ch ',') () ::
          .value 298 .identCommalist (some acc) :: .token 242 (.ch '(') () :: st, xs₂ ++ rest)
        (.value 298 .identCommalist (some (acc ++ [k.value])) :: .token 242 (.ch '(') () :: st,
          xs₂ ++ rest) :=
      Leads.reduce (M := actions) (n := NT.identCommalist) (r := ⟨1, by decide⟩) rfl rfl rfl
        fun _ _ => rfl
    have hrest := ih (acc ++ [k.value]) hxs₂
    rw [List.append_assoc, List.singleton_append] at hrest
    exact ((hcomma.trans hname).trans hreduce).trans hrest

theorem leads_columnList (f : KeyClause) (hst : topState st = 404) (hxs : Spell xs f.columnTokens)
    (hends : ahead rest ∈ behindColumns) : Leads actions automaton eof (st, xs ++ rest)
      (.value 421 .optColumnList f.columnValues :: st, rest) := by
  unfold KeyClause.columnTokens at hxs
  unfold KeyClause.columnValues
  have hgoto : automaton.goto (topState st) .optColumnList = some 421 := by rw [hst]; rfl
  cases hcolumns : f.columns with
  | none =>
    rw [hcolumns] at hxs
    obtain rfl := hxs.nil
    refine Leads.reduce (M := actions) (n := NT.optColumnList) (r := ⟨1, by decide⟩) ?_ rfl hgoto
      fun _ _ => rfl
    rw [hst]
    exact behindColumns_tables _ hends
  | some x =>
    obtain ⟨k, ks⟩ := x
    rw [hcolumns] at hxs
    obtain ⟨loc, xs₁, rfl, hxs₁⟩ := hxs.cons
    obtain ⟨loc₁, xs₂, rfl, hxs₂⟩ := hxs₁.cons
    obtain ⟨ys, zs, rfl, hys, hzs⟩ := hxs₂.append
    obtain ⟨loc₂, zs', rfl, hzs'⟩ := hzs.cons
    obtain rfl := hzs'.nil
    have hopen : Leads actions automaton eof
        (st, ((Token.ch '(').input, loc) :: (k.token.input, loc₁) ::
          (ys ++ ((Token.ch ')').input, loc₂) :: rest))
        (.token 242 (.ch '(') () :: st, (k.token.input, loc₁) ::
          (ys ++ ((Token.ch ')').input, loc₂) :: rest)) := by
      refine .shift ?_
      rw [hst]
      rfl
    have hname : Leads actions automaton eof
        (.token 242 (.ch '(') () :: st, (k.token.input, loc₁) ::
          (ys ++ ((Token.ch ')').input, loc₂) :: rest))
        (.value 299 .stringOrToken k.value :: .token 242 (.ch '(') () :: st,
          ys ++ ((Token.ch ')').input, loc₂) :: rest) :=
      leads_nameToken k (q := 242) rfl (by decide) (by decide) loc₁
    have hfirst : Leads actions automaton eof
        (.value 299 .stringOrToken k.value :: .token 242 (.ch '(') () :: st,
          ys ++ ((Token.ch ')').input, loc₂) :: rest)
        (.value 298 .identCommalist (some [k.value]) :: .token 242 (.ch '(') () :: st,
          ys ++ ((Token.ch ')').input, loc₂) :: rest) :=
      Leads.reduce (M := actions) (n := NT.identCommalist) (r := ⟨0, by decide⟩) rfl rfl rfl
        fun _ _ => rfl
    have hnext : Leads actions automaton eof
        (.value 298 .identCommalist (some [k.value]) :: .token 242 (.ch '(') () :: st,
          ys ++ ((Token.ch ')').input, loc₂) :: rest)
        (.value 298 .identCommalist (some ([k.value] ++ ks.map NameToken.value)) ::
          .token 242 (.ch '(') () :: st, ((Token.ch ')').input, loc₂) :: rest) :=
      leads_columns ks [k.value] hys
    have hclose : Leads actions automaton eof
        (.value 298 .identCommalist (some ([k.value] ++ ks.map NameToken.value)) ::
          .token 242 (.ch '(') () :: st, ((Token.ch ')').input, loc₂) :: rest)
        (.token 356 (.ch ')') () ::
          .value 298 .identCommalist (some ([k.value] ++ ks.map NameToken.value)) ::
            .token 242 (.ch '(') () :: st, rest) := .shift rfl
    have hreduce : Leads actions automaton eof
        (.token 356 (.ch ')') () ::
          .value 298 .identCommalist (some ([k.value] ++ ks.map NameToken.value)) ::
            .token 242 (.ch '(') () :: st, rest)
        (.value 421 .optColumnList (some ([k.value] ++ ks.map NameToken.value)) :: st, rest) :=
      Leads.reduce (M := actions) (n := NT.optColumnList) (r := ⟨0, by decide⟩) rfl rfl hgoto
        fun _ _ => rfl
    have hall := ((((hopen.trans hname).trans hfirst).trans hnext).trans hclose).trans hreduce
    rw [append_enclosed]
    exact hall

theorem leads_action (a : EventAction) {q g : Nat} (hst : topState st = q)
    (hq : (q, g) ∈ [(456, 474), (457, 475)]) (hxs : Spell xs a.tokens) :
    Leads actions automaton eof (st, xs ++ rest) (.value g .foreignKeyAction a.value :: st, rest) := by
  have hshift : ∀ x ∈ [(456, 474), (457, 475)], (automaton.row x.1).act (some (.kw SET)) = .shift 472 ∧
      (automaton.row x.1).act (some (.kw CASCADE)) = .shift 471 ∧
        (automaton.row x.1).act (some (.kw RESTRICT)) = .shift 470 ∧
          (automaton.row x.1).act (some (.kw NO)) = .shift 473 ∧
            automaton.goto x.1 .foreignKeyAction = some x.2 := by decide
  obtain ⟨hset, hcascade, hrestrict, hno, hgoto⟩ := hshift _ hq
  subst hst
  cases a with
  | setNull =>
    obtain ⟨loc, xs₁, rfl, hxs₁⟩ := hxs.cons
    obtain ⟨loc₁, xs₂, rfl, hxs₂⟩ := hxs₁.cons
    obtain rfl := hxs₂.nil
    exact ((Leads.shift hset).trans (.shift rfl)).trans (Leads.reduce (M := actions)
      (n := NT.foreignKeyAction) (r := ⟨0, by decide⟩) rfl rfl hgoto fun _ _ => rfl)
  | setDefault =>
    obtain ⟨loc, xs₁, rfl, hxs₁⟩ := hxs.cons
    obtain ⟨loc₁, xs₂, rfl, hxs₂⟩ := hxs₁.cons
    obtain rfl := hxs₂.nil
    exact ((Leads.shift hset).trans (.shift rfl)).trans (Leads.reduce (M := actions)
      (n := NT.foreignKeyAction) (r := ⟨1, by decide⟩) rfl rfl hgoto fun _ _ => rfl)
  | cascade =>
    obtain ⟨loc, xs₁, rfl, hxs₁⟩ := hxs.cons
    obtain rfl := hxs₁.nil
    exact (Leads.shift hcascade).trans (Leads.reduce (M := actions)
      (n := NT.foreignKeyAction) (r := ⟨2, by decide⟩) rfl rfl hgoto fun _ _ => rfl)
  | restrict =>
    obtain ⟨loc, xs₁, rfl, hxs₁⟩ := hxs.cons
    obtain rfl := hxs₁.nil
    exact (Leads.shift hrestrict).trans (Leads.reduce (M := actions)
      (n := NT.foreignKeyAction) (r := ⟨3, by decide⟩) rfl rfl hgoto fun _ _ => rfl)
  | noAction =>
    obtain ⟨loc, xs₁, rfl, hxs₁⟩ := hxs.cons
    obtain ⟨loc₁, xs₂, rfl, hxs₂⟩ := hxs₁.cons
    obtain rfl := hxs₂.nil
    exact ((Leads.shift hno).trans (.shift rfl)).trans (Leads.reduce (M := actions)
      (n := NT.foreignKeyAction) (r := ⟨4, by decide⟩) rfl rfl hgoto fun _ _ => rfl)

theorem leads_event (e : KeyEvent) {q g : Nat} (hst : topState st = q)
    (hq : (q, g) ∈ [(421, 442), (441, 461)]) (hxs : Spell xs e.tokens) :
    Leads actions automaton eof (st, xs ++ rest)
      (.value g .foreignKeyEvent (some e.value) :: st, rest) := by
  have hshift : ∀ x ∈ [(421, 442), (441, 461)], (automaton.row x.1).act (some (.kw ON)) = .shift 440 ∧
      (automaton.row x.1).act (some (.kw MATCH)) = .shift 439 ∧
        automaton.goto x.1 .foreignKeyEvent = some x.2 := by decide
  obtain ⟨hon, hmatch, hgoto⟩ := hshift _ hq
  subst hst
  cases e with
  | onDelete a =>
    obtain ⟨loc, xs₁, rfl, hxs₁⟩ := hxs.cons
    obtain ⟨loc₁, xs₂, rfl, hxs₂⟩ := hxs₁.cons
    have haction : Leads actions automaton eof
        (.token 456 (.kw DELETE) () :: .token 440 (.kw ON) () :: st, xs₂ ++ rest)
        (.value 474 .foreignKeyAction a.value :: .token 456 (.kw DELETE) () ::
          .token 440 (.kw ON) () :: st, rest) := leads_action a (q := 456) rfl (by decide) hxs₂
    have hdelete : Leads actions automaton eof
        (.token 440 (.kw ON) () :: st, ((Token.kw DELETE).input, loc₁) :: (xs₂ ++ rest))
        (.token 456 (.kw DELETE) () :: .token 440 (.kw ON) () :: st, xs₂ ++ rest) := .shift rfl
    exact (((Leads.shift hon).trans hdelete).trans haction).trans (Leads.reduce (M := actions)
      (n := NT.foreignKeyEvent) (r := ⟨0, by decide⟩) rfl rfl hgoto fun _ _ => rfl)
  | onUpdate a =>
    obtain ⟨loc, xs₁, rfl, hxs₁⟩ := hxs.cons
    obtain ⟨loc₁, xs₂, rfl, hxs₂⟩ := hxs₁.cons
    have haction : Leads actions automaton eof
        (.token 457 (.kw UPDATE) () :: .token 440 (.kw ON) () :: st, xs₂ ++ rest)
        (.value 475 .foreignKeyAction a.value :: .token 457 (.kw UPDATE) () ::
          .token 440 (.kw ON) () :: st, rest) := leads_action a (q := 457) rfl (by decide) hxs₂
    have hupdate : Leads actions automaton eof
        (.token 440 (.kw ON) () :: st, ((Token.kw UPDATE).input, loc₁) :: (xs₂ ++ rest))
        (.token 457 (.kw UPDATE) () :: .token 440 (.kw ON) () :: st, xs₂ ++ rest) := .shift rfl
    exact (((Leads.shift hon).trans hupdate).trans haction).trans (Leads.reduce (M := actions)
      (n := NT.foreignKeyEvent) (r := ⟨1, by decide⟩) rfl rfl hgoto fun _ _ => rfl)
  | «match» k =>
    obtain ⟨loc, xs₁, rfl, hxs₁⟩ := hxs.cons
    obtain ⟨loc₁, xs₂, rfl, hxs₂⟩ := hxs₁.cons
    obtain rfl := hxs₂.nil
    have hname : Leads actions automaton eof
        (.token 439 (.kw MATCH) () :: st, (k.token.input, loc₁) :: rest)
        (.value 455 .stringOrToken k.value :: .token 439 (.kw MATCH) () :: st, rest) :=
      leads_nameToken k (q := 439) rfl (by decide) (by decide) loc₁
    exact ((Leads.shift hmatch).trans hname).trans (Leads.reduce (M := actions)
      (n := NT.foreignKeyEvent) (r := ⟨2, by decide⟩) rfl rfl hgoto fun _ _ => rfl)

/-- The events of a foreign key behind the first one. -/
theorem leads_events (es : List KeyEvent) (acc : List (Option ForeignKeyEvent))
    (hxs : Spell xs (es.flatMap KeyEvent.tokens)) (hst : topState st = 421) :
    Leads actions automaton eof (.value 441 .foreignKeyEventList (some acc) :: st, xs ++ rest)
      (.value 441 .foreignKeyEventList (some (acc ++ es.map fun e => some e.value)) :: st, rest) := by
  induction es generalizing acc xs with
  | nil =>
    obtain rfl := hxs.nil
    rw [List.map_nil, List.append_nil]
    exact .refl _
  | cons e es ih =>
    obtain ⟨ys, zs, rfl, hys, hzs⟩ := hxs.append
    have hevent : Leads actions automaton eof
        (.value 441 .foreignKeyEventList (some acc) :: st, ys ++ (zs ++ rest))
        (.value 461 .foreignKeyEvent (some e.value) :: .value 441 .foreignKeyEventList (some acc) :: st,
          zs ++ rest) := leads_event e (q := 441) rfl (by decide) hys
    have hgoto : automaton.goto (topState st) .foreignKeyEventList = some 441 := by rw [hst]; rfl
    have hreduce : Leads actions automaton eof
        (.value 461 .foreignKeyEvent (some e.value) :: .value 441 .foreignKeyEventList (some acc) :: st,
          zs ++ rest)
        (.value 441 .foreignKeyEventList (some (acc ++ [some e.value])) :: st, zs ++ rest) :=
      Leads.reduce (M := actions) (n := NT.foreignKeyEventList) (r := ⟨1, by decide⟩) rfl rfl hgoto
        fun _ _ => rfl
    have hrest := ih (acc ++ [some e.value]) hzs
    rw [List.append_assoc, List.singleton_append] at hrest
    rw [List.append_assoc]
    exact (hevent.trans hreduce).trans hrest

theorem leads_eventList (f : KeyClause) (hst : topState st = 421)
    (hxs : Spell xs (f.events.flatMap KeyEvent.tokens))
    (hends : ahead rest ∈ some (.kw DEFERRABLE) :: behindConstraint) :
    Leads actions automaton eof (st, xs ++ rest)
      (.value 441 .foreignKeyEventList f.eventValues :: st, rest) := by
  have hgoto : automaton.goto (topState st) .foreignKeyEventList = some 441 := by rw [hst]; rfl
  unfold KeyClause.eventValues
  cases hevents : f.events with
  | nil =>
    rw [hevents] at hxs
    obtain rfl := hxs.nil
    refine Leads.reduce (M := actions) (n := NT.foreignKeyEventList) (r := ⟨2, by decide⟩) ?_ rfl
      hgoto fun _ _ => rfl
    rw [hst]
    rcases List.mem_cons.mp hends with heq | hmem
    · show (automaton.row 421).act (ahead rest) = _
      rw [heq]
      rfl
    · exact (behind_tables _ hmem).1
  | cons e es =>
    rw [hevents] at hxs
    obtain ⟨ys, zs, rfl, hys, hzs⟩ := Spell.append hxs
    have hevent : Leads actions automaton eof (st, ys ++ (zs ++ rest))
        (.value 442 .foreignKeyEvent (some e.value) :: st, zs ++ rest) :=
      leads_event e hst (by decide) hys
    have hreduce : Leads actions automaton eof
        (.value 442 .foreignKeyEvent (some e.value) :: st, zs ++ rest)
        (.value 441 .foreignKeyEventList (some [some e.value]) :: st, zs ++ rest) :=
      Leads.reduce (M := actions) (n := NT.foreignKeyEventList) (r := ⟨0, by decide⟩) rfl rfl hgoto
        fun _ _ => rfl
    have hrest : Leads actions automaton eof
        (.value 441 .foreignKeyEventList (some [some e.value]) :: st, zs ++ rest)
        (.value 441 .foreignKeyEventList (some ([some e.value] ++ es.map fun e => some e.value)) :: st,
          rest) := leads_events es [some e.value] hzs hst
    rw [List.append_assoc]
    exact (hevent.trans hreduce).trans hrest

set_option maxRecDepth 2000 in
theorem leads_deferral (d : Deferral) (hst : topState st = 441) (hxs : Spell xs d.tokens)
    (hends : ahead rest ∈ behindConstraint) (hnot : d = .none → ahead rest ≠ some (.kw NOT)) :
    Leads actions automaton eof (st, xs ++ rest)
      (.value 460 .optForeignKeyDeferrable d.value :: st, rest) := by
  obtain ⟨-, -, hdeferrable, hnotDeferrable, hclosed⟩ := behind_tables _ hends
  have hshift : (automaton.row (topState st)).act (some (.kw DEFERRABLE)) = .shift 458 ∧
      (automaton.row (topState st)).act (some (.kw NOT)) = .shift 459 ∧
        automaton.goto (topState st) .optForeignKeyDeferrable = some 460 := by
    rw [hst]
    exact ⟨rfl, rfl, rfl⟩
  obtain ⟨hdef, hno, hgoto⟩ := hshift
  cases d with
  | none =>
    obtain rfl := hxs.nil
    obtain ⟨-, hreduce, -⟩ := hclosed (hnot rfl)
    refine Leads.reduce (M := actions) (n := NT.optForeignKeyDeferrable) (r := ⟨6, by decide⟩) ?_ rfl
      hgoto fun _ _ => rfl
    rw [hst]
    exact hreduce
  | deferrable =>
    obtain ⟨loc, xs₁, rfl, hxs₁⟩ := hxs.cons
    obtain rfl := hxs₁.nil
    exact (Leads.shift hdef).trans (Leads.reduce (M := actions)
      (n := NT.optForeignKeyDeferrable) (r := ⟨5, by decide⟩) hdeferrable rfl hgoto fun _ _ => rfl)
  | notDeferrable =>
    obtain ⟨loc, xs₁, rfl, hxs₁⟩ := hxs.cons
    obtain ⟨loc₁, xs₂, rfl, hxs₂⟩ := hxs₁.cons
    obtain rfl := hxs₂.nil
    exact ((Leads.shift hno).trans (.shift rfl)).trans (Leads.reduce (M := actions)
      (n := NT.optForeignKeyDeferrable) (r := ⟨3, by decide⟩) hnotDeferrable rfl hgoto
      fun _ _ => rfl)
  | deferred =>
    obtain ⟨loc, xs₁, rfl, hxs₁⟩ := hxs.cons
    obtain ⟨loc₁, xs₂, rfl, hxs₂⟩ := hxs₁.cons
    obtain ⟨loc₂, xs₃, rfl, hxs₃⟩ := hxs₂.cons
    obtain rfl := hxs₃.nil
    have hshifts : Leads actions automaton eof
        (.token 458 (.kw DEFERRABLE) () :: st,
          ((Token.kw INITIALLY).input, loc₁) :: ((Token.kw DEFERRED).input, loc₂) :: rest)
        (.token 486 (.kw DEFERRED) () :: .token 476 (.kw INITIALLY) () ::
          .token 458 (.kw DEFERRABLE) () :: st, rest) :=
      (Leads.shift rfl).trans (.shift row_initially.1)
    exact ((Leads.shift hdef).trans hshifts).trans (Leads.reduce (M := actions)
      (n := NT.optForeignKeyDeferrable) (r := ⟨0, by decide⟩) rfl rfl hgoto fun _ _ => rfl)
  | immediate =>
    obtain ⟨loc, xs₁, rfl, hxs₁⟩ := hxs.cons
    obtain ⟨loc₁, xs₂, rfl, hxs₂⟩ := hxs₁.cons
    obtain ⟨loc₂, xs₃, rfl, hxs₃⟩ := hxs₂.cons
    obtain rfl := hxs₃.nil
    have hshifts : Leads actions automaton eof
        (.token 458 (.kw DEFERRABLE) () :: st,
          ((Token.kw INITIALLY).input, loc₁) :: ((Token.kw IMMEDIATE).input, loc₂) :: rest)
        (.token 485 (.kw IMMEDIATE) () :: .token 476 (.kw INITIALLY) () ::
          .token 458 (.kw DEFERRABLE) () :: st, rest) :=
      (Leads.shift rfl).trans (.shift row_initially.2.1)
    exact ((Leads.shift hdef).trans hshifts).trans (Leads.reduce (M := actions)
      (n := NT.optForeignKeyDeferrable) (r := ⟨4, by decide⟩) rfl rfl hgoto fun _ _ => rfl)
  | notDeferred =>
    obtain ⟨loc, xs₁, rfl, hxs₁⟩ := hxs.cons
    obtain ⟨loc₁, xs₂, rfl, hxs₂⟩ := hxs₁.cons
    obtain ⟨loc₂, xs₃, rfl, hxs₃⟩ := hxs₂.cons
    obtain ⟨loc₃, xs₄, rfl, hxs₄⟩ := hxs₃.cons
    obtain rfl := hxs₄.nil
    have hshifts : Leads actions automaton eof
        (.token 477 (.kw DEFERRABLE) () :: .token 459 (.kw NOT) () :: st,
          ((Token.kw INITIALLY).input, loc₂) :: ((Token.kw DEFERRED).input, loc₃) :: rest)
        (.token 493 (.kw DEFERRED) () :: .token 487 (.kw INITIALLY) () ::
          .token 477 (.kw DEFERRABLE) () :: .token 459 (.kw NOT) () :: st, rest) :=
      (Leads.shift rfl).trans (.shift row_initially.2.2.1)
    exact (((Leads.shift hno).trans (.shift rfl)).trans hshifts).trans (Leads.reduce (M := actions)
      (n := NT.optForeignKeyDeferrable) (r := ⟨1, by decide⟩) rfl rfl hgoto fun _ _ => rfl)
  | notImmediate =>
    obtain ⟨loc, xs₁, rfl, hxs₁⟩ := hxs.cons
    obtain ⟨loc₁, xs₂, rfl, hxs₂⟩ := hxs₁.cons
    obtain ⟨loc₂, xs₃, rfl, hxs₃⟩ := hxs₂.cons
    obtain ⟨loc₃, xs₄, rfl, hxs₄⟩ := hxs₃.cons
    obtain rfl := hxs₄.nil
    have hshifts : Leads actions automaton eof
        (.token 477 (.kw DEFERRABLE) () :: .token 459 (.kw NOT) () :: st,
          ((Token.kw INITIALLY).input, loc₂) :: ((Token.kw IMMEDIATE).input, loc₃) :: rest)
        (.token 492 (.kw IMMEDIATE) () :: .token 487 (.kw INITIALLY) () ::
          .token 477 (.kw DEFERRABLE) () :: .token 459 (.kw NOT) () :: st, rest) :=
      (Leads.shift rfl).trans (.shift row_initially.2.2.2)
    exact (((Leads.shift hno).trans (.shift rfl)).trans hshifts).trans (Leads.reduce (M := actions)
      (n := NT.optForeignKeyDeferrable) (r := ⟨2, by decide⟩) rfl rfl hgoto fun _ _ => rfl)

end

end Hsql
