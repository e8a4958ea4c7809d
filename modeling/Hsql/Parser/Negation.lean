import Hsql.Parser.Sign

/-! NOT in front of predicates: it takes in the ones whose rules make operands, and is closed by
BETWEEN and IN, whose rules make expressions. -/

namespace Hsql
open Bison NT Keyword TokenKind
open Hsql.Expr (makeStar makeOpUnary makeOpBinary makeBetween makeInList makeInSelect)

/-! What stands between the parentheses behind IN. -/

/-- Tokens that the parser takes for a list of expressions. -/
structure Members where
  tokens : List Token
  reading : ParserState → Option (List (Option Expr)) → ParserState → Prop
  reads : ∀ {eof : Location} {st : List (Entry TokenKind.Val NT.Val)}
    {xs rest : List (Sigma TokenKind.Val × Location)}, topState st = 193 → Spell xs tokens →
    ahead rest = some (.ch ')') ∨ ahead rest = some (.ch ',') →
      Makes actions automaton eof (st, xs ++ rest) reading
        fun v => (.value 261 .exprList v :: st, rest)

/-- Tokens that the parser takes for a query. -/
structure Subselect where
  tokens : List Token
  reading : ParserState → Option SelectStatement → ParserState → Prop
  reads : ∀ {eof : Location} {st : List (Entry TokenKind.Val NT.Val)}
    {xs rest : List (Sigma TokenKind.Val × Location)}, topState st = 193 → Spell xs tokens →
    ahead rest = some (.ch ')') →
      Makes actions automaton eof (st, xs ++ rest) reading
        fun v => (.value 260 .selectNoParen v :: st, rest)

/-- The value of an expression without an alias. -/
def bare (v : Option Expr) : Option Expr := v.map fun e => { e with «alias» := none }

/-- The value of `SELECT * FROM t`. -/
def starQuery (t : Str) (s : ParserState) : SelectStatement :=
  { SelectStatement.new s.newSelect.1 with
    selectDistinct := false
    selectList := some [bare (some makeStar)]
    fromTable := some { TableRef.new .kTableName with name := some t, indexedBy := some none } }

section
variable {eof : Location} {st : List (Entry TokenKind.Val NT.Val)}
  {xs rest : List (Sigma TokenKind.Val × Location)}

theorem leads_starList (hst : (automaton.row (topState st)).act (some (.kw SELECT)) = .shift 5)
    (loc loc' loc'' : Location) : Leads actions automaton eof
      (st, ((Token.kw SELECT).input, loc) :: ((Token.ch '*').input, loc') ::
        ((Token.kw FROM).input, loc'') :: rest)
      (.value 142 .selectList (some [bare (some makeStar)]) :: .value 73 .optDistinct false ::
        .token 5 (.kw SELECT) () :: st, ((Token.kw FROM).input, loc'') :: rest) := by
  have hselect : Leads actions automaton eof
      (st, ((Token.kw SELECT).input, loc) :: ((Token.ch '*').input, loc') ::
        ((Token.kw FROM).input, loc'') :: rest)
      (.value 73 .optDistinct false :: .token 5 (.kw SELECT) () :: st,
        ((Token.ch '*').input, loc') :: ((Token.kw FROM).input, loc'') :: rest) :=
    (Leads.shift hst).trans (Leads.reduce (M := actions) (n := NT.optDistinct)
      (r := ⟨1, by decide⟩) rfl rfl rfl fun _ _ => rfl)
  have hstar : Leads actions automaton eof
      (.value 73 .optDistinct false :: .token 5 (.kw SELECT) () :: st,
        ((Token.ch '*').input, loc') :: ((Token.kw FROM).input, loc'') :: rest)
      (.value 64 .columnName (some makeStar) :: .value 73 .optDistinct false ::
        .token 5 (.kw SELECT) () :: st, ((Token.kw FROM).input, loc'') :: rest) :=
    (Leads.shift rfl).trans (Leads.reduce (M := actions) (n := NT.columnName)
      (r := ⟨2, by decide⟩) rfl rfl rfl fun _ _ => rfl)
  have hoperand : Leads actions automaton eof
      (.value 64 .columnName (some makeStar) :: .value 73 .optDistinct false ::
        .token 5 (.kw SELECT) () :: st, ((Token.kw FROM).input, loc'') :: rest)
      (.value 53 .operand (some makeStar) :: .value 73 .optDistinct false ::
        .token 5 (.kw SELECT) () :: st, ((Token.kw FROM).input, loc'') :: rest) :=
    leads_columnName rfl _
  have hmember : Leads actions automaton eof
      (.value 53 .operand (some makeStar) :: .value 73 .optDistinct false ::
        .token 5 (.kw SELECT) () :: st, ((Token.kw FROM).input, loc'') :: rest)
      (.value 219 .optAlias none :: .value 145 .expr (some makeStar) ::
        .value 73 .optDistinct false :: .token 5 (.kw SELECT) () :: st,
        ((Token.kw FROM).input, loc'') :: rest) :=
    (Leads.reduce (M := actions) (n := NT.expr) (r := ⟨0, by decide⟩) rfl rfl rfl
      fun _ _ => rfl).trans (Leads.reduce (M := actions) (n := NT.optAlias) (r := ⟨1, by decide⟩)
        rfl rfl rfl fun _ _ => rfl)
  have hlist : Leads actions automaton eof
      (.value 219 .optAlias none :: .value 145 .expr (some makeStar) ::
        .value 73 .optDistinct false :: .token 5 (.kw SELECT) () :: st,
        ((Token.kw FROM).input, loc'') :: rest)
      (.value 143 .exprList (some [bare (some makeStar)]) :: .value 73 .optDistinct false ::
        .token 5 (.kw SELECT) () :: st, ((Token.kw FROM).input, loc'') :: rest) :=
    (Leads.reduce (M := actions) (n := NT.exprAlias) (r := ⟨0, by decide⟩) rfl rfl rfl
      fun _ _ => rfl).trans (Leads.reduce (M := actions) (n := NT.exprList) (r := ⟨0, by decide⟩)
        rfl rfl rfl fun _ _ => rfl)
  exact ((((hselect.trans hstar).trans hoperand).trans hmember).trans hlist).trans
    (Leads.reduce (M := actions) (n := NT.selectList) (r := ⟨0, by decide⟩) rfl rfl rfl
      fun _ _ => rfl)

/-- The table behind FROM, and nothing more. -/
theorem leads_fromTable (hst : topState st = 142) (t : Str) (loc loc' loc'' : Location) :
    Leads actions automaton eof
      (st, ((Token.kw FROM).input, loc) :: (⟨IDENTIFIER, t⟩, loc') ::
        ((Token.ch ')').input, loc'') :: rest)
      (.value 213 .fromClause
        (some { TableRef.new .kTableName with name := some t, indexedBy := some none }) :: st,
        ((Token.ch ')').input, loc'') :: rest) := by
  have hfrom : (automaton.row (topState st)).act (some (.kw FROM)) = .shift 212 ∧
      automaton.goto (topState st) .fromClause = some 213 := by
    rw [hst]
    exact ⟨rfl, rfl⟩
  have hname : Leads actions automaton eof
      (st, ((Token.kw FROM).input, loc) :: (⟨IDENTIFIER, t⟩, loc') ::
        ((Token.ch ')').input, loc'') :: rest)
      (.token 74 IDENTIFIER t :: .token 212 (.kw FROM) () :: st,
        ((Token.ch ')').input, loc'') :: rest) := (Leads.shift hfrom.1).trans (.shift rfl)
  have htable : Leads actions automaton eof
      (.token 74 IDENTIFIER t :: .token 212 (.kw FROM) () :: st,
        ((Token.ch ')').input, loc'') :: rest)
      (.value 271 .tableName ⟨none, some t⟩ :: .token 212 (.kw FROM) () :: st,
        ((Token.ch ')').input, loc'') :: rest) :=
    (leads_name (.identifier t) rfl).trans (Leads.reduce (M := actions) (n := NT.tableName)
      (r := ⟨0, by decide⟩) rfl rfl rfl fun _ _ => rfl)
  have hnone : Leads actions automaton eof
      (.value 271 .tableName ⟨none, some t⟩ :: .token 212 (.kw FROM) () :: st,
        ((Token.ch ')').input, loc'') :: rest)
      (.value 375 .optAlias none :: .value 332 .optIndexedBy none ::
        .value 271 .tableName ⟨none, some t⟩ :: .token 212 (.kw FROM) () :: st,
        ((Token.ch ')').input, loc'') :: rest) :=
    (Leads.reduce (M := actions) (n := NT.optIndexedBy) (r := ⟨1, by decide⟩) rfl rfl rfl
      fun _ _ => rfl).trans (Leads.reduce (M := actions) (n := NT.optAlias) (r := ⟨1, by decide⟩)
        rfl rfl rfl fun _ _ => rfl)
  have hrefName : Leads actions automaton eof
      (.value 375 .optAlias none :: .value 332 .optIndexedBy none ::
        .value 271 .tableName ⟨none, some t⟩ :: .token 212 (.kw FROM) () :: st,
        ((Token.ch ')').input, loc'') :: rest)
      (.value 268 .nonjoinTableRefAtomic
        (some { TableRef.new .kTableName with name := some t, indexedBy := some none }) ::
          .token 212 (.kw FROM) () :: st, ((Token.ch ')').input, loc'') :: rest) :=
    (Leads.reduce (M := actions) (n := NT.tableRefName) (r := ⟨0, by decide⟩) rfl rfl rfl
      fun _ _ => rfl).trans (Leads.reduce (M := actions) (n := NT.nonjoinTableRefAtomic)
        (r := ⟨0, by decide⟩) rfl rfl rfl fun _ _ => rfl)
  have href : Leads actions automaton eof
      (.value 268 .nonjoinTableRefAtomic
        (some { TableRef.new .kTableName with name := some t, indexedBy := some none }) ::
          .token 212 (.kw FROM) () :: st, ((Token.ch ')').input, loc'') :: rest)
      (.value 266 .tableRef
        (some { TableRef.new .kTableName with name := some t, indexedBy := some none }) ::
          .token 212 (.kw FROM) () :: st, ((Token.ch ')').input, loc'') :: rest) :=
    (Leads.reduce (M := actions) (n := NT.tableRefAtomic) (r := ⟨0, by decide⟩) rfl rfl rfl
      fun _ _ => rfl).trans (Leads.reduce (M := actions) (n := NT.tableRef)
        (r := ⟨0, by decide⟩) rfl rfl rfl fun _ _ => rfl)
  exact ((((hname.trans htable).trans hnone).trans hrefName).trans href).trans
    (Leads.reduce (M := actions) (n := NT.fromClause) (r := ⟨0, by decide⟩) rfl rfl hfrom.2
      fun _ _ => rfl)

end

/-- The query `SELECT * FROM t`. -/
def Subselect.star (t : Str) : Subselect where
  tokens := [.kw SELECT, .ch '*', .kw FROM, ⟨IDENTIFIER, t⟩]
  reading := fun s v s' => v = some (starQuery t s) ∧ s' = s.newSelect.2
  reads := by
    intro eof st xs rest hst hxs hends
    obtain ⟨loc₁, xs₁, rfl, hxs₁⟩ := hxs.cons
    obtain ⟨loc₂, xs₂, rfl, hxs₂⟩ := hxs₁.cons
    obtain ⟨loc₃, xs₃, rfl, hxs₃⟩ := hxs₂.cons
    obtain ⟨loc₄, xs₄, rfl, hxs₄⟩ := hxs₃.cons
    obtain rfl := hxs₄.nil
    obtain ⟨⟨⟨_, u⟩, loc⟩, rest, rfl, rfl⟩ : ∃ x rest', rest = x :: rest' ∧ x.1.1 = .ch ')' := by
      cases rest with
      | nil => cases hends
      | cons x rest => exact ⟨x, rest, rfl, Option.some.inj hends⟩
    have htables : (automaton.row (topState st)).act (some (.kw SELECT)) = .shift 5 ∧
        automaton.goto (topState st) .selectClause = some 23 ∧
          automaton.goto (topState st) .selectNoParen = some 260 := by
      rw [hst]
      exact ⟨rfl, rfl, rfl⟩
    obtain ⟨hselect, hclause, hquery⟩ := htables
    have hlist : Leads actions automaton eof
        (st, ((Token.kw SELECT).input, loc₁) :: ((Token.ch '*').input, loc₂) ::
          ((Token.kw FROM).input, loc₃) :: (⟨IDENTIFIER, t⟩, loc₄) ::
            ((Token.ch ')').input, loc) :: rest)
        (.value 142 .selectList (some [bare (some makeStar)]) :: .value 73 .optDistinct false ::
          .token 5 (.kw SELECT) () :: st, ((Token.kw FROM).input, loc₃) ::
            (⟨IDENTIFIER, t⟩, loc₄) :: ((Token.ch ')').input, loc) :: rest) :=
      leads_starList hselect loc₁ loc₂ loc₃
    have hfrom : Leads actions automaton eof
        (.value 142 .selectList (some [bare (some makeStar)]) :: .value 73 .optDistinct false ::
          .token 5 (.kw SELECT) () :: st, ((Token.kw FROM).input, loc₃) ::
            (⟨IDENTIFIER, t⟩, loc₄) :: ((Token.ch ')').input, loc) :: rest)
        (.value 213 .fromClause
          (some { TableRef.new .kTableName with name := some t, indexedBy := some none }) ::
          .value 142 .selectList (some [bare (some makeStar)]) :: .value 73 .optDistinct false ::
            .token 5 (.kw SELECT) () :: st, ((Token.ch ')').input, loc) :: rest) :=
      leads_fromTable rfl t loc₃ loc₄ loc
    have hempty : Leads actions automaton eof
        (.value 213 .fromClause
          (some { TableRef.new .kTableName with name := some t, indexedBy := some none }) ::
          .value 142 .selectList (some [bare (some makeStar)]) :: .value 73 .optDistinct false ::
            .token 5 (.kw SELECT) () :: st, ((Token.ch ')').input, loc) :: rest)
        (.value 334 .optGroup none :: .value 273 .optWhere none :: .value 213 .fromClause
          (some { TableRef.new .kTableName with name := some t, indexedBy := some none }) ::
          .value 142 .selectList (some [bare (some makeStar)]) :: .value 73 .optDistinct false ::
            .token 5 (.kw SELECT) () :: st, ((Token.ch ')').input, loc) :: rest) :=
      (Leads.reduce (M := actions) (n := NT.optWhere) (r := ⟨1, by decide⟩) rfl rfl rfl
        fun _ _ => rfl).trans (Leads.reduce (M := actions) (n := NT.optGroup) (r := ⟨1, by decide⟩)
          rfl rfl rfl fun _ _ => rfl)
    have hmakes : Makes actions automaton eof
        (.value 334 .optGroup none :: .value 273 .optWhere none :: .value 213 .fromClause
          (some { TableRef.new .kTableName with name := some t, indexedBy := some none }) ::
          .value 142 .selectList (some [bare (some makeStar)]) :: .value 73 .optDistinct false ::
            .token 5 (.kw SELECT) () :: st, ((Token.ch ')').input, loc) :: rest)
        (fun s v s' => v = some (starQuery t s) ∧ s' = s.newSelect.2)
        fun v => (.value 23 .selectClause v :: st, ((Token.ch ')').input, loc) :: rest) :=
      Makes.reduce (M := actions) (n := NT.selectClause) (r := ⟨0, by decide⟩) rfl rfl hclause
        fun _ s => ⟨_, _, rfl, rfl, rfl⟩
    have hopt (v : Option SelectStatement) : Leads actions automaton eof
        (.value 23 .selectClause v :: st, ((Token.ch ')').input, loc) :: rest)
        (.value 165 .optLimit none :: .value 95 .optOrder none :: .value 23 .selectClause v :: st,
          ((Token.ch ')').input, loc) :: rest) :=
      (Leads.reduce (M := actions) (n := NT.optOrder) (r := ⟨1, by decide⟩) rfl rfl rfl
        fun _ _ => rfl).trans (Leads.reduce (M := actions) (n := NT.optLimit) (r := ⟨3, by decide⟩)
          rfl rfl rfl fun _ _ => rfl)
    intro look pos s
    obtain ⟨v, s', look₁, pos₁, ⟨rfl, rfl⟩, hsteps⟩ :=
      ((hmakes.head ((hlist.trans hfrom).trans hempty)).tail hopt) look pos s
    have hreduce : Leads actions automaton eof
        (.value 165 .optLimit none :: .value 95 .optOrder none ::
          .value 23 .selectClause (some (starQuery t s)) :: st, ((Token.ch ')').input, loc) :: rest)
        (.value 260 .selectNoParen (some (starQuery t s)) :: st,
          ((Token.ch ')').input, loc) :: rest) :=
      Leads.reduce (M := actions) (n := NT.selectNoParen) (r := ⟨0, by decide⟩) rfl rfl hquery
        fun _ _ => rfl
    obtain ⟨look₂, pos₂, hrest⟩ := hreduce look₁ pos₁ s.newSelect.2
    exact ⟨_, _, look₂, pos₂, ⟨rfl, rfl⟩, hsteps.trans hrest⟩

theorem ends_member {t : Option TokenKind} (h : t = some (.ch ')') ∨ t = some (.ch ',')) :
    EndsExpr t ∧ (automaton.row 145).act t = Tables.reduce optAlias 1 ∧
      (automaton.row 219).act t = Tables.reduce exprAlias 0 ∧
        (automaton.row 144).act t = Tables.reduce exprList 0 ∧
          (automaton.row 274).act t = Tables.reduce exprList 1 := by
  rcases h with rfl | rfl
  · decide
  · decide

section
variable {eof : Location} {st : List (Entry TokenKind.Val NT.Val)}
  {xs rest : List (Sigma TokenKind.Val × Location)} {ts : List Token} {R : Reading}

/-- A member of a list is an expression that is there, with nothing behind it. -/
theorem makes_member (h : ParsesAs ts R) (hsome : ∀ s v s', R s v s' → v ≠ none) {q : Nat}
    (hexpr : automaton.goto (topState st) .expr = some 145)
    (hgoto : automaton.goto (topState st) .exprAlias = some q)
    (hstate : topState st ≠ Op.or.entered ∧ topState st ≠ Op.and.entered) (hxs : Spell xs ts)
    (hends : ahead rest = some (.ch ')') ∨ ahead rest = some (.ch ',')) :
    Makes actions automaton eof (st, xs ++ rest) (fun s v s' => ∃ w, R s w s' ∧ v = bare w)
      fun v => (.value q .exprAlias v :: st, rest) := by
  obtain ⟨hend, hnone, halias, -⟩ := ends_member hends
  have hread := h hexpr hstate.1 hstate.2 eof st xs rest rfl hxs hend
  intro look pos s
  obtain ⟨w, s', look₁, pos₁, hR, hsteps⟩ := hread look pos s
  obtain ⟨e, rfl⟩ := Option.ne_none_iff_exists'.mp (hsome s w s' hR)
  have hempty : Leads actions automaton eof (.value 145 .expr (some e) :: st, rest)
      (.value 219 .optAlias none :: .value 145 .expr (some e) :: st, rest) :=
    Leads.reduce (M := actions) (n := NT.optAlias) (r := ⟨1, by decide⟩) hnone rfl rfl
      fun _ _ => rfl
  have hreduce : Leads actions automaton eof
      (.value 219 .optAlias none :: .value 145 .expr (some e) :: st, rest)
      (.value q .exprAlias (bare (some e)) :: st, rest) :=
    Leads.reduce (M := actions) (n := NT.exprAlias) (r := ⟨0, by decide⟩) halias rfl hgoto
      fun _ _ => rfl
  obtain ⟨look₂, pos₂, hrest⟩ := hempty.trans hreduce look₁ pos₁ s'
  exact ⟨bare (some e), s', look₂, pos₂, ⟨some e, hR, rfl⟩, hsteps.trans hrest⟩

end

namespace Members

def single {ts : List Token} {R : Reading} (h : ParsesAs ts R)
    (hsome : ∀ s v s', R s v s' → v ≠ none) : Members where
  tokens := ts
  reading := fun s v s' => ∃ w, R s w s' ∧ v = some [bare w]
  reads := by
    intro eof st xs rest hst hxs hends
    obtain ⟨-, -, -, hlist, -⟩ := ends_member hends
    have hexpr : automaton.goto (topState st) .expr = some 145 := by rw [hst]; rfl
    have hgoto : automaton.goto (topState st) .exprAlias = some 144 := by rw [hst]; rfl
    have hstate : topState st ≠ Op.or.entered ∧ topState st ≠ Op.and.entered := by
      rw [hst]
      decide
    have hgotolist : automaton.goto (topState st) .exprList = some 261 := by rw [hst]; rfl
    have hmember : Makes actions automaton eof (st, xs ++ rest)
        (fun s v s' => ∃ w, R s w s' ∧ v = bare w)
        fun v => (.value 144 .exprAlias v :: st, rest) :=
      makes_member h hsome hexpr hgoto hstate hxs hends
    have hreduce (v : Option Expr) : Leads actions automaton eof
        (.value 144 .exprAlias v :: st, rest) (.value 261 .exprList (some [v]) :: st, rest) :=
      Leads.reduce (M := actions) (n := NT.exprList) (r := ⟨0, by decide⟩) hlist rfl hgotolist
        fun _ _ => rfl
    have hall : Makes actions automaton eof (st, xs ++ rest)
        (fun s v s' => ∃ u, (∃ w, R s w s' ∧ u = bare w) ∧ v = some [u])
        fun v => (.value 261 .exprList v :: st, rest) := hmember.map (fun v => some [v]) hreduce
    refine hall.imp fun s v s' h => ?_
    obtain ⟨u, ⟨w, hR, rfl⟩, rfl⟩ := h
    exact ⟨w, hR, rfl⟩

/-- One more member behind a comma. -/
def snoc (l : Members) {ts : List Token} {R : Reading} (h : ParsesAs ts R)
    (hsome : ∀ s v s', R s v s' → v ≠ none) (hl : ∀ s v s', l.reading s v s' → v ≠ none) :
    Members where
  tokens := l.tokens ++ .ch ',' :: ts
  reading := fun s v s' => ∃ u s₁, l.reading s u s₁ ∧
    ∃ w, R s₁ w s' ∧ v = u.map fun u => u ++ [bare w]
  reads := by
    intro eof st xs rest hst hxs hends
    obtain ⟨-, -, -, -, hlist⟩ := ends_member hends
    obtain ⟨ys, zs, rfl, hys, hzs⟩ := hxs.append
    obtain ⟨loc, zs', rfl, hzs'⟩ := hzs.cons
    have hgotolist : automaton.goto (topState st) .exprList = some 261 := by rw [hst]; rfl
    have hfront : Makes actions automaton eof
        (st, ys ++ ((Token.ch ',').input, loc) :: (zs' ++ rest)) l.reading
        fun v => (.value 261 .exprList v :: st, ((Token.ch ',').input, loc) :: (zs' ++ rest)) :=
      l.reads hst hys (.inr rfl)
    have hnext (u : Option (List (Option Expr))) : Makes actions automaton eof
        (.value 261 .exprList u :: st, ((Token.ch ',').input, loc) :: (zs' ++ rest))
        (fun s v s' => ∃ w, R s w s' ∧ v = bare w)
        fun v => (.value 274 .exprAlias v :: .token 214 (.ch ',') () :: .value 261 .exprList u :: st,
          rest) := by
      have hshift : Leads actions automaton eof
          (.value 261 .exprList u :: st, ((Token.ch ',').input, loc) :: (zs' ++ rest))
          (.token 214 (.ch ',') () :: .value 261 .exprList u :: st, zs' ++ rest) := .shift rfl
      have hstate : (214 : Nat) ≠ Op.or.entered ∧ (214 : Nat) ≠ Op.and.entered := by decide
      have hmember : Makes actions automaton eof
          (.token 214 (.ch ',') () :: .value 261 .exprList u :: st, zs' ++ rest)
          (fun s v s' => ∃ w, R s w s' ∧ v = bare w)
          fun v => (.value 274 .exprAlias v :: .token 214 (.ch ',') () ::
            .value 261 .exprList u :: st, rest) :=
        makes_member h hsome rfl rfl hstate hzs' hends
      exact hmember.head hshift
    intro look pos s
    obtain ⟨u, s₁, look₁, pos₁, hu, hsteps⟩ := hfront look pos s
    obtain ⟨u, rfl⟩ := Option.ne_none_iff_exists'.mp (hl s u s₁ hu)
    have hreduce (v : Option Expr) : Leads actions automaton eof
        (.value 274 .exprAlias v :: .token 214 (.ch ',') () :: .value 261 .exprList (some u) :: st,
          rest) (.value 261 .exprList (some (u ++ [v])) :: st, rest) :=
      Leads.reduce (M := actions) (n := NT.exprList) (r := ⟨1, by decide⟩) hlist rfl hgotolist
        fun _ _ => rfl
    obtain ⟨v, s', look', pos', ⟨w, hw, rfl⟩, hrest⟩ := (hnext (some u)).tail hreduce look₁ pos₁ s₁
    refine ⟨some (u ++ [bare w]), s', look', pos', ⟨some u, s₁, hu, w, hw, rfl⟩, ?_⟩
    have hinput : (ys ++ ((Token.ch ',').input, loc) :: zs') ++ rest =
        ys ++ (((Token.ch ',').input, loc) :: (zs' ++ rest)) := by
      rw [List.append_assoc, List.cons_append]
    dsimp only
    rw [hinput]
    exact hsteps.trans hrest

end Members

theorem parses_scalar (x : Scalar) : ParsesAs x.tokens x.reading :=
  Chain.Readable.parses (e := .operand 0) trivial fun _ => .scalar x

theorem Scalar.ne_none {x : Scalar} {s s' : ParserState} {v : Option Expr}
    (h : x.reading s v s') : v ≠ none := by
  obtain ⟨rfl, -⟩ := h
  exact Option.some_ne_none _

namespace Members

/-- A list of scalars, the last one first. -/
def scalars (x : Scalar) : List Scalar → {l : Members // ∀ s v s', l.reading s v s' → v ≠ none}
  | [] => ⟨single (parses_scalar x) fun _ _ _ h => x.ne_none h, by
      rintro s v s' ⟨w, -, rfl⟩
      exact Option.some_ne_none _⟩
  | y :: ys => ⟨(scalars y ys).1.snoc (parses_scalar x) (fun _ _ _ h => x.ne_none h)
      (scalars y ys).2, by
        rintro s v s' ⟨u, s₁, hu, w, -, rfl⟩
        obtain ⟨u, rfl⟩ := Option.ne_none_iff_exists'.mp ((scalars y ys).2 s u s₁ hu)
        exact Option.some_ne_none _⟩

end Members

/-- What stands behind the operand of a predicate. -/
inductive Predicate where
  | binary (o : Op) (ho : o.layer = .operand) (b : Operand)
  | isNull
  | between (b c : Operand)
  | inList (l : Members)
  | inSelect (q : Subselect)

namespace Predicate

def tokens : Predicate → List Token
  | binary o _ b => o.token :: b.tokens
  | isNull => [.kw IS, .kw NULL]
  | between b c => .kw BETWEEN :: (b.tokens ++ .kw AND :: c.tokens)
  | inList l => .kw IN :: .ch '(' :: (l.tokens ++ [.ch ')'])
  | inSelect q => .kw IN :: .ch '(' :: (q.tokens ++ [.ch ')'])

/-- The value of the predicate for that of its operand. -/
def reading (a : Option Expr) : Predicate → Reading
  | binary o _ b => fun s v s' => ∃ y, b.reading s y s' ∧ v = some (makeOpBinary a o.type y)
  | isNull => fun s v s' => v = some (makeOpUnary .kOpIsNull a) ∧ s' = s
  | between b c => fun s v s' => ∃ y s₁, b.reading s y s₁ ∧
      ∃ z, c.reading s₁ z s' ∧ v = some (makeBetween a y z)
  | inList l => fun s v s' => ∃ y, l.reading s y s' ∧ v = some (makeInList a y)
  | inSelect q => fun s v s' => ∃ y, q.reading s y s' ∧ v = some (makeInSelect a y)

/-- The predicate is an operand. -/
def IsOperand : Predicate → Prop
  | binary _ _ _ | isNull => True
  | between _ _ | inList _ | inSelect _ => False

end Predicate

/-! What the parser makes of them. -/

theorem row_isNull : (∀ p ∈ [53, 113], (automaton.row p).act (some (.kw IS)) = .shift 126) ∧
    (automaton.row 113).act (some (.kw BETWEEN)) = Tables.reduce unaryExpr 1 ∧
      (automaton.row 113).act (some (.kw IN)) = Tables.reduce unaryExpr 1 ∧
        (automaton.row 113).default = Tables.reduce unaryExpr 1 ∧
          (∀ x ∈ (automaton.row 113).acts, EndsExpr x.1 → x.2 = Tables.reduce unaryExpr 1) ∧
            (automaton.row 310).default = Tables.reduce betweenExpr 0 ∧
              ∀ x ∈ (automaton.row 310).acts, EndsExpr x.1 → x.2 = Tables.reduce betweenExpr 0 := by
  decide

theorem EndsExpr.negation {t : Option TokenKind} (h : EndsExpr t) :
    (automaton.row 113).act t = Tables.reduce unaryExpr 1 := by
  obtain ⟨-, -, -, hdefault, hacts, -⟩ := row_isNull
  rcases act_cases (automaton.row 113) t with hmem | hact
  · exact hacts _ hmem h
  · exact hact.trans hdefault

theorem EndsExpr.between {t : Option TokenKind} (h : EndsExpr t) :
    (automaton.row 310).act t = Tables.reduce betweenExpr 0 := by
  obtain ⟨-, -, -, -, -, hdefault, hacts⟩ := row_isNull
  rcases act_cases (automaton.row 310) t with hmem | hact
  · exact hacts _ hmem h
  · exact hact.trans hdefault

theorem waits_not : Waits .operand 45 4 113 := by
  decide

theorem gotos_predicate : ∀ x ∈ Tables.gotos .expr, automaton.goto x.1 .betweenExpr = some 63 ∧
    automaton.goto x.1 .inExpr = some 58 ∧ automaton.goto x.1 .operand = some 53 ∧
      (automaton.row x.1).act (some (.kw NOT)) = .shift 45 := by
  rw [automaton_eq_rowwise]
  decide +kernel

section
variable {eof : Location} {st : List (Entry TokenKind.Val NT.Val)}
  {xs rest : List (Sigma TokenKind.Val × Location)}

/-- Behind its operand, a predicate that is an operand itself. -/
theorem makes_operandPredicate {p : Nat} (hw : Waits .operand (topState st) 4 p)
    (hp : p ∈ [53, 113]) {P : Predicate} (hP : P.IsOperand) (hends : EndsExpr (ahead rest))
    (hxs : Spell xs P.tokens) (a : Option Expr) :
    Makes actions automaton eof (.value p .operand a :: st, xs ++ rest) (P.reading a)
      fun v => (.value p .operand v :: st, rest) := by
  cases P with
  | binary o ho b =>
    obtain ⟨loc, xs', rfl, hxs'⟩ := hxs.cons
    have hlevel := (level_operand o ho).1
    have hshift : Leads actions automaton eof
        (.value p .operand a :: st, (o.token.input, loc) :: (xs' ++ rest))
        (.token o.entered o.token.kind o.token.val :: .value p .operand a :: st, xs' ++ rest) :=
      .shift (hw.goesOn o ho hlevel)
    have hgoto : automaton.goto o.entered .operand = some o.ended := by
      have h := (waits_entered o).goto
      rw [ho] at h
      exact h
    have hright : Makes actions automaton eof
        (.token o.entered o.token.kind o.token.val :: .value p .operand a :: st, xs' ++ rest)
        b.reading fun v => (.value o.ended .operand v :: .token o.entered o.token.kind o.token.val ::
          .value p .operand a :: st, rest) := b.reads hgoto hends.shuts.name hxs'
    have hreduce (v : Option Expr) : Leads actions automaton eof
        (.value o.ended .operand v :: .token o.entered o.token.kind o.token.val ::
          .value p .operand a :: st, rest)
        (.value p .operand (some (makeOpBinary a o.type v)) :: st, rest) := by
      have hwaits : Waits o.layer (topState st) 4 p := by
        rw [ho]
        exact hw
      have h : Leads actions automaton eof
          (o.layer.entry o.ended v :: .token o.entered o.token.kind o.token.val ::
            o.layer.entry p a :: st, rest)
          (o.layer.entry p (some (makeOpBinary a o.type v)) :: st, rest) :=
        leads_op o hwaits (hends.closes.ended o (Nat.zero_le _))
      rw [ho] at h
      exact h
    exact (hright.map (fun v => some (makeOpBinary a o.type v)) hreduce).head hshift
  | isNull =>
    obtain ⟨loc, xs₁, rfl, hxs₁⟩ := hxs.cons
    obtain ⟨loc₁, xs₂, rfl, hxs₂⟩ := hxs₁.cons
    obtain rfl := hxs₂.nil
    have his : Leads actions automaton eof
        (.value p .operand a :: st, (⟨.kw IS, ()⟩, loc) :: (⟨.kw NULL, ()⟩, loc₁) :: rest)
        (.token 126 (.kw IS) () :: .value p .operand a :: st, (⟨.kw NULL, ()⟩, loc₁) :: rest) :=
      .shift (row_isNull.1 p hp)
    have hnull : Leads actions automaton eof
        (.token 126 (.kw IS) () :: .value p .operand a :: st, (⟨.kw NULL, ()⟩, loc₁) :: rest)
        (.token 194 (.kw NULL) () :: .token 126 (.kw IS) () :: .value p .operand a :: st, rest) :=
      .shift rfl
    have hreduce : Leads actions automaton eof
        (.token 194 (.kw NULL) () :: .token 126 (.kw IS) () :: .value p .operand a :: st, rest)
        (.value 55 .unaryExpr (some (makeOpUnary .kOpIsNull a)) :: st, rest) :=
      Leads.reduce (M := actions) (n := NT.unaryExpr) (r := ⟨3, by decide⟩) rfl rfl
        (goto_part hw.goto (by decide)) fun _ _ => rfl
    have hoperand : Leads actions automaton eof
        (.value 55 .unaryExpr (some (makeOpUnary .kOpIsNull a)) :: st, rest)
        (.value p .operand (some (makeOpUnary .kOpIsNull a)) :: st, rest) :=
      Leads.reduce (M := actions) (n := NT.operand) (r := ⟨2, by decide⟩) rfl rfl hw.goto
        fun _ _ => rfl
    exact makes_operand (((his.trans hnull).trans hreduce).trans hoperand)
  | between b c => exact hP.elim
  | inList l => exact hP.elim
  | inSelect q => exact hP.elim

/-- The stack behind an operand, IN and the parenthesis. -/
def inStack (a : Option Expr) (st : List (Entry TokenKind.Val NT.Val)) :
    List (Entry TokenKind.Val NT.Val) :=
  .token 193 (.ch '(') () :: .token 125 (.kw IN) () :: .value 53 .operand a :: st

theorem leads_inOpen (a : Option Expr) (loc loc' : Location) : Leads actions automaton eof
    (.value 53 .operand a :: st,
      ((Token.kw IN).input, loc) :: ((Token.ch '(').input, loc') :: xs) (inStack a st, xs) := by
  have hin : Leads actions automaton eof
      (.value 53 .operand a :: st,
        ((Token.kw IN).input, loc) :: ((Token.ch '(').input, loc') :: xs)
      (.token 125 (.kw IN) () :: .value 53 .operand a :: st, ((Token.ch '(').input, loc') :: xs) :=
    .shift rfl
  exact hin.trans (.shift rfl)

/-- Behind its operand, a predicate that is an expression but no operand. -/
theorem makes_exprPredicate {p : Nat} (hgoto : automaton.goto (topState st) .expr = some p)
    {P : Predicate} (hP : ¬ P.IsOperand) (hends : EndsExpr (ahead rest))
    (hxs : Spell xs P.tokens) (a : Option Expr) :
    Makes actions automaton eof (.value 53 .operand a :: st, xs ++ rest) (P.reading a)
      fun v => (.value p .expr v :: st, rest) := by
  obtain ⟨hbetween, hin, -⟩ := gotos_predicate _ (goto_mem hgoto)
  have hinExpr (v : Option Expr) : Leads actions automaton eof
      (.value 58 .inExpr v :: st, rest) (.value p .expr v :: st, rest) :=
    Leads.reduce (M := actions) (n := NT.expr) (r := ⟨4, by decide⟩) rfl rfl hgoto fun _ _ => rfl
  cases P with
  | binary o ho b => exact absurd trivial hP
  | isNull => exact absurd trivial hP
  | between b c =>
    obtain ⟨loc, xs', rfl, hxs'⟩ := hxs.cons
    obtain ⟨ys, zs, rfl, hys, hzs⟩ := hxs'.append
    obtain ⟨loc', zs', rfl, hzs'⟩ := hzs.cons
    have hopen : Leads actions automaton eof
        (.value 53 .operand a :: st,
          ((Token.kw BETWEEN).input, loc) :: (ys ++ ((Token.kw AND).input, loc') :: (zs' ++ rest)))
        (.token 120 (.kw BETWEEN) () :: .value 53 .operand a :: st,
          ys ++ ((Token.kw AND).input, loc') :: (zs' ++ rest)) := .shift rfl
    have hlow : Makes actions automaton eof
        (.token 120 (.kw BETWEEN) () :: .value 53 .operand a :: st,
          ys ++ ((Token.kw AND).input, loc') :: (zs' ++ rest)) b.reading
        fun y => (.value 188 .operand y :: .token 120 (.kw BETWEEN) () :: .value 53 .operand a :: st,
          ((Token.kw AND).input, loc') :: (zs' ++ rest)) :=
      b.reads rfl (by decide : EndsName (some (.kw AND))) hys
    have hhigh (y : Option Expr) : Makes actions automaton eof
        (.value 188 .operand y :: .token 120 (.kw BETWEEN) () :: .value 53 .operand a :: st,
          ((Token.kw AND).input, loc') :: (zs' ++ rest))
        (fun s v s' => ∃ z, c.reading s z s' ∧ v = some (makeBetween a y z))
        fun v => (.value p .expr v :: st, rest) := by
      have hand : Leads actions automaton eof
          (.value 188 .operand y :: .token 120 (.kw BETWEEN) () :: .value 53 .operand a :: st,
            ((Token.kw AND).input, loc') :: (zs' ++ rest))
          (.token 255 (.kw AND) () :: .value 188 .operand y :: .token 120 (.kw BETWEEN) () ::
            .value 53 .operand a :: st, zs' ++ rest) := .shift rfl
      have hlast : Makes actions automaton eof
          (.token 255 (.kw AND) () :: .value 188 .operand y :: .token 120 (.kw BETWEEN) () ::
            .value 53 .operand a :: st, zs' ++ rest) c.reading
          fun z => (.value 310 .operand z :: .token 255 (.kw AND) () :: .value 188 .operand y ::
            .token 120 (.kw BETWEEN) () :: .value 53 .operand a :: st, rest) :=
        c.reads rfl hends.shuts.name hzs'
      have hreduce (z : Option Expr) : Leads actions automaton eof
          (.value 310 .operand z :: .token 255 (.kw AND) () :: .value 188 .operand y ::
            .token 120 (.kw BETWEEN) () :: .value 53 .operand a :: st, rest)
          (.value 63 .betweenExpr (some (makeBetween a y z)) :: st, rest) :=
        .reduce hends.between rfl hbetween fun _ _ => rfl
      have hexpr (v : Option Expr) : Leads actions automaton eof
          (.value 63 .betweenExpr v :: st, rest) (.value p .expr v :: st, rest) :=
        Leads.reduce (M := actions) (n := NT.expr) (r := ⟨1, by decide⟩) rfl rfl hgoto
          fun _ _ => rfl
      exact (hlast.map (fun z => some (makeBetween a y z))
        fun z => (hreduce z).trans (hexpr _)).head hand
    have hinput : ((Token.kw BETWEEN).input, loc) :: (ys ++ ((Token.kw AND).input, loc') :: zs') ++ rest =
        ((Token.kw BETWEEN).input, loc) :: (ys ++ ((Token.kw AND).input, loc') :: (zs' ++ rest)) := by
      rw [List.cons_append, List.append_assoc, List.cons_append]
    rw [hinput]
    exact (hlow.bind hhigh).head hopen
  | inList l =>
    obtain ⟨loc, xs₁, rfl, hxs₁⟩ := hxs.cons
    obtain ⟨loc₁, xs₂, rfl, hxs₂⟩ := hxs₁.cons
    obtain ⟨ys, zs, rfl, hys, hzs⟩ := hxs₂.append
    obtain ⟨loc₂, zs', rfl, hzs'⟩ := hzs.cons
    obtain rfl := hzs'.nil
    have hopen : Leads actions automaton eof
        (.value 53 .operand a :: st, ((Token.kw IN).input, loc) :: ((Token.ch '(').input, loc₁) ::
          (ys ++ ((Token.ch ')').input, loc₂) :: rest))
        (inStack a st, ys ++ ((Token.ch ')').input, loc₂) :: rest) := leads_inOpen a loc loc₁
    have hlist : Makes actions automaton eof
        (inStack a st, ys ++ ((Token.ch ')').input, loc₂) :: rest) l.reading
        fun y => (.value 261 .exprList y :: inStack a st, ((Token.ch ')').input, loc₂) :: rest) :=
      l.reads rfl hys (.inl rfl)
    have hreduce (y : Option (List (Option Expr))) : Leads actions automaton eof
        (.value 261 .exprList y :: inStack a st, ((Token.ch ')').input, loc₂) :: rest)
        (.value 58 .inExpr (some (makeInList a y)) :: st, rest) := by
      have hclose : Leads actions automaton eof
          (.value 261 .exprList y :: inStack a st, ((Token.ch ')').input, loc₂) :: rest)
          (.token 317 (.ch ')') () :: .value 261 .exprList y :: inStack a st, rest) := .shift rfl
      exact hclose.trans (Leads.reduce (M := actions) (n := NT.inExpr) (r := ⟨0, by decide⟩) rfl rfl
        hin fun _ _ => rfl)
    rw [append_enclosed]
    exact (hlist.map (fun y => some (makeInList a y))
      fun y => (hreduce y).trans (hinExpr _)).head hopen
  | inSelect q =>
    obtain ⟨loc, xs₁, rfl, hxs₁⟩ := hxs.cons
    obtain ⟨loc₁, xs₂, rfl, hxs₂⟩ := hxs₁.cons
    obtain ⟨ys, zs, rfl, hys, hzs⟩ := hxs₂.append
    obtain ⟨loc₂, zs', rfl, hzs'⟩ := hzs.cons
    obtain rfl := hzs'.nil
    have hopen : Leads actions automaton eof
        (.value 53 .operand a :: st, ((Token.kw IN).input, loc) :: ((Token.ch '(').input, loc₁) ::
          (ys ++ ((Token.ch ')').input, loc₂) :: rest))
        (inStack a st, ys ++ ((Token.ch ')').input, loc₂) :: rest) := leads_inOpen a loc loc₁
    have hquery : Makes actions automaton eof
        (inStack a st, ys ++ ((Token.ch ')').input, loc₂) :: rest) q.reading
        fun y => (.value 260 .selectNoParen y :: inStack a st,
          ((Token.ch ')').input, loc₂) :: rest) := q.reads rfl hys rfl
    have hreduce (y : Option SelectStatement) : Leads actions automaton eof
        (.value 260 .selectNoParen y :: inStack a st, ((Token.ch ')').input, loc₂) :: rest)
        (.value 58 .inExpr (some (makeInSelect a y)) :: st, rest) := by
      have hclose : Leads actions automaton eof
          (.value 260 .selectNoParen y :: inStack a st, ((Token.ch ')').input, loc₂) :: rest)
          (.token 316 (.ch ')') () :: .value 260 .selectNoParen y :: inStack a st, rest) :=
        .shift rfl
      exact hclose.trans (Leads.reduce (M := actions) (n := NT.inExpr) (r := ⟨2, by decide⟩) rfl rfl
        hin fun _ _ => rfl)
    rw [append_enclosed]
    exact (hquery.map (fun y => some (makeInSelect a y))
      fun y => (hreduce y).trans (hinExpr _)).head hopen

/-- The expression under NOT is an operand. -/
theorem leads_not {p : Nat} (hgoto : automaton.goto (topState st) .expr = some p)
    (hends : EndsExpr (ahead rest)) (v : Option Expr) : Leads actions automaton eof
      (.value 113 .operand v :: .token 45 (.kw NOT) () :: st, rest)
      (.value p .expr (some (makeOpUnary .kOpNot v)) :: st, rest) := by
  obtain ⟨-, -, hoperand, -⟩ := gotos_predicate _ (goto_mem hgoto)
  have hreduce : Leads actions automaton eof
      (.value 113 .operand v :: .token 45 (.kw NOT) () :: st, rest)
      (.value 55 .unaryExpr (some (makeOpUnary .kOpNot v)) :: st, rest) :=
    Leads.reduce (M := actions) (n := NT.unaryExpr) (r := ⟨1, by decide⟩) hends.negation rfl
      (goto_part hoperand (by decide)) fun _ _ => rfl
  have hunary : Leads actions automaton eof
      (.value 55 .unaryExpr (some (makeOpUnary .kOpNot v)) :: st, rest)
      (.value 53 .operand (some (makeOpUnary .kOpNot v)) :: st, rest) :=
    Leads.reduce (M := actions) (n := NT.operand) (r := ⟨2, by decide⟩) rfl rfl hoperand
      fun _ _ => rfl
  exact (hreduce.trans hunary).trans (.reduce hends.operand rfl hgoto fun _ _ => rfl)

end

/-! The readings of a predicate and of its negation. -/

namespace Predicate

/-- The predicate of an operand. -/
def asserted (a : Operand) (P : Predicate) : Reading := fun s v s' =>
  ∃ x s₁, a.reading s x s₁ ∧ P.reading x s₁ v s'

/-- The value under NOT. -/
def negated (R : Reading) : Reading := fun s v s' =>
  ∃ w, R s w s' ∧ v = some (makeOpUnary .kOpNot w)

/-- The predicate of the operand under NOT. -/
def ofNegated (a : Operand) (P : Predicate) : Reading := fun s v s' =>
  ∃ x s₁, a.reading s x s₁ ∧ P.reading (some (makeOpUnary .kOpNot x)) s₁ v s'

/-- The text of the predicate, and of it with NOT in front. -/
def text (a : Operand) (P : Predicate) : List Token := a.tokens ++ P.tokens

def notText (a : Operand) (P : Predicate) : List Token := .kw NOT :: P.text a

theorem endsName (P : Predicate) {xs rest : List (Sigma TokenKind.Val × Location)}
    (hxs : Spell xs P.tokens) : EndsName (ahead (xs ++ rest)) := by
  cases P with
  | binary o ho b =>
    obtain ⟨loc, xs', rfl, -⟩ := hxs.cons
    exact (sign_op o).1
  | isNull =>
    obtain ⟨loc, xs', rfl, -⟩ := hxs.cons
    exact (by decide : EndsName (some (.kw IS)))
  | between b c =>
    obtain ⟨loc, xs', rfl, -⟩ := hxs.cons
    exact (by decide : EndsName (some (.kw BETWEEN)))
  | inList l =>
    obtain ⟨loc, xs', rfl, -⟩ := hxs.cons
    exact (by decide : EndsName (some (.kw IN)))
  | inSelect q =>
    obtain ⟨loc, xs', rfl, -⟩ := hxs.cons
    exact (by decide : EndsName (some (.kw IN)))

/-- NOT goes no further than to the operand of a predicate that is no operand itself. -/
theorem closes_not {P : Predicate} (hP : ¬ P.IsOperand)
    {xs rest : List (Sigma TokenKind.Val × Location)} (hxs : Spell xs P.tokens) :
    (automaton.row 113).act (ahead (xs ++ rest)) = Tables.reduce unaryExpr 1 := by
  obtain ⟨-, hbetween, hin, -⟩ := row_isNull
  cases P with
  | binary o ho b => exact absurd trivial hP
  | isNull => exact absurd trivial hP
  | between b c =>
    obtain ⟨loc, xs', rfl, -⟩ := hxs.cons
    exact hbetween
  | inList l =>
    obtain ⟨loc, xs', rfl, -⟩ := hxs.cons
    exact hin
  | inSelect q =>
    obtain ⟨loc, xs', rfl, -⟩ := hxs.cons
    exact hin

theorem parses_text (a : Operand) (P : Predicate) : ParsesAs (P.text a) (P.asserted a) := by
  intro q p hgoto hor hand eof st xs rest hq hxs hends
  subst hq
  obtain ⟨ys, zs, rfl, hys, hzs⟩ := hxs.append
  obtain ⟨-, -, hoperand, -⟩ := gotos_predicate _ (goto_mem hgoto)
  have hfirst : Makes actions automaton eof (st, ys ++ (zs ++ rest)) a.reading
      fun x => (.value 53 .operand x :: st, zs ++ rest) := a.reads hoperand (P.endsName hzs) hys
  rw [List.append_assoc]
  by_cases hP : P.IsOperand
  · have hw : Waits .operand (topState st) 4 53 :=
      ⟨(waits_start _ (goto_mem hgoto) hor hand).opens, hoperand,
        fun o ho _ => operand_goesOn o ho, nofun, fun _ => le_rfl⟩
    have hnext (x : Option Expr) : Makes actions automaton eof
        (.value 53 .operand x :: st, zs ++ rest) (P.reading x)
        fun v => (.value p .expr v :: st, rest) :=
      (makes_operandPredicate hw (by decide) hP hends hzs x).tail
        fun v => .reduce hends.operand rfl hgoto fun _ _ => rfl
    exact hfirst.bind hnext
  · exact hfirst.bind fun x => makes_exprPredicate hgoto hP hends hzs x

/-- NOT in front of any operand, such as a predicate in parentheses. -/
theorem parses_not (a : Operand) : ParsesAs (.kw NOT :: a.tokens) (negated a.reading) := by
  intro q p hgoto _ _ eof st xs rest hq hxs hends
  subst hq
  obtain ⟨loc, xs', rfl, hxs'⟩ := hxs.cons
  obtain ⟨-, -, -, hnot⟩ := gotos_predicate _ (goto_mem hgoto)
  have hshift : Leads actions automaton eof (st, ((Token.kw NOT).input, loc) :: (xs' ++ rest))
      (.token 45 (.kw NOT) () :: st, xs' ++ rest) := .shift hnot
  have hoperand : Makes actions automaton eof (.token 45 (.kw NOT) () :: st, xs' ++ rest) a.reading
      fun v => (.value 113 .operand v :: .token 45 (.kw NOT) () :: st, rest) :=
    a.reads rfl hends.shuts.name hxs'
  exact (hoperand.map (fun v => some (makeOpUnary .kOpNot v)) (leads_not hgoto hends)).head hshift

/-- What the parser makes of NOT in front of a predicate: it takes in what is an operand. -/
theorem parses_notText (a : Operand) (P : Predicate) :
    (P.IsOperand → ParsesAs (P.notText a) (negated (P.asserted a))) ∧
      (¬ P.IsOperand → ParsesAs (P.notText a) (P.ofNegated a)) := by
  have hfirst {q p : Nat} (hgoto : automaton.goto q .expr = some p) {eof : Location}
      {st : List (Entry TokenKind.Val NT.Val)} (hq : topState st = q) {loc : Location}
      {ys zs rest : List (Sigma TokenKind.Val × Location)} (hys : Spell ys a.tokens)
      (hzs : Spell zs P.tokens) : Makes actions automaton eof
        (st, ((Token.kw NOT).input, loc) :: (ys ++ (zs ++ rest))) a.reading
        fun x => (.value 113 .operand x :: .token 45 (.kw NOT) () :: st, zs ++ rest) := by
    subst hq
    obtain ⟨-, -, -, hnot⟩ := gotos_predicate _ (goto_mem hgoto)
    have hshift : Leads actions automaton eof
        (st, ((Token.kw NOT).input, loc) :: (ys ++ (zs ++ rest)))
        (.token 45 (.kw NOT) () :: st, ys ++ (zs ++ rest)) := .shift hnot
    exact (a.reads rfl (P.endsName hzs) hys).head hshift
  constructor
  · intro hP q p hgoto _ _ eof st xs rest hq hxs hends
    obtain ⟨loc, xs', rfl, hxs'⟩ := hxs.cons
    obtain ⟨ys, zs, rfl, hys, hzs⟩ := Spell.append hxs'
    have hfront : Makes actions automaton eof
        (st, ((Token.kw NOT).input, loc) :: (ys ++ (zs ++ rest))) a.reading
        fun x => (.value 113 .operand x :: .token 45 (.kw NOT) () :: st, zs ++ rest) :=
      hfirst hgoto hq hys hzs
    subst hq
    have hnext (x : Option Expr) : Makes actions automaton eof
        (.value 113 .operand x :: .token 45 (.kw NOT) () :: st, zs ++ rest) (P.reading x)
        fun v => (.value 113 .operand v :: .token 45 (.kw NOT) () :: st, rest) := by
      have hw : Waits .operand (topState (.token 45 (.kw NOT) () :: st)) 4 113 := waits_not
      exact makes_operandPredicate hw (by decide) hP hends hzs x
    have hinner : Makes actions automaton eof
        (st, ((Token.kw NOT).input, loc) :: (ys ++ (zs ++ rest))) (P.asserted a)
        fun v => (.value 113 .operand v :: .token 45 (.kw NOT) () :: st, rest) := hfront.bind hnext
    have hall : Makes actions automaton eof
        (st, ((Token.kw NOT).input, loc) :: (ys ++ (zs ++ rest))) (negated (P.asserted a))
        fun v => (.value p .expr v :: st, rest) :=
      hinner.map (fun v => some (makeOpUnary .kOpNot v)) (leads_not hgoto hends)
    rw [List.cons_append, List.append_assoc]
    exact hall
  · intro hP q p hgoto _ _ eof st xs rest hq hxs hends
    obtain ⟨loc, xs', rfl, hxs'⟩ := hxs.cons
    obtain ⟨ys, zs, rfl, hys, hzs⟩ := Spell.append hxs'
    have hfront : Makes actions automaton eof
        (st, ((Token.kw NOT).input, loc) :: (ys ++ (zs ++ rest))) a.reading
        fun x => (.value 113 .operand x :: .token 45 (.kw NOT) () :: st, zs ++ rest) :=
      hfirst hgoto hq hys hzs
    subst hq
    obtain ⟨-, -, hoperand, -⟩ := gotos_predicate _ (goto_mem hgoto)
    have hreduce (x : Option Expr) : Leads actions automaton eof
        (.value 113 .operand x :: .token 45 (.kw NOT) () :: st, zs ++ rest)
        (.value 53 .operand (some (makeOpUnary .kOpNot x)) :: st, zs ++ rest) := by
      have hunary : Leads actions automaton eof
          (.value 113 .operand x :: .token 45 (.kw NOT) () :: st, zs ++ rest)
          (.value 55 .unaryExpr (some (makeOpUnary .kOpNot x)) :: st, zs ++ rest) :=
        Leads.reduce (M := actions) (n := NT.unaryExpr) (r := ⟨1, by decide⟩) (closes_not hP hzs)
          rfl (goto_part hoperand (by decide)) fun _ _ => rfl
      exact hunary.trans (Leads.reduce (M := actions) (n := NT.operand) (r := ⟨2, by decide⟩) rfl
        rfl hoperand fun _ _ => rfl)
    have hnext (x : Option Expr) : Makes actions automaton eof
        (.value 113 .operand x :: .token 45 (.kw NOT) () :: st, zs ++ rest)
        (P.reading (some (makeOpUnary .kOpNot x))) fun v => (.value p .expr v :: st, rest) :=
      (makes_exprPredicate hgoto hP hends hzs _).head (hreduce x)
    rw [List.cons_append, List.append_assoc]
    exact hfront.bind hnext

theorem not_parses_notText (a : Operand) {P : Predicate} (hP : ¬ P.IsOperand) :
    ¬ ParsesAs (P.notText a) (negated (P.asserted a)) := by
  intro hparses
  obtain ⟨v, s', ⟨w, -, hv⟩, x, s₁, -, hread⟩ :=
    hparses.unique ((parses_notText a P).2 hP) (.start ⟨0, 0, 0, 0⟩ .new)
  subst hv
  cases P with
  | binary o ho b => exact hP trivial
  | isNull => exact hP trivial
  | between b c =>
    obtain ⟨y, s₂, -, z, -, heq⟩ := hread
    cases congrArg Expr.opType (Option.some.inj heq)
  | inList l =>
    obtain ⟨y, -, heq⟩ := hread
    cases congrArg Expr.opType (Option.some.inj heq)
  | inSelect q =>
    obtain ⟨y, -, heq⟩ := hread
    cases congrArg Expr.opType (Option.some.inj heq)

/-- The predicate in parentheses. -/
def inParens (a : Operand) (P : Predicate) : Operand := .paren (ParsesAs.inside (parses_text a P))

/-- **NOT binds weaker than a predicate exactly if the predicate is no BETWEEN and no IN.** In front
of the parentheses it negates the predicate; without them the tree is the same exactly then. -/
theorem not_weakest_iff (a : Operand) (P : Predicate) :
    ParsesAs (.kw NOT :: (P.inParens a).tokens) (negated (P.asserted a)) ∧
      (ParsesAs (P.notText a) (negated (P.asserted a)) ↔ P.IsOperand) := by
  refine ⟨parses_not (P.inParens a), ?_⟩
  constructor
  · intro hparses
    by_contra hP
    exact not_parses_notText a hP hparses
  · intro hP
    exact (parses_notText a P).1 hP

/-- `NOT a BETWEEN a AND a` tests the negation of `a`. -/
theorem not_weakest_between :
    ¬ ParsesAs ((between (Chain.columns 1) (Chain.columns 1)).notText (Chain.columns 1))
      (negated ((between (Chain.columns 1) (Chain.columns 1)).asserted (Chain.columns 1))) :=
  not_parses_notText _ id

/-- `NOT a IN (SELECT * FROM t)` looks for the negation of `a`. -/
example : ¬ ParsesAs ((inSelect (.star ['t'])).notText (Chain.columns 1))
    (negated ((inSelect (.star ['t'])).asserted (Chain.columns 1))) := not_parses_notText _ id

/-- `NOT a IN (1, 2)` looks for the negation of `a`, too. -/
example : ¬ ParsesAs ((inList (Members.scalars (.int 2) [.int 1]).1).notText (Chain.columns 1))
    (negated ((inList (Members.scalars (.int 2) [.int 1]).1).asserted (Chain.columns 1))) :=
  not_parses_notText _ id

end Predicate

end Hsql
