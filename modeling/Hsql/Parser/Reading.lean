import Hsql.Parser.Effects
import Hsql.Parser.Infix

/-! Operands of any kind, and what reading them does to the state of the parser: scalars, and whatever
the parser takes for an expression between parentheses. -/

namespace Hsql
open Bison NT Keyword TokenKind
open Hsql.Expr (makeColumnRef makeTableColumnRef makeStar makeTableStar makeLiteralString makeLiteralFloat
  makeLiteralInt makeNullLiteral makeParameter makeNamedParameter)

/-- The value that is read, with the state in front of it and behind it. -/
abbrev Reading := ParserState → Option Expr → ParserState → Prop

/-- The input holds the tokens. -/
def Spell (xs : List (Sigma TokenKind.Val × Location)) (ts : List Token) : Prop :=
  xs.map Prod.fst = ts.map Token.input

theorem Spell.cons {xs : List (Sigma TokenKind.Val × Location)} {t : Token} {ts : List Token}
    (h : Spell xs (t :: ts)) : ∃ loc xs', xs = (t.input, loc) :: xs' ∧ Spell xs' ts := by
  obtain ⟨⟨u, loc⟩, xs', rfl, hu, hxs'⟩ := List.map_eq_cons_iff.mp h
  obtain rfl : u = t.input := hu
  exact ⟨loc, xs', rfl, hxs'⟩

theorem Spell.append {xs : List (Sigma TokenKind.Val × Location)} {ts us : List Token}
    (h : Spell xs (ts ++ us)) : ∃ ys zs, xs = ys ++ zs ∧ Spell ys ts ∧ Spell zs us := by
  unfold Spell at h
  rw [List.map_append] at h
  exact List.map_eq_append_iff.mp h

theorem Spell.nil {xs : List (Sigma TokenKind.Val × Location)} (h : Spell xs []) : xs = [] :=
  List.map_eq_nil_iff.mp h

theorem append_enclosed (x y z : Sigma TokenKind.Val × Location)
    (ys rest : List (Sigma TokenKind.Val × Location)) :
    x :: y :: (ys ++ [z]) ++ rest = x :: y :: (ys ++ z :: rest) := by
  rw [List.cons_append, List.cons_append, List.append_assoc]
  rfl

/-- The token does not go on with a name. -/
def EndsName (t : Option TokenKind) : Prop := t ≠ some (.ch '(') ∧ t ≠ some (.ch '.')

instance (t : Option TokenKind) : Decidable (EndsName t) :=
  inferInstanceAs (Decidable (_ ∧ _))

/-! Facts about the tables: what the states do that wait for an operand. -/

/-- Where the tokens that open an operand lead. -/
def operandHeads : List (TokenKind × Nat) := [(IDENTIFIER, 33), (STRING, 34), (FLOATVAL, 35), (INTVAL, 36),
  (RECURSIVE, 37), (REPLACE, 38), (NULL, 41), (TEMP, 42), (TEXT, 43), (KEY, 44), (ON, 46), ('-', 47),
  ('*', 48), ('(', 49), ('?', 50), (':', 51)]

/-- Where the parts of an operand lead. -/
def operandParts : List (NT × Nat) := [(scalarExpr, 54), (unaryExpr, 55), (binaryExpr, 56), (compExpr, 61),
  (columnName, 64), (literal, 65), (stringLiteral, 66), (numLiteral, 67), (intLiteral, 68),
  (nullLiteral, 69), (paramExpr, 70), (stringOrToken, 71)]

theorem operand_tables : ∀ x ∈ Tables.gotos .operand,
    (∀ h ∈ operandHeads, (automaton.row x.1).act (some h.1) = .shift h.2) ∧
      ∀ n ∈ operandParts, automaton.goto x.1 n.1 = some n.2 := by
  rw [automaton_eq_rowwise]
  decide +kernel

theorem row_name : (automaton.row 33).default = Tables.reduce columnName 0 ∧
    (∀ x ∈ (automaton.row 33).acts, x.1 = some (.ch '(') ∨ x.1 = some (.ch '.')) ∧
      (automaton.row 71).default = Tables.reduce stringLiteral 0 ∧
        ∀ x ∈ (automaton.row 71).acts, x.1 = some (.ch '(') ∨ x.1 = some (.ch '.') := by
  decide

theorem EndsName.act {t : Option TokenKind} (h : EndsName t) :
    (automaton.row 33).act t = Tables.reduce columnName 0 ∧
      (automaton.row 71).act t = Tables.reduce stringLiteral 0 := by
  obtain ⟨hcolumn, hcolumns, hname, hnames⟩ := row_name
  obtain ⟨hparen, hpoint⟩ := h
  constructor
  · rcases act_cases (automaton.row 33) t with hmem | hdefault
    · rcases hcolumns _ hmem with heq | heq
      · exact absurd heq hparen
      · exact absurd heq hpoint
    · exact hdefault.trans hcolumn
  · rcases act_cases (automaton.row 71) t with hmem | hdefault
    · rcases hnames _ hmem with heq | heq
      · exact absurd heq hparen
      · exact absurd heq hpoint
    · exact hdefault.trans hname

/-! Scalars. -/

/-- The tokens of `string_or_token`. -/
inductive NameToken where
  | identifier (a : Str)
  | string (a : Str)
  | recursive | text | on | key | temp | replace

namespace NameToken

def token : NameToken → Token
  | identifier a => ⟨IDENTIFIER, a⟩
  | string a => ⟨STRING, a⟩
  | recursive => .kw RECURSIVE
  | text => .kw TEXT
  | on => .kw ON
  | key => .kw KEY
  | temp => .kw TEMP
  | replace => .kw REPLACE

def value : NameToken → Option Str
  | identifier a => some a
  | string a => some a
  | recursive => strdup "recursive"
  | text => strdup "text"
  | on => strdup "ON"
  | key => strdup "key"
  | temp => strdup "temp"
  | replace => strdup "replace"

/-- The state behind the token, where an identifier cannot be a column. -/
def entered : NameToken → Nat
  | identifier _ => 74
  | string _ => 34
  | recursive => 37
  | text => 43
  | on => 46
  | key => 44
  | temp => 42
  | replace => 38

end NameToken

inductive Scalar where
  | name (k : NameToken)
  | tableColumn (t : Str) (k : NameToken)
  | star
  | tableStar (t : Str)
  | float (a : Str)
  | int (i : Int)
  | null
  | param
  | named (a : Str)

namespace Scalar

def tokens : Scalar → List Token
  | name k => [k.token]
  | tableColumn t k => [⟨IDENTIFIER, t⟩, .ch '.', k.token]
  | star => [.ch '*']
  | tableStar t => [⟨IDENTIFIER, t⟩, .ch '.', .ch '*']
  | float a => [⟨FLOATVAL, a⟩]
  | int i => [⟨INTVAL, i⟩]
  | null => [.kw NULL]
  | param => [.ch '?']
  | named a => [.ch ':', ⟨IDENTIFIER, a⟩]

/-- A lone identifier is a column; the other tokens of names are strings. -/
def value (s : ParserState) : Scalar → Expr
  | name (.identifier a) => makeColumnRef (some a)
  | name k => makeLiteralString k.value
  | tableColumn t k => makeTableColumnRef (some t) k.value
  | star => makeStar
  | tableStar t => makeTableStar (some t)
  | float a => makeLiteralFloat a
  | int i => makeLiteralInt i
  | null => makeNullLiteral
  | param => makeParameter s.heap.params
  | named a => makeNamedParameter (some a)

def after (s : ParserState) : Scalar → ParserState → Prop
  | param, s' => ∃ l, s' = s.pushParam l
  | _, s' => s' = s

def reading (x : Scalar) : Reading := fun s v s' => v = some (x.value s) ∧ x.after s s'

end Scalar

section
variable {eof : Location} {st : List (Entry TokenKind.Val NT.Val)}
  {xs rest : List (Sigma TokenKind.Val × Location)} {p : Nat}

theorem leads_name (k : NameToken) {g : Nat}
    (hgoto : automaton.goto (topState st) .stringOrToken = some g) :
    Leads actions automaton eof (.token k.entered k.token.kind k.token.val :: st, rest)
      (.value g .stringOrToken k.value :: st, rest) := by
  cases k <;> exact Leads.reduce rfl rfl hgoto fun _ _ => rfl

variable (h : automaton.goto (topState st) .operand = some p)
include h

theorem shifts_head {t : TokenKind} {q : Nat} (ht : (t, q) ∈ operandHeads) :
    (automaton.row (topState st)).act (some t) = .shift q :=
  (operand_tables _ (goto_mem h)).1 _ ht

theorem goto_part {n : NT} {q : Nat} (hn : (n, q) ∈ operandParts) :
    automaton.goto (topState st) n = some q :=
  (operand_tables _ (goto_mem h)).2 _ hn

theorem leads_scalar (v : Option Expr) : Leads actions automaton eof
    (.value 54 .scalarExpr v :: st, rest) (.value p .operand v :: st, rest) :=
  Leads.reduce (M := actions) (n := NT.operand) (r := ⟨1, by decide⟩) rfl rfl h fun _ _ => rfl

theorem leads_columnName (v : Option Expr) : Leads actions automaton eof
    (.value 64 .columnName v :: st, rest) (.value p .operand v :: st, rest) := by
  have hscalar : Leads actions automaton eof (.value 64 .columnName v :: st, rest)
      (.value 54 .scalarExpr v :: st, rest) :=
    Leads.reduce (M := actions) (n := NT.scalarExpr) (r := ⟨0, by decide⟩) rfl rfl
      (goto_part h (by decide)) fun _ _ => rfl
  exact hscalar.trans (leads_scalar h v)

theorem leads_literal (v : Option Expr) : Leads actions automaton eof
    (.value 65 .literal v :: st, rest) (.value p .operand v :: st, rest) := by
  have hscalar : Leads actions automaton eof (.value 65 .literal v :: st, rest)
      (.value 54 .scalarExpr v :: st, rest) :=
    Leads.reduce (M := actions) (n := NT.scalarExpr) (r := ⟨1, by decide⟩) rfl rfl
      (goto_part h (by decide)) fun _ _ => rfl
  exact hscalar.trans (leads_scalar h v)

theorem leads_stringOrToken (v : Option Str) (hends : EndsName (ahead rest)) :
    Leads actions automaton eof (.value 71 .stringOrToken v :: st, rest)
      (.value p .operand (some (makeLiteralString v)) :: st, rest) := by
  have hstring : Leads actions automaton eof (.value 71 .stringOrToken v :: st, rest)
      (.value 66 .stringLiteral (some (makeLiteralString v)) :: st, rest) :=
    Leads.reduce (M := actions) (n := NT.stringLiteral) (r := ⟨0, by decide⟩) hends.act.2 rfl
      (goto_part h (by decide)) fun _ _ => rfl
  have hliteral : Leads actions automaton eof
      (.value 66 .stringLiteral (some (makeLiteralString v)) :: st, rest)
      (.value 65 .literal (some (makeLiteralString v)) :: st, rest) :=
    Leads.reduce (M := actions) (n := NT.literal) (r := ⟨0, by decide⟩) rfl rfl
      (goto_part h (by decide)) fun _ _ => rfl
  exact (hstring.trans hliteral).trans (leads_literal h _)

theorem leads_numLiteral (v : Option Expr) : Leads actions automaton eof
    (.value 67 .numLiteral v :: st, rest) (.value p .operand v :: st, rest) := by
  have hliteral : Leads actions automaton eof (.value 67 .numLiteral v :: st, rest)
      (.value 65 .literal v :: st, rest) :=
    Leads.reduce (M := actions) (n := NT.literal) (r := ⟨1, by decide⟩) rfl rfl
      (goto_part h (by decide)) fun _ _ => rfl
  exact hliteral.trans (leads_literal h v)

theorem leads_paramExpr (v : Option Expr) : Leads actions automaton eof
    (.value 70 .paramExpr v :: st, rest) (.value p .operand v :: st, rest) := by
  have hliteral : Leads actions automaton eof (.value 70 .paramExpr v :: st, rest)
      (.value 65 .literal v :: st, rest) :=
    Leads.reduce (M := actions) (n := NT.literal) (r := ⟨3, by decide⟩) rfl rfl
      (goto_part h (by decide)) fun _ _ => rfl
  exact hliteral.trans (leads_literal h v)

/-- A token of `string_or_token` that is no identifier, in the place of an operand. -/
theorem leads_string (k : NameToken) (hk : (k.token.kind, k.entered) ∈ operandHeads) (loc : Location)
    (hends : EndsName (ahead rest)) : Leads actions automaton eof
      (st, (k.token.input, loc) :: rest)
      (.value p .operand (some (makeLiteralString k.value)) :: st, rest) := by
  have hshift : Leads actions automaton eof (st, (k.token.input, loc) :: rest)
      (.token k.entered k.token.kind k.token.val :: st, rest) := .shift (shifts_head h hk)
  exact (hshift.trans (leads_name k (goto_part h (by decide)))).trans
    (leads_stringOrToken h _ hends)

/-- The name of a table and the point behind it. -/
theorem leads_point (t : Str) (loc loc' : Location) : Leads actions automaton eof
    (st, (⟨IDENTIFIER, t⟩, loc) :: (⟨.ch '.', ()⟩, loc') :: rest)
    (.token 106 (.ch '.') () :: .token 33 IDENTIFIER t :: st, rest) := by
  have hname : Leads actions automaton eof
      (st, (⟨IDENTIFIER, t⟩, loc) :: (⟨.ch '.', ()⟩, loc') :: rest)
      (.token 33 IDENTIFIER t :: st, (⟨.ch '.', ()⟩, loc') :: rest) :=
    .shift (shifts_head h (by decide))
  exact hname.trans (.shift rfl)

omit h in
theorem makes_operand {x : List (Entry TokenKind.Val NT.Val) × List (Sigma TokenKind.Val × Location)}
    {v : Option Expr} (hleads : Leads actions automaton eof x (.value p .operand v :: st, rest)) :
    Makes actions automaton eof x (fun s w s' => w = v ∧ s' = s)
      fun v => (.value p .operand v :: st, rest) := .of_leads hleads

/-- The parser reads a scalar as its value. -/
theorem Scalar.reads (x : Scalar) (hends : EndsName (ahead rest)) (hxs : Spell xs x.tokens) :
    Makes actions automaton eof (st, xs ++ rest) x.reading
      fun v => (.value p .operand v :: st, rest) := by
  cases x with
  | name k =>
    obtain ⟨loc, xs', rfl, hxs'⟩ := hxs.cons
    obtain rfl := hxs'.nil
    cases k with
    | identifier a =>
      have hshift : Leads actions automaton eof (st, (⟨IDENTIFIER, a⟩, loc) :: rest)
          (.token 33 IDENTIFIER a :: st, rest) := .shift (shifts_head h (by decide))
      have hcolumn : Leads actions automaton eof (.token 33 IDENTIFIER a :: st, rest)
          (.value 64 .columnName (some (makeColumnRef (some a))) :: st, rest) :=
        .reduce hends.act.1 rfl (goto_part h (by decide)) fun _ _ => rfl
      exact makes_operand ((hshift.trans hcolumn).trans (leads_columnName h _))
    | string a => exact makes_operand (leads_string h (.string a)
      (List.mem_cons_of_mem _ List.mem_cons_self) loc hends)
    | recursive => exact makes_operand (leads_string h .recursive (by decide) loc hends)
    | text => exact makes_operand (leads_string h .text (by decide) loc hends)
    | on => exact makes_operand (leads_string h .on (by decide) loc hends)
    | key => exact makes_operand (leads_string h .key (by decide) loc hends)
    | temp => exact makes_operand (leads_string h .temp (by decide) loc hends)
    | replace => exact makes_operand (leads_string h .replace (by decide) loc hends)
  | tableColumn t k =>
    obtain ⟨loc, xs₁, rfl, hxs₁⟩ := hxs.cons
    obtain ⟨loc₁, xs₂, rfl, hxs₂⟩ := hxs₁.cons
    obtain ⟨loc₂, xs₃, rfl, hxs₃⟩ := hxs₂.cons
    obtain rfl := hxs₃.nil
    have hact : (automaton.row 106).act (some k.token.kind) = .shift k.entered := by
      cases k <;> rfl
    have hshift : Leads actions automaton eof
        (.token 106 (.ch '.') () :: .token 33 IDENTIFIER t :: st, (k.token.input, loc₂) :: rest)
        (.token k.entered k.token.kind k.token.val :: .token 106 (.ch '.') () ::
          .token 33 IDENTIFIER t :: st, rest) := .shift hact
    have hname : Leads actions automaton eof
        (.token k.entered k.token.kind k.token.val :: .token 106 (.ch '.') () ::
          .token 33 IDENTIFIER t :: st, rest)
        (.value 175 .stringOrToken k.value :: .token 106 (.ch '.') () ::
          .token 33 IDENTIFIER t :: st, rest) := leads_name k rfl
    have hcolumn : Leads actions automaton eof
        (.value 175 .stringOrToken k.value :: .token 106 (.ch '.') () ::
          .token 33 IDENTIFIER t :: st, rest)
        (.value 64 .columnName (some (makeTableColumnRef (some t) k.value)) :: st, rest) :=
      Leads.reduce (M := actions) (n := NT.columnName) (r := ⟨1, by decide⟩) rfl rfl
        (goto_part h (by decide)) fun _ _ => rfl
    have hall := (((leads_point h t loc loc₁).trans hshift).trans hname).trans hcolumn
    exact makes_operand (hall.trans (leads_columnName h _))
  | star =>
    obtain ⟨loc, xs', rfl, hxs'⟩ := hxs.cons
    obtain rfl := hxs'.nil
    have hshift : Leads actions automaton eof (st, (⟨.ch '*', ()⟩, loc) :: rest)
        (.token 48 (.ch '*') () :: st, rest) := .shift (shifts_head h (by decide))
    have hcolumn : Leads actions automaton eof (.token 48 (.ch '*') () :: st, rest)
        (.value 64 .columnName (some makeStar) :: st, rest) :=
      Leads.reduce (M := actions) (n := NT.columnName) (r := ⟨2, by decide⟩) rfl rfl
        (goto_part h (by decide)) fun _ _ => rfl
    exact makes_operand ((hshift.trans hcolumn).trans (leads_columnName h _))
  | tableStar t =>
    obtain ⟨loc, xs₁, rfl, hxs₁⟩ := hxs.cons
    obtain ⟨loc₁, xs₂, rfl, hxs₂⟩ := hxs₁.cons
    obtain ⟨loc₂, xs₃, rfl, hxs₃⟩ := hxs₂.cons
    obtain rfl := hxs₃.nil
    have hshift : Leads actions automaton eof
        (.token 106 (.ch '.') () :: .token 33 IDENTIFIER t :: st, (⟨.ch '*', ()⟩, loc₂) :: rest)
        (.token 174 (.ch '*') () :: .token 106 (.ch '.') () :: .token 33 IDENTIFIER t :: st, rest) :=
      .shift rfl
    have hcolumn : Leads actions automaton eof
        (.token 174 (.ch '*') () :: .token 106 (.ch '.') () :: .token 33 IDENTIFIER t :: st, rest)
        (.value 64 .columnName (some (makeTableStar (some t))) :: st, rest) :=
      Leads.reduce (M := actions) (n := NT.columnName) (r := ⟨3, by decide⟩) rfl rfl
        (goto_part h (by decide)) fun _ _ => rfl
    exact makes_operand ((((leads_point h t loc loc₁).trans hshift).trans hcolumn).trans
      (leads_columnName h _))
  | float a =>
    obtain ⟨loc, xs', rfl, hxs'⟩ := hxs.cons
    obtain rfl := hxs'.nil
    have hshift : Leads actions automaton eof (st, (⟨FLOATVAL, a⟩, loc) :: rest)
        (.token 35 FLOATVAL a :: st, rest) := .shift (shifts_head h (by decide))
    have hnumber : Leads actions automaton eof (.token 35 FLOATVAL a :: st, rest)
        (.value 67 .numLiteral (some (makeLiteralFloat a)) :: st, rest) :=
      Leads.reduce (M := actions) (n := NT.numLiteral) (r := ⟨0, by decide⟩) rfl rfl
        (goto_part h (by decide)) fun _ _ => rfl
    exact makes_operand ((hshift.trans hnumber).trans (leads_numLiteral h _))
  | int i =>
    obtain ⟨loc, xs', rfl, hxs'⟩ := hxs.cons
    obtain rfl := hxs'.nil
    have hshift : Leads actions automaton eof (st, (⟨INTVAL, i⟩, loc) :: rest)
        (.token 36 INTVAL i :: st, rest) := .shift (shifts_head h (by decide))
    have hint : Leads actions automaton eof (.token 36 INTVAL i :: st, rest)
        (.value 68 .intLiteral (some (makeLiteralInt i)) :: st, rest) :=
      .reduce rfl rfl (goto_part h (by decide)) fun _ _ => rfl
    have hnumber : Leads actions automaton eof
        (.value 68 .intLiteral (some (makeLiteralInt i)) :: st, rest)
        (.value 67 .numLiteral (some (makeLiteralInt i)) :: st, rest) :=
      Leads.reduce (M := actions) (n := NT.numLiteral) (r := ⟨1, by decide⟩) rfl rfl
        (goto_part h (by decide)) fun _ _ => rfl
    exact makes_operand (((hshift.trans hint).trans hnumber).trans (leads_numLiteral h _))
  | null =>
    obtain ⟨loc, xs', rfl, hxs'⟩ := hxs.cons
    obtain rfl := hxs'.nil
    have hshift : Leads actions automaton eof (st, (⟨.kw NULL, ()⟩, loc) :: rest)
        (.token 41 (.kw NULL) () :: st, rest) := .shift (shifts_head h (by decide))
    have hnull : Leads actions automaton eof (.token 41 (.kw NULL) () :: st, rest)
        (.value 69 .nullLiteral (some makeNullLiteral) :: st, rest) :=
      .reduce rfl rfl (goto_part h (by decide)) fun _ _ => rfl
    have hliteral : Leads actions automaton eof
        (.value 69 .nullLiteral (some makeNullLiteral) :: st, rest)
        (.value 65 .literal (some makeNullLiteral) :: st, rest) :=
      Leads.reduce (M := actions) (n := NT.literal) (r := ⟨2, by decide⟩) rfl rfl
        (goto_part h (by decide)) fun _ _ => rfl
    exact makes_operand (((hshift.trans hnull).trans hliteral).trans (leads_literal h _))
  | param =>
    obtain ⟨loc, xs', rfl, hxs'⟩ := hxs.cons
    obtain rfl := hxs'.nil
    have hshift : Leads actions automaton eof (st, (⟨.ch '?', ()⟩, loc) :: rest)
        (.token 50 (.ch '?') () :: st, rest) := .shift (shifts_head h (by decide))
    have hparam : Makes actions automaton eof (.token 50 (.ch '?') () :: st, rest)
        Scalar.param.reading (fun v => (.value 70 .paramExpr v :: st, rest)) :=
      Makes.reduce (M := actions) (n := NT.paramExpr) (r := ⟨0, by decide⟩) rfl rfl
        (goto_part h (by decide)) fun l s => ⟨_, _, rfl, rfl, l, rfl⟩
    exact (hparam.tail fun v => leads_paramExpr h v).head hshift
  | named a =>
    obtain ⟨loc, xs₁, rfl, hxs₁⟩ := hxs.cons
    obtain ⟨loc₁, xs₂, rfl, hxs₂⟩ := hxs₁.cons
    obtain rfl := hxs₂.nil
    have hcolon : Leads actions automaton eof
        (st, (⟨.ch ':', ()⟩, loc) :: (⟨IDENTIFIER, a⟩, loc₁) :: rest)
        (.token 51 (.ch ':') () :: st, (⟨IDENTIFIER, a⟩, loc₁) :: rest) :=
      .shift (shifts_head h (by decide))
    have hname : Leads actions automaton eof
        (.token 51 (.ch ':') () :: st, (⟨IDENTIFIER, a⟩, loc₁) :: rest)
        (.token 117 IDENTIFIER a :: .token 51 (.ch ':') () :: st, rest) := .shift rfl
    have hparam : Leads actions automaton eof
        (.token 117 IDENTIFIER a :: .token 51 (.ch ':') () :: st, rest)
        (.value 70 .paramExpr (some (makeNamedParameter (some a))) :: st, rest) :=
      Leads.reduce (M := actions) (n := NT.paramExpr) (r := ⟨1, by decide⟩) rfl rfl
        (goto_part h (by decide)) fun _ _ => rfl
    exact makes_operand (((hcolon.trans hname).trans hparam).trans (leads_paramExpr h _))

end

/-! Operands in general. -/

/-- Tokens that the parser takes for an operand wherever it waits for one. -/
structure Operand where
  tokens : List Token
  reading : Reading
  reads : ∀ {eof : Location} {st : List (Entry TokenKind.Val NT.Val)}
    {xs rest : List (Sigma TokenKind.Val × Location)} {p : Nat},
    automaton.goto (topState st) .operand = some p → EndsName (ahead rest) → Spell xs tokens →
      Makes actions automaton eof (st, xs ++ rest) reading fun v => (.value p .operand v :: st, rest)

def Operand.scalar (x : Scalar) : Operand where
  tokens := x.tokens
  reading := x.reading
  reads hgoto hends hxs := x.reads hgoto hends hxs

/-- Wherever the parser waits for an expression of its own, it reads the tokens so. -/
def ParsesAs (ts : List Token) (R : Reading) : Prop :=
  ∀ {q p : Nat}, automaton.goto q .expr = some p → q ≠ Op.or.entered → q ≠ Op.and.entered →
    ∀ (eof : Location) (st : List (Entry TokenKind.Val NT.Val))
      (xs rest : List (Sigma TokenKind.Val × Location)), topState st = q → Spell xs ts →
      EndsExpr (ahead rest) →
        Makes actions automaton eof (st, xs ++ rest) R fun v => (.value p .expr v :: st, rest)

/-- The parser reads the tokens so between parentheses. -/
def ReadsInside (ts : List Token) (R : Reading) : Prop :=
  ∀ (eof : Location) (st : List (Entry TokenKind.Val NT.Val))
    (xs rest : List (Sigma TokenKind.Val × Location)), topState st = 49 → Spell xs ts →
    ahead rest = some (.ch ')') →
      Makes actions automaton eof (st, xs ++ rest) R fun v => (.value 116 .expr v :: st, rest)

theorem ParsesAs.inside {ts : List Token} {R : Reading} (h : ParsesAs ts R) : ReadsInside ts R := by
  intro eof st xs rest hst hxs hrest
  have hends : EndsExpr (some (.ch ')')) := by decide
  rw [← hrest] at hends
  exact h (by decide) (by decide) (by decide) eof st xs rest hst hxs hends

/-- Whatever the parser reads between parentheses is an operand with them. -/
def Operand.paren {ts : List Token} {R : Reading} (h : ReadsInside ts R) : Operand where
  tokens := .ch '(' :: (ts ++ [.ch ')'])
  reading := R
  reads := by
    intro eof st xs rest p hgoto _ hxs
    obtain ⟨loc, xs', rfl, hxs'⟩ := hxs.cons
    obtain ⟨ys, zs, rfl, hys, hzs⟩ := hxs'.append
    obtain ⟨loc', zs', rfl, hzs'⟩ := hzs.cons
    obtain rfl := hzs'.nil
    have hopen : Leads actions automaton eof
        (st, ((Token.ch '(').input, loc) :: (ys ++ ((Token.ch ')').input, loc') :: rest))
        (.token 49 (.ch '(') () :: st, ys ++ ((Token.ch ')').input, loc') :: rest) :=
      .shift (shifts_head hgoto (by decide))
    have hinner := h eof (.token 49 (.ch '(') () :: st) ys (((Token.ch ')').input, loc') :: rest) rfl
      hys rfl
    have hclose (v : Option Expr) : Leads actions automaton eof
        (.value 116 .expr v :: .token 49 (.ch '(') () :: st, ((Token.ch ')').input, loc') :: rest)
        (.token 185 (.ch ')') () :: .value 116 .expr v :: .token 49 (.ch '(') () :: st, rest) :=
      .shift rfl
    have hreduce (v : Option Expr) : Leads actions automaton eof
        (.token 185 (.ch ')') () :: .value 116 .expr v :: .token 49 (.ch '(') () :: st, rest)
        (.value p .operand v :: st, rest) :=
      Leads.reduce (M := actions) (n := NT.operand) (r := ⟨0, by decide⟩) rfl rfl hgoto
        fun _ _ => rfl
    have hall := (hinner.tail fun v => (hclose v).trans (hreduce v)).head hopen
    have hinput : ((Token.ch '(').input, loc) :: (ys ++ [((Token.ch ')').input, loc')]) ++ rest =
        ((Token.ch '(').input, loc) :: (ys ++ ((Token.ch ')').input, loc') :: rest) := by
      rw [List.cons_append, List.append_assoc]
      rfl
    rw [hinput]
    exact hall

/-- The parser is deterministic: two readings of the same tokens have a value in common. -/
theorem ParsesAs.unique {ts : List Token} {R R' : Reading} (h : ParsesAs ts R)
    (h' : ParsesAs ts R') (s : ParserState) : ∃ v s', R s v s' ∧ R' s v s' := by
  -- Behind an open parenthesis and in front of a semicolon, nothing goes on with the expression.
  let xs : List (Sigma TokenKind.Val × Location) := ts.map fun t => (t.input, .zero)
  let rest : List (Sigma TokenKind.Val × Location) := [((Token.ch ';').input, .zero)]
  have hxs : Spell xs ts := by
    unfold Spell
    rw [List.map_map]
    rfl
  have hends : EndsExpr (ahead rest) := by decide
  have hmakes {R : Reading} (h : ParsesAs ts R) : Makes actions automaton .zero
      ([.token 49 (.ch '(') ()], xs ++ rest) R
      fun v => ([.value 116 .expr v, .token 49 (.ch '(') ()], rest) :=
    h (by decide) (by decide) (by decide) _ _ _ _ rfl hxs hends
  have hstuck : (automaton.row 116).act (some (.ch ';')) = .error := by decide
  obtain ⟨v, v', s', hR, hR', heq⟩ := (hmakes h).agree (hmakes h') (fun _ => hstuck)
    (fun _ => hstuck) false .zero s
  obtain rfl : v = v' := by
    obtain ⟨hstack, -⟩ := Prod.mk.inj heq
    obtain ⟨hvalue, -⟩ := List.cons.inj hstack
    exact eq_of_heq (Entry.value.inj hvalue).2.2
  exact ⟨v, s', hR, hR'⟩

end Hsql
