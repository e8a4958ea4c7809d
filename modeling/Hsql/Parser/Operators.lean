import Hsql.Bison.Leads
import Hsql.Lexer.RoundTrip
import Hsql.Parser.Accept

/-! Binary operators: what the automaton does at each of them, as far as precedence and
associativity decide it. -/

namespace Hsql
open Bison Flex NT Keyword TokenKind

instance : DecidableEq (Act grammar)
  | .shift q, .shift q' => decidable_of_iff (q = q') (by rw [Act.shift.injEq])
  | @Act.reduce _ _ _ n r, @Act.reduce _ _ _ n' r' =>
    if h : n = n' then
      decidable_of_iff (h ▸ r = r') (by subst h; simp)
    else
      .isFalse fun heq => h (Act.reduce.inj heq).1
  | .accept, .accept => .isTrue rfl
  | .error, .error => .isTrue rfl
  | .shift _, .reduce _ | .shift _, .accept | .shift _, .error | .reduce _, .shift _
  | .reduce _, .accept | .reduce _, .error | .accept, .shift _ | .accept, .reduce _
  | .accept, .error | .error, .shift _ | .error, .reduce _ | .error, .accept => .isFalse nofun

inductive Op where
  | or | and | equals | notEquals | like | less | lessEq | greater | greaterEq | plus | minus
  | asterisk | slash | percentage | caret | concat
deriving DecidableEq

instance : Fintype Op := .ofList [.or, .and, .equals, .notEquals, .like, .less, .lessEq, .greater,
  .greaterEq, .plus, .minus, .asterisk, .slash, .percentage, .caret, .concat]
  fun o => by cases o <;> decide

/-- Operands of the logical operators are expressions, those of the others are operands. -/
inductive Layer where
  | expr | operand
deriving DecidableEq

namespace Layer

def nt : Layer → NT
  | expr => .expr
  | operand => .operand

def entry : Layer → Nat → Option Expr → Entry TokenKind.Val NT.Val
  | expr, q, v => .value q .expr v
  | operand, q, v => .value q .operand v

@[simp] theorem topState_entry (l : Layer) (q : Nat) (v : Option Expr)
    (st : List (Entry TokenKind.Val NT.Val)) : topState (l.entry q v :: st) = q := by
  cases l <;> rfl

end Layer

namespace Op

def type : Op → OperatorType
  | or => .kOpOr
  | and => .kOpAnd
  | equals => .kOpEquals
  | notEquals => .kOpNotEquals
  | like => .kOpLike
  | less => .kOpLess
  | lessEq => .kOpLessEq
  | greater => .kOpGreater
  | greaterEq => .kOpGreaterEq
  | plus => .kOpPlus
  | minus => .kOpMinus
  | asterisk => .kOpAsterisk
  | slash => .kOpSlash
  | percentage => .kOpPercentage
  | caret => .kOpCaret
  | concat => .kOpConcat

def token : Op → Token
  | or => .kw OR
  | and => .kw AND
  | equals => .ch '='
  | notEquals => ⟨NOTEQUALS, ()⟩
  | like => .kw LIKE
  | less => .ch '<'
  | lessEq => ⟨LESSEQ, ()⟩
  | greater => .ch '>'
  | greaterEq => ⟨GREATEREQ, ()⟩
  | plus => .ch '+'
  | minus => .ch '-'
  | asterisk => .ch '*'
  | slash => .ch '/'
  | percentage => .ch '%'
  | caret => .ch '^'
  | concat => ⟨CONCAT, ()⟩

def spelling : Op → Str
  | or => "OR".toList
  | and => "AND".toList
  | equals => ['=']
  | notEquals => ['!', '=']
  | like => "LIKE".toList
  | less => ['<']
  | lessEq => ['<', '=']
  | greater => ['>']
  | greaterEq => ['>', '=']
  | plus => ['+']
  | minus => ['-']
  | asterisk => ['*']
  | slash => ['/']
  | percentage => ['%']
  | caret => ['^']
  | concat => ['|', '|']

/-- The line of the precedence table, from the lowest up. -/
def level : Op → Nat
  | or => 1
  | and => 2
  | equals | notEquals | like => 4
  | less | lessEq | greater | greaterEq => 5
  | plus | minus => 9
  | asterisk | slash | percentage => 10
  | caret => 11
  | concat => 12

/-- Whether the line says `%left`; else it says `%nonassoc`. -/
def isLeft : Op → Bool
  | equals | notEquals | like | less | lessEq | greater | greaterEq => false
  | _ => true

def layer : Op → Layer
  | or | and => .expr
  | _ => .operand

/-- The nonterminal of the operator's rule, and the rule's place among the productions. -/
def result : Op → NT
  | or | and => .logicExpr
  | equals | notEquals | less | greater | lessEq | greaterEq => .compExpr
  | _ => .binaryExpr

def index : Op → Nat
  | or => 1
  | and => 0
  | equals => 0
  | notEquals => 1
  | less => 2
  | greater => 3
  | lessEq => 4
  | greaterEq => 5
  | minus => 1
  | plus => 2
  | slash => 3
  | asterisk => 4
  | percentage => 5
  | caret => 6
  | like => 7
  | concat => 13

/-- The state behind an operand that no operator waits for. -/
def base (o : Op) : Nat := if o.layer = .expr then 52 else 53

/-- The state behind the operator. -/
def entered (o : Op) : Nat :=
  match (automaton.row o.base).act (some o.token.kind) with
  | .shift q => q
  | _ => 0

/-- The state behind the right operand. -/
def ended (o : Op) : Nat := (automaton.goto o.entered o.layer.nt).getD 0

/-- The lowest level of a left operand without parentheses. -/
def leftLevel (o : Op) : Nat := if o.isLeft then o.level else o.level + 1

end Op

/-- The states that an operand or expression starts in lead to the same states of its parts. -/
structure Opens (q : Nat) : Prop where
  identifier : (automaton.row q).act (some IDENTIFIER) = .shift 33
  paren : (automaton.row q).act (some '(') = .shift 49
  columnName : automaton.goto q .columnName = some 64
  scalarExpr : automaton.goto q .scalarExpr = some 54
  binaryExpr : automaton.goto q .binaryExpr = some 56
  compExpr : automaton.goto q .compExpr = some 61

instance (q : Nat) : Decidable (Opens q) :=
  decidable_of_iff ((automaton.row q).act (some IDENTIFIER) = .shift 33 ∧
      (automaton.row q).act (some '(') = .shift 49 ∧ automaton.goto q .columnName = some 64 ∧
      automaton.goto q .scalarExpr = some 54 ∧ automaton.goto q .binaryExpr = some 56 ∧
      automaton.goto q .compExpr = some 61)
    ⟨fun ⟨h₁, h₂, h₃, h₄, h₅, h₆⟩ => ⟨h₁, h₂, h₃, h₄, h₅, h₆⟩,
      fun ⟨h₁, h₂, h₃, h₄, h₅, h₆⟩ => ⟨h₁, h₂, h₃, h₄, h₅, h₆⟩⟩

/-- In a state that waits for an operand or expression and goes on to `p` with it, operators from a
level up go on behind it. -/
structure Waits (layer : Layer) (q m p : Nat) : Prop where
  opens : Opens q
  goto : automaton.goto q layer.nt = some p
  goesOn : ∀ o : Op, o.layer = layer → m ≤ o.level →
    (automaton.row p).act (some o.token.kind) = .shift o.entered
  /-- An expression can be an operand. -/
  expr : layer = .expr →
    m ≤ 3 ∧ automaton.goto q .operand = some 53 ∧ automaton.goto q .logicExpr = some 57
  operand : layer = .operand → 4 ≤ m

instance (layer : Layer) (q m p : Nat) : Decidable (Waits layer q m p) :=
  decidable_of_iff (Opens q ∧ automaton.goto q layer.nt = some p ∧
      (∀ o : Op, o.layer = layer → m ≤ o.level →
        (automaton.row p).act (some o.token.kind) = .shift o.entered) ∧
      (layer = .expr →
        m ≤ 3 ∧ automaton.goto q .operand = some 53 ∧ automaton.goto q .logicExpr = some 57) ∧
      (layer = .operand → 4 ≤ m))
    ⟨fun ⟨h₁, h₂, h₃, h₄, h₅⟩ => ⟨h₁, h₂, h₃, h₄, h₅⟩,
      fun ⟨h₁, h₂, h₃, h₄, h₅⟩ => ⟨h₁, h₂, h₃, h₄, h₅⟩⟩

/-- A token that ends what an operator from a level up has to its left. -/
structure Closes (t : Option TokenKind) (m : Nat) : Prop where
  column : (automaton.row 33).act t = Tables.reduce .columnName 0
  operand : m ≤ 3 → (automaton.row 53).act t = Tables.reduce .expr 0
  ended : ∀ o : Op, m ≤ o.level → (automaton.row o.ended).act t = Tables.reduce o.result o.index

instance (t : Option TokenKind) (m : Nat) : Decidable (Closes t m) :=
  decidable_of_iff ((automaton.row 33).act t = Tables.reduce .columnName 0 ∧
      (m ≤ 3 → (automaton.row 53).act t = Tables.reduce .expr 0) ∧
      ∀ o : Op, m ≤ o.level → (automaton.row o.ended).act t = Tables.reduce o.result o.index)
    ⟨fun ⟨h₁, h₂, h₃⟩ => ⟨h₁, h₂, h₃⟩, fun ⟨h₁, h₂, h₃⟩ => ⟨h₁, h₂, h₃⟩⟩

theorem Closes.mono {t : Option TokenKind} {m m' : Nat} (h : Closes t m) (hm : m ≤ m') :
    Closes t m' :=
  ⟨h.column, fun h' => h.operand (hm.trans h'), fun o ho => h.ended o (hm.trans ho)⟩

/-! Facts about the tables. -/

theorem closes_op : ∀ o : Op, Closes (some o.token.kind) o.leftLevel := by
  decide

theorem closes_paren : Closes (some ')') 0 := by
  decide

theorem waits_entered : ∀ o : Op, Waits o.layer o.entered (o.level + 1) o.ended := by
  decide

theorem waits_paren : Waits .expr 49 0 116 := by
  decide

theorem waits_start : ∀ x ∈ Tables.gotos .expr, x.1 ≠ Op.or.entered → x.1 ≠ Op.and.entered →
    Waits .expr x.1 0 x.2 := by
  decide +kernel

theorem operand_goesOn : ∀ o : Op, o.layer = .operand →
    (automaton.row 53).act (some o.token.kind) = .shift o.entered := by
  decide

theorem level_expr : ∀ o : Op, o.layer = .expr → o.leftLevel = o.level ∧ o.level ≤ 2 := by
  decide

theorem level_operand : ∀ o : Op, o.layer = .operand → 4 ≤ o.level ∧ o.level ≤ o.leftLevel := by
  decide

/-- Tokens that go on with an expression or a name, though not in every state behind an operand. -/
def inner : List (Option TokenKind) := [some AND, some OR, some ESCAPE, some '.', some '(']

/-- The token neither goes on with a name or an operand nor joins it to another expression. -/
structure EndsExpr (t : Option TokenKind) : Prop where
  operand : (automaton.row 53).act t = Tables.reduce .expr 0
  other : t ∉ inner

instance (t : Option TokenKind) : Decidable (EndsExpr t) :=
  decidable_of_iff ((automaton.row 53).act t = Tables.reduce .expr 0 ∧
      t ∉ inner)
    ⟨fun ⟨h₁, h₂⟩ => ⟨h₁, h₂⟩, fun ⟨h₁, h₂⟩ => ⟨h₁, h₂⟩⟩

theorem row_column : ∀ x ∈ (automaton.row 33).acts, EndsExpr x.1 →
    x.2 = Tables.reduce .columnName 0 := by
  decide

theorem row_ended : ∀ o : Op, (automaton.row o.ended).default = Tables.reduce o.result o.index ∧
    ∀ x ∈ (automaton.row o.ended).acts, EndsExpr x.1 → x.2 = Tables.reduce o.result o.index := by
  decide

theorem EndsExpr.closes {t : Option TokenKind} (h : EndsExpr t) : Closes t 0 := by
  refine ⟨?_, fun _ => h.operand, fun o _ => ?_⟩
  · rcases act_cases (automaton.row 33) t with hmem | hdefault
    · exact row_column _ hmem h
    · exact hdefault
  · obtain ⟨hreduce, hacts⟩ := row_ended o
    rcases act_cases (automaton.row o.ended) t with hmem | hdefault
    · exact hacts _ hmem h
    · exact hdefault.trans hreduce

/-! Stretches of the run. -/

section
variable {eof : Location} {st : List (Entry TokenKind.Val NT.Val)}
  {rest : List (Sigma TokenKind.Val × Location)} {p : Nat} {v : Option Expr}

theorem leads_column (h : Opens (topState st))
    (hgoto : automaton.goto (topState st) .operand = some p) :
    Leads actions automaton eof (.value 64 .columnName v :: st, rest)
      (.value p .operand v :: st, rest) := by
  have hscalar : Leads actions automaton eof (.value 64 .columnName v :: st, rest)
      (.value 54 .scalarExpr v :: st, rest) :=
    Leads.reduce (M := actions) (n := NT.scalarExpr) (r := ⟨0, by decide⟩) rfl rfl h.scalarExpr fun _ _ => rfl
  exact hscalar.trans (Leads.reduce (M := actions) (n := NT.operand) (r := ⟨1, by decide⟩) rfl rfl hgoto fun _ _ => rfl)

theorem leads_binary (hgoto : automaton.goto (topState st) .operand = some p) :
    Leads actions automaton eof (.value 56 .binaryExpr v :: st, rest)
      (.value p .operand v :: st, rest) :=
  Leads.reduce (M := actions) (n := NT.operand) (r := ⟨3, by decide⟩) rfl rfl hgoto fun _ _ => rfl

theorem leads_comp (h : Opens (topState st))
    (hgoto : automaton.goto (topState st) .operand = some p) :
    Leads actions automaton eof (.value 61 .compExpr v :: st, rest)
      (.value p .operand v :: st, rest) := by
  have hbinary : Leads actions automaton eof (.value 61 .compExpr v :: st, rest)
      (.value 56 .binaryExpr v :: st, rest) :=
    Leads.reduce (M := actions) (n := NT.binaryExpr) (r := ⟨0, by decide⟩) rfl rfl h.binaryExpr fun _ _ => rfl
  exact hbinary.trans (leads_binary hgoto)

theorem leads_logic (hgoto : automaton.goto (topState st) .expr = some p) :
    Leads actions automaton eof (.value 57 .logicExpr v :: st, rest)
      (.value p .expr v :: st, rest) :=
  Leads.reduce (M := actions) (n := NT.expr) (r := ⟨2, by decide⟩) rfl rfl hgoto fun _ _ => rfl

/-- The reduction of an operator with its operands. -/
theorem leads_op (o : Op) {m q : Nat} {a b : Option Expr} (h : Waits o.layer (topState st) m p)
    (hact : (automaton.row o.ended).act (ahead rest) = Tables.reduce o.result o.index) :
    Leads actions automaton eof
      (o.layer.entry o.ended b :: .token o.entered o.token.kind o.token.val ::
        o.layer.entry q a :: st, rest)
      (o.layer.entry p (some (Expr.makeOpBinary a o.type b)) :: st, rest) := by
  cases o with
  | or | and =>
    obtain ⟨-, -, hlogic⟩ := h.expr rfl
    exact (Leads.reduce hact rfl hlogic fun _ _ => rfl).trans (leads_logic h.goto)
  | equals | notEquals | less | lessEq | greater | greaterEq =>
    exact (Leads.reduce hact rfl h.opens.compExpr fun _ _ => rfl).trans
      (leads_comp h.opens h.goto)
  | like | plus | minus | asterisk | slash | percentage | caret | concat =>
    exact (Leads.reduce hact rfl h.opens.binaryExpr fun _ _ => rfl).trans (leads_binary h.goto)

end

end Hsql
