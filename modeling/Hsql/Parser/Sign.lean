import Hsql.Parser.Reading

/-! Chains of operators with unary minus. Its rule has the level of the binary minus, so a sign is
closed by the operators up to that level only, and takes in the higher ones. -/

namespace Hsql
open Bison NT Keyword TokenKind
open Hsql.Expr (makeColumnRef makeOpUnary makeOpBinary)

/-- Trees of binary operators and signs over numbered operands. -/
inductive Chain where
  | operand (n : Nat)
  | minus (e : Chain)
  | binary (o : Op) (left right : Chain)

namespace Chain

/-- The tokens of the tree, without parentheses. -/
def tokens (x : Nat → Operand) : Chain → List Token
  | operand n => (x n).tokens
  | minus e => .ch '-' :: e.tokens x
  | binary o l r => l.tokens x ++ o.token :: r.tokens x

/-- The value of the tree, whose operands are read from left to right. -/
def reading (x : Nat → Operand) : Chain → Reading
  | operand n => (x n).reading
  | minus e => fun s v s' => ∃ a, e.reading x s a s' ∧ v = some (makeOpUnary .kOpUnaryMinus a)
  | binary o l r => fun s v s' => ∃ a s₁, l.reading x s a s₁ ∧
      ∃ b, r.reading x s₁ b s' ∧ v = some (makeOpBinary a o.type b)

/-- The parser reads the tokens of the tree as the tree. -/
def Parses (e : Chain) (x : Nat → Operand) : Prop := ParsesAs (e.tokens x) (e.reading x)

/-- The operator on top is of that level or a higher one. -/
def Fits (m : Nat) : Chain → Prop
  | binary o _ _ => m ≤ o.level
  | _ => True

/-- The last operand stands under a sign. -/
def trailing : Chain → Bool
  | operand _ => false
  | minus _ => true
  | binary _ _ r => r.trailing

/-- The tree that precedence and associativity give its tokens, where the signs bind tighter than
all operators: they stand in front of operands only. -/
def Declared : Chain → Prop
  | operand _ => True
  | minus (operand _) => True
  | minus _ => False
  | binary o l r => o.layer = .operand ∧ l.Fits o.leftLevel ∧ r.Fits (o.level + 1) ∧
      l.Declared ∧ r.Declared

/-- Nothing above the level of the binary minus follows an operand with a sign. -/
def SignsEnd : Chain → Prop
  | binary o l r => (l.trailing = true → o.level ≤ Op.minus.level) ∧ l.SignsEnd ∧ r.SignsEnd
  | _ => True

/-- The tree that the automaton makes of its tokens: a sign takes in what is above its level. -/
def Readable : Chain → Prop
  | operand _ => True
  | minus e => e.Fits (Op.minus.level + 1) ∧ e.Readable
  | binary o l r => o.layer = .operand ∧ l.Fits o.leftLevel ∧ r.Fits (o.level + 1) ∧
      (l.trailing = true → o.level ≤ Op.minus.level) ∧ l.Readable ∧ r.Readable

theorem Readable.fits {e : Chain} (h : e.Readable) : e.Fits 4 := by
  cases e with
  | operand n => trivial
  | minus e => trivial
  | binary o l r => exact (level_operand o h.1).1

end Chain

/-- A token that ends an operand which operators from a level up may belong to. -/
structure Shuts (t : Option TokenKind) (m : Nat) : Prop where
  closes : Closes t m
  name : EndsName t
  sign : m ≤ Op.minus.level → (automaton.row 114).act t = Tables.reduce unaryExpr 0

theorem Shuts.mono {t : Option TokenKind} {m m' : Nat} (h : Shuts t m) (hm : m ≤ m') : Shuts t m' :=
  ⟨h.closes.mono hm, h.name, fun h' => h.sign (hm.trans h')⟩

theorem row_sign : (automaton.row 114).default = Tables.reduce unaryExpr 0 ∧
    ∀ x ∈ (automaton.row 114).acts, ¬ EndsExpr x.1 := by
  decide

theorem EndsExpr.shuts {t : Option TokenKind} (h : EndsExpr t) : Shuts t 0 where
  closes := h.closes
  name := by
    constructor
    · intro heq
      exact h.other (heq ▸ by decide)
    · intro heq
      exact h.other (heq ▸ by decide)
  sign _ := by
    obtain ⟨hdefault, hacts⟩ := row_sign
    rcases act_cases (automaton.row 114) t with hmem | hact
    · exact absurd h (hacts _ hmem)
    · exact hact.trans hdefault

theorem sign_op : ∀ o : Op, EndsName (some o.token.kind) ∧
    (o.layer = .operand → o.level ≤ Op.minus.level → o.leftLevel ≤ Op.minus.level ∧
      (automaton.row 114).act (some o.token.kind) = Tables.reduce unaryExpr 0) := by
  decide

/-- The level that the token behind a tree has to close. -/
def Chain.behind (e : Chain) (m : Nat) : Nat := if e.trailing then min m Op.minus.level else m

theorem Chain.behind_mono (e : Chain) {m m' : Nat} (h : m ≤ m') : e.behind m ≤ e.behind m' := by
  unfold Chain.behind
  split
  · exact min_le_min_right _ h
  · exact h

theorem Chain.behind_le (e : Chain) (m : Nat) : e.behind m ≤ m := by
  unfold Chain.behind
  split
  · exact min_le_left _ _
  · exact le_rfl

theorem shuts_op {o : Op} (ho : o.layer = .operand) {e : Chain}
    (h : e.trailing = true → o.level ≤ Op.minus.level) :
    Shuts (some o.token.kind) (e.behind o.leftLevel) := by
  obtain ⟨hname, hsign⟩ := sign_op o
  unfold Chain.behind
  split
  case isTrue htrailing =>
    -- Behind a sign the operator has at most the level of the binary minus.
    obtain ⟨hleft, hact⟩ := hsign ho (h htrailing)
    rw [min_eq_left hleft]
    exact ⟨closes_op o, hname, fun _ => hact⟩
  case isFalse =>
    refine ⟨closes_op o, hname, fun hle => ?_⟩
    exact (hsign ho ((level_operand o ho).2.trans hle)).2

/-! What the parser makes of it. -/

theorem waits_sign : Waits .operand 47 (Op.minus.level + 1) 114 := by
  decide

/-- In a state that waits for an operand, the parser reads the tokens of the tree as the tree. -/
def Chain.Reads (eof : Location) (x : Nat → Operand) (e : Chain) : Prop :=
  ∀ {m p : Nat} {st : List (Entry TokenKind.Val NT.Val)}
    {xs rest : List (Sigma TokenKind.Val × Location)}, Waits .operand (topState st) m p →
    e.Readable → e.Fits m → Shuts (ahead rest) (e.behind m) → Spell xs (e.tokens x) →
      Makes actions automaton eof (st, xs ++ rest) (e.reading x)
        fun v => (.value p .operand v :: st, rest)

section
variable {eof : Location} {x : Nat → Operand}

theorem reads_operand (n : Nat) : (Chain.operand n).Reads eof x := by
  intro m p st xs rest hw _ _ hshuts hxs
  exact (x n).reads hw.goto hshuts.name hxs

theorem reads_minus {e : Chain} (he : e.Reads eof x) : (Chain.minus e).Reads eof x := by
  intro m p st xs rest hw hreadable _ hshuts hxs
  obtain ⟨hfits, hreadable⟩ := hreadable
  obtain ⟨loc, xs', rfl, hxs'⟩ := hxs.cons
  have hnine : Shuts (ahead rest) (min m Op.minus.level) := hshuts
  have hshift : Leads actions automaton eof
      (st, ((Token.ch '-').input, loc) :: (xs' ++ rest))
      (.token 47 (.ch '-') () :: st, xs' ++ rest) := .shift (shifts_head hw.goto (by decide))
  have hbehind : min m Op.minus.level ≤ e.behind (Op.minus.level + 1) := by
    unfold Chain.behind
    split
    · exact le_min ((min_le_right _ _).trans (Nat.le_succ _)) (min_le_right _ _)
    · exact (min_le_right _ _).trans (Nat.le_succ _)
  have hinner : Makes actions automaton eof (.token 47 (.ch '-') () :: st, xs' ++ rest)
      (e.reading x)
      (fun v => (.value 114 .operand v :: .token 47 (.ch '-') () :: st, rest)) :=
    he waits_sign hreadable hfits (hnine.mono hbehind) hxs'
  have hreduce (v : Option Expr) : Leads actions automaton eof
      (.value 114 .operand v :: .token 47 (.ch '-') () :: st, rest)
      (.value 55 .unaryExpr (some (makeOpUnary .kOpUnaryMinus v)) :: st, rest) :=
    Leads.reduce (M := actions) (n := NT.unaryExpr) (r := ⟨0, by decide⟩)
      (hnine.sign (min_le_right _ _)) rfl (goto_part hw.goto (by decide)) fun _ _ => rfl
  have hoperand (v : Option Expr) : Leads actions automaton eof
      (.value 55 .unaryExpr v :: st, rest) (.value p .operand v :: st, rest) :=
    Leads.reduce (M := actions) (n := NT.operand) (r := ⟨2, by decide⟩) rfl rfl hw.goto
      fun _ _ => rfl
  exact (hinner.map (fun v => some (makeOpUnary .kOpUnaryMinus v))
    fun v => (hreduce v).trans (hoperand _)).head hshift

theorem reads_op (o : Op) {l r : Chain} (hl : l.Reads eof x) (hr : r.Reads eof x) :
    (Chain.binary o l r).Reads eof x := by
  intro m p st xs rest hw hreadable hm hshuts hxs
  obtain ⟨ho, hleft, hright, hsign, hrl, hrr⟩ := hreadable
  obtain ⟨ys, zs, rfl, hys, hzs⟩ := hxs.append
  obtain ⟨loc, zs', rfl, hzs'⟩ := hzs.cons
  have hm : m ≤ o.level := hm
  have hbehind : Shuts (ahead rest) (r.behind m) := hshuts
  -- The left operand is read as far as the operator, then the right one as far as what follows.
  have hwleft : Waits .operand (topState st) o.leftLevel p := by
    obtain ⟨hfour, hle⟩ := level_operand o ho
    exact ⟨hw.opens, hw.goto, fun o' ho' hle' => hw.goesOn o' ho' (hm.trans (hle.trans hle')),
      nofun, fun _ => hfour.trans hle⟩
  have hwright : Waits .operand o.entered (o.level + 1) o.ended := by
    have h := waits_entered o
    rwa [ho] at h
  have hreadleft : Makes actions automaton eof (st, ys ++ ((o.token.input, loc) :: (zs' ++ rest)))
      (l.reading x) fun a => (.value p .operand a :: st, (o.token.input, loc) :: (zs' ++ rest)) :=
    hl hwleft hrl hleft (shuts_op ho hsign) hys
  have hshift (a : Option Expr) : Leads actions automaton eof
      (.value p .operand a :: st, (o.token.input, loc) :: (zs' ++ rest))
      (.token o.entered o.token.kind o.token.val :: .value p .operand a :: st, zs' ++ rest) :=
    .shift (hw.goesOn o ho hm)
  have hreadright (a : Option Expr) : Makes actions automaton eof
      (.token o.entered o.token.kind o.token.val :: .value p .operand a :: st, zs' ++ rest)
      (r.reading x) fun b => (.value o.ended .operand b :: .token o.entered o.token.kind o.token.val ::
        .value p .operand a :: st, rest) :=
    hr hwright hrr hright (hbehind.mono (r.behind_mono (Nat.le_succ_of_le hm))) hzs'
  have hreduce (a b : Option Expr) : Leads actions automaton eof
      (.value o.ended .operand b :: .token o.entered o.token.kind o.token.val ::
        .value p .operand a :: st, rest)
      (.value p .operand (some (makeOpBinary a o.type b)) :: st, rest) := by
    have hact := hbehind.closes.ended o ((r.behind_le m).trans hm)
    have hwaits : Waits o.layer (topState st) m p := by
      rw [ho]
      exact hw
    have h : Leads actions automaton eof
        (o.layer.entry o.ended b :: .token o.entered o.token.kind o.token.val ::
          o.layer.entry p a :: st, rest)
        (o.layer.entry p (some (makeOpBinary a o.type b)) :: st, rest) := leads_op o hwaits hact
    rw [ho] at h
    exact h
  have hbinary (a : Option Expr) : Makes actions automaton eof
      (.value p .operand a :: st, (o.token.input, loc) :: (zs' ++ rest))
      (fun s v s' => ∃ b, r.reading x s b s' ∧ v = some (makeOpBinary a o.type b))
      fun v => (.value p .operand v :: st, rest) :=
    ((hreadright a).map (fun b => some (makeOpBinary a o.type b)) (hreduce a)).head (hshift a)
  have hall := hreadleft.bind hbinary
  have hinput : (ys ++ (o.token.input, loc) :: zs') ++ rest =
      ys ++ ((o.token.input, loc) :: (zs' ++ rest)) := by
    rw [List.append_assoc, List.cons_append]
  rw [hinput]
  exact hall

theorem reads_chain (e : Chain) : e.Reads eof x := by
  induction e with
  | operand n => exact reads_operand n
  | minus e ih => exact reads_minus ih
  | binary o l r ihl ihr => exact reads_op o ihl ihr

end

theorem Chain.Readable.parses {e : Chain} (h : e.Readable) (x : Nat → Operand) : e.Parses x := by
  intro q p hgoto hor hand eof st xs rest hq hxs hends
  subst hq
  have hwaits := waits_start _ (goto_mem hgoto) hor hand
  obtain ⟨-, hoperand, -⟩ := hwaits.expr rfl
  have hw : Waits .operand (topState st) 4 53 :=
    ⟨hwaits.opens, hoperand, fun o ho _ => operand_goesOn o ho, nofun, fun _ => le_rfl⟩
  have hshuts : Shuts (ahead rest) (e.behind 4) := hends.shuts.mono (Nat.zero_le _)
  have hread : Makes actions automaton eof (st, xs ++ rest) (e.reading x)
      fun v => (.value 53 .operand v :: st, rest) := reads_chain e hw h h.fits hshuts hxs
  exact hread.tail fun v => .reduce hends.operand rfl hgoto fun _ _ => rfl

/-! The tree that the parser makes of the tokens of any chain. -/

namespace Chain

/-- Every operator in the tree is of that level or a higher one. -/
def Above (m : Nat) : Chain → Prop
  | operand _ => True
  | minus e => e.Above m
  | binary o l r => m ≤ o.level ∧ l.Above m ∧ r.Above m

theorem Above.fits {m : Nat} {e : Chain} (h : e.Above m) : e.Fits m := by
  cases e with
  | operand n => trivial
  | minus e => trivial
  | binary o l r => exact h.1

theorem Fits.mono {m m' : Nat} {e : Chain} (h : e.Fits m') (hm : m ≤ m') : e.Fits m := by
  cases e with
  | operand n => trivial
  | minus e => trivial
  | binary o l r => exact hm.trans h

theorem Declared.above {e : Chain} (h : e.Declared) {m : Nat} (hfits : e.Fits m) : e.Above m := by
  induction e with
  | operand n => trivial
  | minus e _ =>
    cases e with
    | operand n => trivial
    | minus e => exact h.elim
    | binary o l r => exact h.elim
  | binary o l r ihl ihr =>
    obtain ⟨ho, hleft, hright, hl, hr⟩ := h
    have hm : m ≤ o.level := hfits
    have hml : m ≤ o.leftLevel := hm.trans (level_operand o ho).2
    exact ⟨hm, ihl hl (hleft.mono hml), ihr hr (hright.mono (Nat.le_succ_of_le hm))⟩

/-- The tree with an operator and a right operand behind it: a sign at its end takes them in if the
operator is above its level. -/
def join : Chain → Op → Chain → Chain
  | operand n, o, r => binary o (operand n) r
  | minus e, o, r => if o.level ≤ Op.minus.level then binary o (minus e) r else minus (e.join o r)
  | binary p x y, o, r =>
    if y.trailing = true ∧ Op.minus.level < o.level then binary p x (y.join o r)
    else binary o (binary p x y) r

theorem tokens_join (x : Nat → Operand) (o : Op) (l r : Chain) :
    (l.join o r).tokens x = l.tokens x ++ o.token :: r.tokens x := by
  induction l with
  | operand n => rfl
  | minus e ih =>
    unfold join
    split
    · rfl
    · show Token.ch '-' :: (e.join o r).tokens x = _
      rw [ih]
      rfl
  | binary p a b _ ih =>
    unfold join
    split
    · show a.tokens x ++ p.token :: (b.join o r).tokens x = _
      rw [ih, tokens, List.append_assoc, List.cons_append]
    · rfl

theorem Above.join {m : Nat} {o : Op} {l r : Chain} (hl : l.Above m) (hr : r.Above m)
    (ho : m ≤ o.level) : (l.join o r).Above m := by
  induction l with
  | operand n => exact ⟨ho, trivial, hr⟩
  | minus e ih =>
    unfold Chain.join
    split
    · exact ⟨ho, hl, hr⟩
    · exact ih hl
  | binary p a b _ ih =>
    unfold Chain.join
    split
    · exact ⟨hl.1, hl.2.1, ih hl.2.2⟩
    · exact ⟨ho, hl, hr⟩

theorem Fits.join {m : Nat} {o : Op} {l : Chain} (h : l.Fits m) (r : Chain)
    (ho : l.trailing = false ∨ o.level ≤ Op.minus.level → m ≤ o.level) : (l.join o r).Fits m := by
  cases l with
  | operand n => exact ho (.inl rfl)
  | minus e =>
    unfold Chain.join
    split
    case isTrue hle => exact ho (.inr hle)
    case isFalse => trivial
  | binary p a b =>
    unfold Chain.join
    split
    case isTrue => exact h
    case isFalse hnot =>
      refine ho ?_
      by_cases htrailing : b.trailing = true
      · exact .inr (Nat.le_of_not_lt fun hlt => hnot ⟨htrailing, hlt⟩)
      · exact .inl (Bool.eq_false_iff.mpr htrailing)

theorem Readable.join {o : Op} {l r : Chain} (ho : o.layer = .operand) (hl : l.Readable)
    (habove : l.Above o.leftLevel) (hr : r.Readable) (hright : r.Fits (o.level + 1)) :
    (l.join o r).Readable := by
  induction l with
  | operand n => exact ⟨ho, trivial, hright, nofun, trivial, hr⟩
  | minus e ih =>
    obtain ⟨hfits, he⟩ := hl
    unfold Chain.join
    split
    case isTrue hle => exact ⟨ho, trivial, hright, fun _ => hle, ⟨hfits, he⟩, hr⟩
    case isFalse hnot => exact ⟨hfits.join r fun _ => Nat.lt_of_not_le hnot, ih he habove⟩
  | binary p a b _ ih =>
    unfold Chain.join
    split
    case isTrue htaken =>
      obtain ⟨htrailing, hlt⟩ := htaken
      obtain ⟨hp, hfa, hfb, hsign, ha, hb⟩ := hl
      have hfits : (b.join o r).Fits (p.level + 1) := by
        refine hfb.join r fun h => ?_
        rcases h with hfalse | hle
        · rw [htrailing] at hfalse
          cases hfalse
        · exact absurd hlt (Nat.not_lt_of_le hle)
      exact ⟨hp, hfa, hfits, hsign, ha, ih hb habove.2.2⟩
    case isFalse hnot =>
      refine ⟨ho, habove.1, hright, fun htrailing => ?_, hl, hr⟩
      exact Nat.le_of_not_lt fun hlt => hnot ⟨htrailing, hlt⟩

/-- The tree that the parser makes of the tokens. -/
def regroup : Chain → Chain
  | operand n => operand n
  | minus e => minus e
  | binary o l r => l.regroup.join o r.regroup

theorem tokens_regroup (x : Nat → Operand) (e : Chain) : e.regroup.tokens x = e.tokens x := by
  induction e with
  | operand n => rfl
  | minus e _ => rfl
  | binary o l r ihl ihr =>
    show (l.regroup.join o r.regroup).tokens x = _
    rw [tokens_join, ihl, ihr]
    rfl

theorem Above.regroup {m : Nat} {e : Chain} (h : e.Above m) : e.regroup.Above m := by
  induction e with
  | operand n => trivial
  | minus e _ => exact h
  | binary o l r ihl ihr => exact (ihl h.2.1).join (ihr h.2.2) h.1

theorem Declared.readable_regroup {e : Chain} (h : e.Declared) : e.regroup.Readable := by
  induction e with
  | operand n => trivial
  | minus e _ =>
    cases e with
    | operand n => exact ⟨trivial, trivial⟩
    | minus e => exact h.elim
    | binary o l r => exact h.elim
  | binary o l r ihl ihr =>
    obtain ⟨ho, hleft, hright, hl, hr⟩ := h
    exact (ihl hl).join ho (hl.above hleft).regroup (ihr hr) (hr.above hright).regroup.fits

theorem Declared.readable_iff {e : Chain} (h : e.Declared) : e.Readable ↔ e.SignsEnd := by
  constructor
  · clear h
    intro hreadable
    induction e with
    | operand n => trivial
    | minus e _ => trivial
    | binary o l r ihl ihr =>
      obtain ⟨-, -, -, hsign, hl, hr⟩ := hreadable
      exact ⟨hsign, ihl hl, ihr hr⟩
  · intro hsigns
    induction e with
    | operand n => trivial
    | minus e _ =>
      cases e with
      | operand n => exact ⟨trivial, trivial⟩
      | minus e => exact h.elim
      | binary o l r => exact h.elim
    | binary o l r ihl ihr =>
      obtain ⟨ho, hleft, hright, hl, hr⟩ := h
      obtain ⟨hsign, hsl, hsr⟩ := hsigns
      exact ⟨ho, hleft, hright, hsign, ihl hl hsl, ihr hr hsr⟩

/-! Columns tell the trees of the same tokens apart. -/

/-- Columns with names of different lengths. -/
def columns (n : Nat) : Operand := .scalar (.name (.identifier (List.replicate n 'a')))

/-- The value of the tree over these columns. -/
def expr : Chain → Expr
  | operand n => makeColumnRef (some (List.replicate n 'a'))
  | minus e => makeOpUnary .kOpUnaryMinus (some e.expr)
  | binary o l r => makeOpBinary (some l.expr) o.type (some r.expr)

theorem eq_of_reading {e : Chain} {s s' : ParserState} {v : Option Expr}
    (h : e.reading columns s v s') : v = some e.expr := by
  induction e generalizing s s' v with
  | operand n => exact h.1
  | minus e ih =>
    obtain ⟨a, ha, rfl⟩ := h
    rw [ih ha]
    rfl
  | binary o l r ihl ihr =>
    obtain ⟨a, s₁, ha, b, hb, rfl⟩ := h
    rw [ihl ha, ihr hb]
    rfl

theorem type_injective : ∀ o o' : Op, o.type = o'.type → o = o' := by
  decide

theorem type_ne : ∀ o : Op, o.type ≠ .kOpUnaryMinus := by
  decide

theorem expr_injective {e e' : Chain} (h : e.expr = e'.expr) : e = e' := by
  induction e generalizing e' with
  | operand n =>
    cases e' with
    | operand n' =>
      have hname := Option.some.inj (congrArg Expr.name h)
      have hlength := congrArg List.length hname
      rw [List.length_replicate, List.length_replicate] at hlength
      rw [hlength]
    | minus e' => cases congrArg Expr.type h
    | binary o l r => cases congrArg Expr.type h
  | minus e ih =>
    cases e' with
    | operand n => cases congrArg Expr.type h
    | minus e' => rw [ih (Option.some.inj (congrArg Expr.expr h))]
    | binary o l r => exact absurd (congrArg Expr.opType h).symm (type_ne o)
  | binary o l r ihl ihr =>
    cases e' with
    | operand n => cases congrArg Expr.type h
    | minus e' => exact absurd (congrArg Expr.opType h) (type_ne o)
    | binary o' l' r' =>
      rw [type_injective o o' (congrArg Expr.opType h), ihl (Option.some.inj (congrArg Expr.expr h)),
        ihr (Option.some.inj (congrArg Expr.expr2 h))]

theorem Declared.parses_columns_iff {e : Chain} (h : e.Declared) :
    e.Parses columns ↔ e.SignsEnd := by
  rw [← h.readable_iff]
  constructor
  · intro hparses
    have hregroup : ParsesAs (e.tokens columns) (e.regroup.reading columns) := by
      rw [← tokens_regroup]
      exact h.readable_regroup.parses columns
    obtain ⟨v, s', hdeclared, hread⟩ := hparses.unique hregroup (.start ⟨0, 0, 0, 0⟩ .new)
    have hvalue := (eq_of_reading hdeclared).symm.trans (eq_of_reading hread)
    rw [expr_injective (Option.some.inj hvalue)]
    exact h.readable_regroup
  · intro hreadable
    exact hreadable.parses columns

/-- Two operands around an operator, one of them with a sign. -/
def signedLeft (o : Op) : Chain := binary o (minus (operand 0)) (operand 1)

def signedRight (o : Op) : Chain := binary o (operand 0) (minus (operand 1))

theorem parses_signedRight {o : Op} (ho : o.layer = .operand) (x : Nat → Operand) :
    (signedRight o).Parses x :=
  Readable.parses (e := signedRight o)
    ⟨ho, trivial, trivial, nofun, trivial, trivial, trivial⟩ x

/-- Above its own level the sign takes in the operator. -/
theorem signedLeft_taken {o : Op} (ho : o.layer = .operand) (h : Op.minus.level < o.level)
    (x : Nat → Operand) : ParsesAs ((signedLeft o).tokens x)
      ((minus (binary o (operand 0) (operand 1))).reading x) :=
  Readable.parses (e := minus (binary o (operand 0) (operand 1)))
    ⟨h, ho, trivial, trivial, nofun, trivial, trivial⟩ x

theorem signedLeft_not {o : Op} (ho : o.layer = .operand) (h : Op.minus.level < o.level)
    (x : Nat → Operand) : ¬ (signedLeft o).Parses x := by
  intro hparses
  obtain ⟨v, s', ⟨a, s₁, -, b, -, hbinary⟩, c, -, hunary⟩ :=
    hparses.unique (signedLeft_taken ho h x) (.start ⟨0, 0, 0, 0⟩ .new)
  exact type_ne o (congrArg Expr.opType (Option.some.inj (hbinary.symm.trans hunary)))

theorem parses_signedLeft_iff {o : Op} (ho : o.layer = .operand) (x : Nat → Operand) :
    (signedLeft o).Parses x ↔ o.level ≤ Op.minus.level := by
  constructor
  · intro hparses
    exact Nat.le_of_not_lt fun hlt => signedLeft_not ho hlt x hparses
  · intro hle
    exact Readable.parses (e := signedLeft o)
      ⟨ho, trivial, trivial, fun _ => hle, ⟨trivial, trivial⟩, trivial⟩ x

end Chain

/-- **A sign binds tighter than an operator exactly if the operator is not above the binary minus.**
In front of the right operand it always does, and a chain gets the tree of its declared precedence
exactly if no higher operator follows an operand with a sign. -/
theorem sign_tightest_iff {o : Op} (ho : o.layer = .operand) (x : Nat → Operand) {e : Chain}
    (he : e.Declared) :
    ((Chain.signedLeft o).Parses x ↔ o.level ≤ Op.minus.level) ∧ (Chain.signedRight o).Parses x ∧
      ((∀ y, e.Parses y) ↔ e.SignsEnd) := by
  refine ⟨Chain.parses_signedLeft_iff ho x, Chain.parses_signedRight ho x, ?_⟩
  constructor
  · intro hparses
    exact he.parses_columns_iff.mp (hparses Chain.columns)
  · intro hsigns y
    exact (he.readable_iff.mpr hsigns).parses y

theorem sign_tightest_iff_plus :
    ((Chain.signedLeft .plus).Parses Chain.columns ↔ Op.plus.level ≤ Op.minus.level) ∧
      (Chain.signedRight .plus).Parses Chain.columns ∧
        ((∀ y, (Chain.signedLeft .plus).Parses y) ↔ (Chain.signedLeft .plus).SignsEnd) :=
  sign_tightest_iff rfl Chain.columns ⟨rfl, trivial, trivial, trivial, trivial⟩

/-- `- a * b` is read as the sign of the product. -/
theorem not_sign_tightest_asterisk : ¬ (Chain.signedLeft .asterisk).Parses Chain.columns :=
  Chain.signedLeft_not rfl (by decide) Chain.columns

end Hsql
