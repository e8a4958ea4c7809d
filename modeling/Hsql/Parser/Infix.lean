import Hsql.Parser.Operators

/-! Binary expressions written with as few parentheses as precedence and associativity allow: the
parser gets the same tree back. -/

namespace Hsql
open Bison Flex Lexer TokenKind

/-- A plain name that is no keyword. -/
structure ColumnName where
  head : Char
  tail : Str
  head_alpha : alpha.mem head = true
  tail_word : ∀ c ∈ tail, wordChar.mem c = true
  not_keyword : ∀ k : Keyword, lower (head :: tail) ≠ lower k.text

def ColumnName.name (x : ColumnName) : Str := x.head :: x.tail

/-- Trees of binary operators over columns. -/
inductive Infix where
  | column (x : ColumnName)
  | binary (o : Op) (left right : Infix)

theorem Op.spelled (o : Op) : Spelled o.spelling o.token := by
  cases o with
  | or | and | like => exact .keyword rfl
  | equals | less | greater | plus | minus | asterisk | slash | percentage | caret =>
    exact .character (by decide)
  | notEquals => exact .notEquals (.inl rfl)
  | lessEq => exact .lessEq
  | greaterEq => exact .greaterEq
  | concat => exact .concat

/-- A child gets parentheses if its operator is lower than its parent's, or equal on the right of
one that is left-associative or on either side of one that is not associative. -/
def Op.wraps (parent : Op) (right : Bool) : Infix → Bool
  | .column _ => false
  | .binary child _ _ =>
    child.level < parent.level || child.level == parent.level && (right || !parent.isLeft)

namespace Infix

def expr : Infix → Expr
  | column x => .makeColumnRef (some x.name)
  | binary o l r => .makeOpBinary (some l.expr) o.type (some r.expr)

/-- A token behind a space. -/
def word (w : Str) (t : Token) (h : Spelled w t) : Written where
  gap := [' ']
  word := w
  token := t
  gap_blank := List.forall_mem_singleton.mpr (by decide)
  spelled := h

def wrap (parens : Bool) (ws : List Written) : List Written :=
  if parens then
    word ['('] (.ch '(') (.character (by decide)) ::
      (ws ++ [word [')'] (.ch ')') (.character (by decide))])
  else ws

def written : Infix → List Written
  | column x =>
    [word x.name ⟨.IDENTIFIER, x.name⟩ (.identifier x.head_alpha x.tail_word x.not_keyword)]
  | binary o l r =>
    wrap (o.wraps false l) l.written ++ word o.spelling o.token o.spelled ::
      wrap (o.wraps true r) r.written

def text (e : Infix) : Str := e.written.flatMap Written.text

/-- The operator on top is of that level or a higher one. -/
def Fits (m : Nat) : Infix → Prop
  | column _ => True
  | binary o _ _ => m ≤ o.level

theorem fits_zero (e : Infix) : e.Fits 0 := by
  cases e with
  | column x => trivial
  | binary o l r => exact Nat.zero_le _

theorem fits_left {o : Op} {e : Infix} (h : o.wraps false e = false) : e.Fits o.leftLevel := by
  cases e with
  | column x => trivial
  | binary child l r =>
    show o.leftLevel ≤ child.level
    unfold Op.wraps at h
    unfold Op.leftLevel
    cases hleft : o.isLeft <;> simp [hleft] at h ⊢ <;> omega

theorem fits_right {o : Op} {e : Infix} (h : o.wraps true e = false) : e.Fits (o.level + 1) := by
  cases e with
  | column x => trivial
  | binary child l r =>
    show o.level + 1 ≤ child.level
    unfold Op.wraps at h
    simp at h
    omega

end Infix

/-! What the parser makes of it. -/

/-- A token as the parser gets it. -/
def Token.input (t : Token) : Sigma TokenKind.Val := ⟨t.kind, t.val⟩

/-- The input holds these tokens. -/
def Holds (xs : List (Sigma TokenKind.Val × Location)) (ws : List Written) : Prop :=
  xs.map Prod.fst = ws.map fun x => x.token.input

theorem Holds.cons {xs : List (Sigma TokenKind.Val × Location)} {w : Written} {ws : List Written}
    (h : Holds xs (w :: ws)) :
    ∃ loc xs', xs = (w.token.input, loc) :: xs' ∧ Holds xs' ws := by
  obtain ⟨⟨t, loc⟩, xs', rfl, ht, hxs'⟩ := List.map_eq_cons_iff.mp h
  obtain rfl : t = w.token.input := ht
  exact ⟨loc, xs', rfl, hxs'⟩

theorem Holds.append {xs : List (Sigma TokenKind.Val × Location)} {ws ws' : List Written}
    (h : Holds xs (ws ++ ws')) : ∃ ys zs, xs = ys ++ zs ∧ Holds ys ws ∧ Holds zs ws' := by
  unfold Holds at h
  rw [List.map_append] at h
  exact List.map_eq_append_iff.mp h

theorem Holds.nil {xs : List (Sigma TokenKind.Val × Location)} (h : Holds xs []) : xs = [] :=
  List.map_eq_nil_iff.mp h

section
variable {eof : Location} {st : List (Entry TokenKind.Val NT.Val)}
  {rest : List (Sigma TokenKind.Val × Location)} {layer : Layer} {m p : Nat} {v : Option Expr}
  {x : List (Entry TokenKind.Val NT.Val) × List (Sigma TokenKind.Val × Location)}

/-- An operand is what its state waits for, or becomes an expression. -/
theorem leads_lift (hw : Waits layer (topState st) m p) (hc : Closes (ahead rest) m)
    (h : ∀ p, automaton.goto (topState st) .operand = some p →
      Leads actions automaton eof x (.value p .operand v :: st, rest)) :
    Leads actions automaton eof x (layer.entry p v :: st, rest) := by
  cases layer with
  | operand => exact h p hw.goto
  | expr =>
    obtain ⟨hm, hoperand, -⟩ := hw.expr rfl
    exact (h 53 hoperand).trans (.reduce (hc.operand hm) rfl hw.goto fun _ _ => rfl)

/-- The parser reads the tokens of the tree as the tree. -/
def Reads (eof : Location) (e : Infix) : Prop :=
  ∀ {layer m p st xs rest}, Waits layer (topState st) m p → e.Fits m → Closes (ahead rest) m →
    Holds xs e.written →
      Leads actions automaton eof (st, xs ++ rest) (layer.entry p (some e.expr) :: st, rest)

theorem reads_column (x : ColumnName) : Reads eof (.column x) := by
  intro layer m p st xs rest hw _ hc hxs
  obtain ⟨loc, xs', rfl, hxs'⟩ := hxs.cons
  obtain rfl := hxs'.nil
  refine leads_lift hw hc fun p hgoto => ?_
  have hshift : Leads actions automaton eof (st, [(⟨.IDENTIFIER, x.name⟩, loc)] ++ rest)
      (.token 33 .IDENTIFIER x.name :: st, rest) := .shift hw.opens.identifier
  have hcolumn : Leads actions automaton eof (.token 33 .IDENTIFIER x.name :: st, rest)
      (.value 64 .columnName (some (Expr.makeColumnRef (some x.name))) :: st, rest) :=
    .reduce hc.column rfl hw.opens.columnName fun _ _ => rfl
  exact (hshift.trans hcolumn).trans (leads_column hw.opens hgoto)

/-- A child with its parentheses, if it gets any. -/
theorem reads_wrap {e : Infix} (he : Reads eof e) {parens : Bool}
    {xs : List (Sigma TokenKind.Val × Location)} (hw : Waits layer (topState st) m p)
    (hfits : parens = false → e.Fits m) (hc : Closes (ahead rest) m)
    (hxs : Holds xs (Infix.wrap parens e.written)) :
    Leads actions automaton eof (st, xs ++ rest) (layer.entry p (some e.expr) :: st, rest) := by
  cases parens with
  | false => exact he hw (hfits rfl) hc hxs
  | true =>
    obtain ⟨loc, xs', rfl, hxs'⟩ := Holds.cons hxs
    obtain ⟨ys, zs, rfl, hys, hzs⟩ := hxs'.append
    obtain ⟨loc', zs', rfl, hzs'⟩ := hzs.cons
    obtain rfl := hzs'.nil
    refine leads_lift hw hc fun p hgoto => ?_
    have hcloses : Closes (ahead (((Token.ch ')').input, loc') :: rest)) 0 := closes_paren
    have hwait : Waits .expr (topState (.token 49 (.ch '(') () :: st)) 0 116 := waits_paren
    have hinner : Leads actions automaton eof
        (.token 49 (.ch '(') () :: st, ys ++ ((Token.ch ')').input, loc') :: rest)
        (.value 116 .expr (some e.expr) :: .token 49 (.ch '(') () :: st,
          ((Token.ch ')').input, loc') :: rest) := he hwait e.fits_zero hcloses hys
    have hopen : Leads actions automaton eof
        (st, ((Token.ch '(').input, loc) :: (ys ++ ((Token.ch ')').input, loc') :: rest))
        (.token 49 (.ch '(') () :: st, ys ++ ((Token.ch ')').input, loc') :: rest) :=
      .shift hw.opens.paren
    have hclose : Leads actions automaton eof
        (.value 116 .expr (some e.expr) :: .token 49 (.ch '(') () :: st,
          ((Token.ch ')').input, loc') :: rest)
        (.token 185 (.ch ')') () :: .value 116 .expr (some e.expr) :: .token 49 (.ch '(') () :: st,
          rest) := .shift rfl
    have hreduce : Leads actions automaton eof
        (.token 185 (.ch ')') () :: .value 116 .expr (some e.expr) :: .token 49 (.ch '(') () :: st,
          rest) (.value p .operand (some e.expr) :: st, rest) :=
      Leads.reduce (M := actions) (n := NT.operand) (r := ⟨0, by decide⟩) rfl rfl hgoto
        fun _ _ => rfl
    have hall := ((hopen.trans hinner).trans hclose).trans hreduce
    show Leads actions automaton eof
      (st, ((Token.ch '(').input, loc) :: (ys ++ [((Token.ch ')').input, loc')]) ++ rest) _
    rw [List.cons_append, List.append_assoc]
    exact hall

/-- What waits for an expression waits for an operator's left operand too. -/
theorem waits_left {q : Nat} (hw : Waits layer q m p) {o : Op} (ho : m ≤ o.level) :
    ∃ p', Waits o.layer q o.level p' ∧ (o.layer = layer → p' = p) ∧
      (o.layer ≠ layer → layer = .expr ∧ automaton.goto q .operand = some p') := by
  by_cases hlayer : o.layer = layer
  · subst hlayer
    refine ⟨p, ⟨hw.opens, hw.goto, fun o' ho' hle => hw.goesOn o' ho' (ho.trans hle), fun h => ?_,
      fun h => (level_operand o h).1⟩, fun _ => rfl, fun h => absurd rfl h⟩
    have hlevel := (level_expr o h).2
    exact ⟨by omega, (hw.expr h).2⟩
  · cases layer with
    | operand =>
      have hexpr : o.layer = .expr := by
        cases h : o.layer with
        | expr => rfl
        | operand => exact absurd h hlayer
      have hlevel := (level_expr o hexpr).2
      have hm := hw.operand rfl
      omega
    | expr =>
      have hoperand : o.layer = .operand := by
        cases h : o.layer with
        | expr => exact absurd h hlayer
        | operand => rfl
      obtain ⟨-, hgoto, -⟩ := hw.expr rfl
      refine ⟨53, ?_, fun h => absurd h hlayer, fun _ => ⟨rfl, hgoto⟩⟩
      rw [hoperand]
      exact ⟨hw.opens, hgoto, fun o' ho' _ => operand_goesOn o' ho', nofun,
        fun _ => (level_operand o hoperand).1⟩

theorem Waits.left {o : Op} {q p : Nat} (h : Waits o.layer q o.level p) :
    Waits o.layer q o.leftLevel p := by
  cases hlayer : o.layer with
  | expr =>
    rw [(level_expr o hlayer).1, ← hlayer]
    exact h
  | operand =>
    obtain ⟨hm, hle⟩ := level_operand o hlayer
    rw [hlayer] at h
    exact ⟨h.opens, h.goto, fun o' ho' hle' => h.goesOn o' ho' (hle.trans hle'), nofun,
      fun _ => hm.trans hle⟩

theorem reads_binary (o : Op) {l r : Infix} (hl : Reads eof l) (hr : Reads eof r) :
    Reads eof (.binary o l r) := by
  intro layer m p st xs rest hw hfits hc hxs
  obtain ⟨ys, zs, rfl, hys, hzs⟩ := Holds.append hxs
  obtain ⟨loc, zs', rfl, hzs'⟩ := hzs.cons
  obtain ⟨p', hw', hsame, hother⟩ := waits_left hw hfits
  -- The left operand is read as far as the operator, then the right one as far as what follows.
  have hleft : Leads actions automaton eof (st, ys ++ ((o.token.input, loc) :: (zs' ++ rest)))
      (o.layer.entry p' (some l.expr) :: st, (o.token.input, loc) :: (zs' ++ rest)) :=
    reads_wrap hl hw'.left Infix.fits_left (closes_op o) hys
  have hshift : Leads actions automaton eof
      (o.layer.entry p' (some l.expr) :: st, (o.token.input, loc) :: (zs' ++ rest))
      (.token o.entered o.token.kind o.token.val :: o.layer.entry p' (some l.expr) :: st,
        zs' ++ rest) := by
    refine .shift ?_
    rw [Layer.topState_entry]
    exact hw'.goesOn o rfl le_rfl
  have hright : Leads actions automaton eof
      (.token o.entered o.token.kind o.token.val :: o.layer.entry p' (some l.expr) :: st,
        zs' ++ rest)
      (o.layer.entry o.ended (some r.expr) :: .token o.entered o.token.kind o.token.val ::
        o.layer.entry p' (some l.expr) :: st, rest) :=
    reads_wrap hr (waits_entered o) Infix.fits_right (hc.mono (Nat.le_succ_of_le hfits)) hzs'
  have hreduce : Leads actions automaton eof
      (o.layer.entry o.ended (some r.expr) :: .token o.entered o.token.kind o.token.val ::
        o.layer.entry p' (some l.expr) :: st, rest)
      (o.layer.entry p' (some (Infix.binary o l r).expr) :: st, rest) :=
    leads_op o hw' (hc.ended o hfits)
  have hall := ((hleft.trans hshift).trans hright).trans hreduce
  have hinput : (ys ++ (o.token.input, loc) :: zs') ++ rest =
      ys ++ ((o.token.input, loc) :: (zs' ++ rest)) := by
    rw [List.append_assoc, List.cons_append]
  show Leads actions automaton eof (st, (ys ++ (o.token.input, loc) :: zs') ++ rest) _
  rw [hinput]
  by_cases hlayer : o.layer = layer
  · obtain rfl := hsame hlayer
    subst hlayer
    exact hall
  · obtain ⟨rfl, hgoto⟩ := hother hlayer
    have hoperand : o.layer = .operand := by
      cases h : o.layer with
      | expr => exact absurd h hlayer
      | operand => rfl
    rw [hoperand] at hall
    refine leads_lift hw hc fun p hp => ?_
    obtain rfl := Option.some.inj (hgoto.symm.trans hp)
    exact hall

theorem reads (eof : Location) (e : Infix) : Reads eof e := by
  induction e with
  | column x => exact reads_column x
  | binary o l r ihl ihr => exact reads_binary o ihl ihr

end

theorem notMem_word {e : Infix} : ∀ x ∈ e.written, x.gap ≠ [] ∧ '\x00' ∉ x.word := by
  have hword {w : Str} {t : Token} (h : Spelled w t) (hw : '\x00' ∉ w) :
      (Infix.word w t h).gap ≠ [] ∧ '\x00' ∉ (Infix.word w t h).word := ⟨List.cons_ne_nil _ _, hw⟩
  have hwrap {parens : Bool} {ws : List Written} (h : ∀ x ∈ ws, x.gap ≠ [] ∧ '\x00' ∉ x.word) :
      ∀ x ∈ Infix.wrap parens ws, x.gap ≠ [] ∧ '\x00' ∉ x.word := by
    cases parens with
    | false => exact h
    | true =>
      refine List.forall_mem_cons.mpr ⟨hword _ (by decide), List.forall_mem_append.mpr ⟨h, ?_⟩⟩
      exact List.forall_mem_singleton.mpr (hword _ (by decide))
  induction e with
  | column x =>
    refine List.forall_mem_singleton.mpr (hword _ fun hmem => ?_)
    rcases List.mem_cons.mp hmem with heq | htail
    · have halpha := x.head_alpha
      rw [← heq] at halpha
      cases halpha
    · have htail := x.tail_word _ htail
      cases htail
  | binary o l r ihl ihr =>
    refine List.forall_mem_append.mpr ⟨hwrap ihl, List.forall_mem_cons.mpr ⟨hword _ ?_, hwrap ihr⟩⟩
    cases o <;> decide

/-- **Printing with minimal parentheses and parsing is the identity.** The text has the tokens it is
made of, and wherever the parser waits for an expression of its own, these and a token that ends an
expression make it push exactly the tree. -/
theorem parse_written (e : Infix) : tokens e.text = e.written.map Written.token ∧
    ∀ {q p : Nat}, automaton.goto q .expr = some p → q ≠ Op.or.entered → q ≠ Op.and.entered →
      ∀ (eof : Location) (st : List (Entry TokenKind.Val NT.Val))
        (xs rest : List (Sigma TokenKind.Val × Location)), topState st = q →
        Holds xs e.written → EndsExpr (ahead rest) →
          Leads actions automaton eof (st, xs ++ rest) (.value p .expr (some e.expr) :: st, rest) := by
  constructor
  · have htokens : tokens (e.text ++ []) = e.written.map Written.token :=
      Written.tokens_eq (fun x hx => (notMem_word x (List.mem_of_mem_tail hx)).1) (by simp)
        fun x hx => (notMem_word x hx).2
    rwa [List.append_nil] at htokens
  · intro q p hgoto hor hand eof st xs rest hq hxs hends
    have hw := waits_start (q, p) (goto_mem hgoto) hor hand
    subst hq
    exact reads eof e hw e.fits_zero hends.closes hxs

def columnA : ColumnName where
  head := 'a'
  tail := []
  head_alpha := by decide
  tail_word := List.forall_mem_nil _
  not_keyword := Keyword.forall_text (P := fun w => lower ['a'] ≠ lower w) (by decide +kernel)

theorem parse_written_pragma : Leads actions automaton .zero
    ([.token 4 (.kw .PRAGMA) ()],
      [(⟨.IDENTIFIER, ['a']⟩, .zero), (⟨.ch '-', ()⟩, .zero), (⟨.ch '(', ()⟩, .zero),
        (⟨.IDENTIFIER, ['a']⟩, .zero), (⟨.ch '-', ()⟩, .zero), (⟨.IDENTIFIER, ['a']⟩, .zero),
        (⟨.ch ')', ()⟩, .zero)])
    ([.value 52 .expr (some (Expr.makeOpBinary (some (Expr.makeColumnRef (some ['a']))) .kOpMinus
      (some (Expr.makeOpBinary (some (Expr.makeColumnRef (some ['a']))) .kOpMinus
        (some (Expr.makeColumnRef (some ['a']))))))), .token 4 (.kw .PRAGMA) ()], []) := by
  have hgoto : automaton.goto 4 .expr = some 52 := rfl
  have hparse := (parse_written (.binary .minus (.column columnA)
    (.binary .minus (.column columnA) (.column columnA)))).2 hgoto (by decide +kernel)
    (by decide +kernel)
  exact hparse .zero [.token 4 (.kw .PRAGMA) ()]
    [(⟨.IDENTIFIER, ['a']⟩, .zero), (⟨.ch '-', ()⟩, .zero), (⟨.ch '(', ()⟩, .zero),
      (⟨.IDENTIFIER, ['a']⟩, .zero), (⟨.ch '-', ()⟩, .zero), (⟨.IDENTIFIER, ['a']⟩, .zero),
      (⟨.ch ')', ()⟩, .zero)] [] rfl rfl (by decide +kernel)

end Hsql
