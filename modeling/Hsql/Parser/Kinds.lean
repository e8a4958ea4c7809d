import Hsql.Bison.Control
import Hsql.Parser.Forget
import Hsql.Parser.NullSafety

/-! Whether a text is valid depends on the kinds of its tokens alone. -/

namespace Hsql
open Bison

theorem input_codes (sql : Str) :
    (Location.zero.tokens (lexemes sql)).map (fun x => x.1.1) = codes sql := by
  have hfst := congrArg (List.map Sigma.fst) (tokens_map_fst .zero (lexemes sql))
  rw [List.map_map, List.map_map] at hfst
  exact hfst

/-- Runs on inputs that look the same accept derivations that do. -/
theorem runs_alike {I : Image (trees grammar TokenKind.Val Location)} (hI : I.Respected)
    {c c' : Config (trees grammar TokenKind.Val Location)} {eof₀ : Location}
    {sql : Str} {d : Derivation .input} (heof : I.place eof₀ = I.place (eof sql))
    (h : c.Runs automaton eof₀ (.accept [.value 10 .input d] ())) (halike : Config.Alike I c c')
    (hlink : Linked automaton c'.stack) : ∃ d',
      c'.Runs automaton (eof sql) (.accept [.value 10 .input d'] ()) ∧
        I.value .input d = I.value .input d' := by
  obtain ⟨o, hrun, hout⟩ := Config.Runs.alike hI heof h halike
  cases o with
  | accept stack u =>
    obtain ⟨e, hlink', hstep⟩ := hrun.last (I := fun c => Linked automaton c.stack)
      Config.step_linked hlink
    obtain ⟨-, -, d', -, rfl⟩ := accepts_at hlink' hstep
    have hentry := (List.cons_eq_cons.mp hout.1).1
    exact ⟨d', hrun, eq_of_heq (Entry.value.inj hentry).2.2⟩
  | reject => exact hout.elim
  | crash => exact hout.elim

/-- Texts with the same kinds of tokens have the same derivation, but for the values of tokens. -/
theorem Builds.of_codes {sql sql' : Str} {d : Derivation .input} (h : Builds sql d)
    (hcodes : codes sql = codes sql') : ∃ d', Builds sql' d' ∧ d'.erase = d.erase := by
  have hinput : (Location.zero.tokens (lexemes sql)).map
      (eraseImage grammar TokenKind.Val Location).input =
        (Location.zero.tokens (lexemes sql')).map
          (eraseImage grammar TokenKind.Val Location).input := by
    have hmap (xs : List (Sigma TokenKind.Val × Location)) :
        xs.map (eraseImage grammar TokenKind.Val Location).input =
          (xs.map fun x => x.1.1).map fun t => (⟨t, ()⟩, ()) := by
      rw [List.map_map]
      rfl
    rw [hmap, hmap, input_codes, input_codes, hcodes]
  have halike : Config.Alike (eraseImage grammar TokenKind.Val Location)
      (startConfig (trees grammar TokenKind.Val Location) sql ())
      (startConfig (trees grammar TokenKind.Val Location) sql' ()) :=
    ⟨rfl, hinput, rfl, rfl, rfl⟩
  have heof : (eraseImage grammar TokenKind.Val Location).place (eof sql) =
      (eraseImage grammar TokenKind.Val Location).place (eof sql') := rfl
  obtain ⟨d', hrun, herase⟩ := runs_alike eraseImage_respected heof h halike trivial
  exact ⟨d', hrun, herase.symm⟩

theorem nullSafe_erase {d d' : Derivation .input} (h : d.erase = d'.erase) :
    d.NullSafe ↔ d'.NullSafe := by
  refine Tree.each_erase (fun r p p' vs vs' _ => rfl) ?_ d d' h
  intro n r vs vs' hvs
  cases n with
  | foreignKeyEventList =>
    match r, vs, vs', hvs with
    | ⟨0, _⟩, _, _, _ => exact Iff.rfl
    | ⟨1, _⟩, (i, _, _), (i', _, _), hvs =>
      obtain rfl : i = i' := (Prod.mk.inj hvs).1
      exact Iff.rfl
    | ⟨2, _⟩, _, _, _ => exact Iff.rfl
  | optTableConstraintList =>
    match r, vs, vs', hvs with
    | ⟨0, _⟩, _, _, _ => exact Iff.rfl
    | ⟨1, _⟩, (i, _, _, _), (i', _, _, _), hvs =>
      obtain rfl : i = i' := (Prod.mk.inj hvs).1
      exact Iff.rfl
    | ⟨2, _⟩, _, _, _ => exact Iff.rfl
  | joinClause =>
    match r, vs, vs', hvs with
    | ⟨0, _⟩, _, _, _ => exact Iff.rfl
    | ⟨1, _⟩, _, _, _ => exact Iff.rfl
    | ⟨2, _⟩, (_, _, _, _, _, _, i, _), (_, _, _, _, _, _, i', _), hvs =>
      have hcolumn := (Prod.mk.inj (Prod.mk.inj (Prod.mk.inj (Prod.mk.inj
        (Prod.mk.inj (Prod.mk.inj hvs).2).2).2).2).2).2
      obtain rfl : i = i' := (Prod.mk.inj hcolumn).1
      exact Iff.rfl
  | _ => exact Iff.rfl

theorem valid_iff (sql : Str) : Valid sql ↔ ∃ d, Builds sql d ∧ d.NullSafe := by
  constructor
  · rintro ⟨heap, result, heap', r, hparses, hr⟩
    obtain ⟨d, s', hbuilds, heval, -, -⟩ := parses_valid_iff.mp ⟨hparses, hr⟩
    exact ⟨d, hbuilds, (eval_nullSafe_iff d _).mp (Option.isSome_iff_exists.mpr ⟨_, heval⟩)⟩
  · rintro ⟨d, hbuilds, hsafe⟩
    obtain ⟨x, hx⟩ := Option.isSome_iff_exists.mp
      ((eval_nullSafe_iff d (.start ⟨0, 0, 0, 0⟩ .new)).mpr hsafe)
    obtain ⟨hparses, hr⟩ := parses_valid_iff.mpr ⟨d, x.2, hbuilds, hx, rfl, rfl⟩
    exact ⟨_, _, _, _, hparses, hr⟩

/-- A valid text is accepted wherever it is parsed. -/
theorem Valid.exists_parses {sql : Str} (h : Valid sql) (heap : Heap) (result : SQLParserResult) :
    ∃ heap' r, Parses heap result sql heap' r ∧ r.isValid = true := by
  obtain ⟨d, hbuilds, hsafe⟩ := (valid_iff sql).mp h
  obtain ⟨x, hx⟩ := Option.isSome_iff_exists.mp ((eval_nullSafe_iff d (.start heap result)).mpr hsafe)
  obtain ⟨hparses, hr⟩ := parses_valid_iff.mpr ⟨d, x.2, hbuilds, hx, rfl, rfl⟩
  exact ⟨_, _, hparses, hr⟩

theorem Valid.of_codes {sql sql' : Str} (h : Valid sql) (hcodes : codes sql = codes sql') :
    Valid sql' := by
  obtain ⟨d, hbuilds, hsafe⟩ := (valid_iff sql).mp h
  obtain ⟨d', hbuilds', herase⟩ := hbuilds.of_codes hcodes
  exact (valid_iff sql').mpr ⟨d', hbuilds', (nullSafe_erase herase).mpr hsafe⟩

/-- A front part of the tokens on which the control meets an error makes the text invalid. -/
theorem not_valid_of_follow {sql : Str} {fuel : Nat} {ts : List TokenKind}
    (h : follow automaton fuel [] ts = .rejected) (hts : ts <+: codes sql) : ¬ Valid sql := by
  intro hvalid
  obtain ⟨d, hbuilds, -⟩ := (valid_iff sql).mp hvalid
  have hinput : ts <+: (startConfig (trees grammar TokenKind.Val Location) sql ()).input.map
      fun x => x.1.1 := by
    rw [← input_codes] at hts
    exact hts
  exact Config.Runs.follow fuel hbuilds ts hinput h

example : follow automaton 20 [] [.kw .SELECT, .IDENTIFIER, .kw .SELECT] = .rejected := by
  rw [automaton_eq_rowwise]
  decide +kernel

end Hsql
