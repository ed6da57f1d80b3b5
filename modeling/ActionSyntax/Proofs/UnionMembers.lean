import ActionSyntax.Proofs.Shadows.TypeTracks

/-!
A type as a member of a union. A text that is a type by itself is read in front of a bar as the same type,
unless what ends it is a type that would go on with the bar: the type behind a colon, an arrow or another
bar.
-/

namespace ActionSyntax

set_option autoImplicit false

open Parse Rules

namespace Rules

variable {q : Rules} {s t u : ParserState} {base type : TypeExpr}

/-- Where no suffix is found, none can be. -/
theorem typeSuffix?_none (h : q.typeSuffix? base t = .ok none u) : t.token.EndsType ∧ u = t := by
  unfold typeSuffix? at h
  obtain ⟨question, t₁, hquestion, h₁⟩ := bind_ok h
  rcases consume_inv hquestion with ⟨rfl, -, -⟩ | ⟨rfl, hquestion, rfl⟩
  · cases h₁
  obtain ⟨exclamation, t₂, hexclamation, h₂⟩ := bind_ok h₁
  rcases consume_inv hexclamation with ⟨rfl, -, -⟩ | ⟨rfl, hexclamation, rfl⟩
  · cases h₂
  obtain ⟨dot, t₃, hdot, h₃⟩ := bind_ok h₂
  rcases consume_inv hdot with ⟨rfl, -, -⟩ | ⟨rfl, hdot, rfl⟩
  · obtain ⟨member, v, -, hf⟩ := bind_ok h₃
    cases hf
  obtain ⟨colon, t₄, hcolon, h₄⟩ := bind_ok h₃
  rcases consume_inv hcolon with ⟨rfl, -, -⟩ | ⟨rfl, hcolon, rfl⟩
  · obtain ⟨type, v, -, hf⟩ := bind_ok h₄
    cases hf
  obtain ⟨bar, t₅, hbar, h₅⟩ := bind_ok h₄
  rcases consumeIf_inv hbar with ⟨rfl, -, -⟩ | ⟨rfl, hbar, rfl⟩
  · obtain ⟨right, v, -, hf⟩ := bind_ok h₅
    cases hf
  cases h₅
  exact ⟨⟨by simp [hquestion, hexclamation, hdot, hcolon], hbar⟩, rfl⟩

theorem typeSuffixes_ends : ∀ {fuel : Nat} {base : TypeExpr} {t : ParserState},
    q.typeSuffixes fuel base t = .ok type u → u.token.EndsType
  | 0, _, _, h => by cases h
  | fuel + 1, base, t, h => by
    rw [typeSuffixes] at h
    obtain ⟨found, v, hv, hf⟩ := bind_ok h
    cases found with
    | none =>
      obtain ⟨hends, rfl⟩ := typeSuffix?_none hv
      cases hf
      exact hends
    | some longer => exact typeSuffixes_ends hf

/-- Behind a type stands nothing that goes on with it. -/
theorem typeExprRule_ends (h : q.typeExprRule s = .ok type u) : u.token.EndsType := by
  obtain ⟨m, v, -, hf⟩ := bind_ok h
  obtain ⟨head, w, -, hg⟩ := bind_ok hf
  exact typeSuffixes_ends hg

end Rules

/-- The type is over with the one that ends it, outside of brackets. -/
def TypeExpr.Over (type : TypeExpr) (u : ParserState) : Prop := u.token.EndsType ∧ ¬ type.Plain

/-- A type is over with the end of another one, if it is none that stands by itself. -/
theorem TypeExpr.Over.of_ends {whole : TypeExpr} {u : ParserState} (hplain : ¬ whole.Plain)
    (hends : u.token.EndsType) : whole.Over u := ⟨hends, hplain⟩

namespace Tandem

variable {P : Tandem} {r r' : Rules} (h : Follows P r r')
  (hends : ∀ {s type u}, r.typeExpr s = .ok type u → u.token.EndsType)

section Members

include h hends

/-- A type that ends another one outside of brackets need not be tracked. -/
theorem typeExpr_ends : Tracks P P.near (fun _ u => u.token.EndsType) r.typeExpr r'.typeExpr :=
  .of_done hends h.insists

/-- The suffixes of the first are read in the second, which goes on to look for one behind them. -/
theorem typeSuffixes_tracks {type : TypeExpr} {u : ParserState} (hplain : type.Plain)
    (hend : u.token.kind = .endOfProgram) (hgone : ¬ P.gone u) :
    ∀ {fuel more : Nat} {base : TypeExpr} {s t : ParserState}, P.near s t →
      r.typeSuffixes fuel base s = .ok type u →
      ∃ v fuel', r'.typeSuffixes (fuel + more) (move P.offset P.lines base) t =
          r'.typeSuffixes (fuel' + 1 + more) (move P.offset P.lines type) v ∧ P.near u v
  | 0, _, _, _, _, _, hread => by cases hread
  | fuel + 1, more, base, s, t, hst, hread => by
    by_cases hspent : s.token.Spent
    · rw [typeSuffixes_over hspent.endsType] at hread
      cases hread
      exact ⟨t, fuel, rfl, hst⟩
    rw [typeSuffixes] at hread
    obtain ⟨found, v, hv, hf⟩ := bind_ok hread
    cases found with
    | none =>
      obtain ⟨-, rfl⟩ := typeSuffix?_none hv
      cases hf
      exact ⟨t, fuel, rfl, hst⟩
    | some longer =>
      have hf : r.typeSuffixes fuel longer v = .ok type u := hf
      have hgone' : ¬ P.gone v := fun hv =>
        hgone (((h.typeSuffixes_late (Nat.le_refl fuel) longer).stays (P.gone_spent hv) hf).gone hv)
      rw [show fuel + 1 + more = fuel + more + 1 by omega]
      rcases (Follows.typeSuffix?_tracks h (typeExpr_ends h hends) TypeExpr.Over.of_ends base).tracks
          ⟨hst, hspent⟩ hv hgone' with ⟨v', hv', hnear⟩ | ⟨_, ⟨⟩, hover, hunplain⟩
      · rw [typeSuffixes_some hv']
        exact typeSuffixes_tracks hplain hend hgone hnear hf
      · -- Nothing goes on with a type that ends so, and it is not plain.
        cases fuel with
        | zero => cases hf
        | succ fuel =>
          rw [typeSuffixes_over hover] at hf
          cases hf
          exact absurd hplain hunplain

/-- A plain type that is all of the first is read in the second, where it may be gone on with. -/
theorem typeExprRule_tracks {type : TypeExpr} {s t u : ParserState} {previous : Token} {more : Nat}
    (hst : P.near s { t with previous }) (hbar : s.token.isOperator .bitwiseOr = false)
    (hread : r.typeExprRule s = .ok type u) (hplain : type.Plain) (hend : u.token.kind = .endOfProgram)
    (hgone : ¬ P.gone u) (hrounds : r'.rounds = r.rounds + more) :
    ∃ v fuel, r'.typeExprRule t = r'.typeSuffixes (fuel + 1 + more) (move P.offset P.lines type) v ∧
      P.near u v := by
  have hspent : ¬ s.token.Spent := fun hs => Follows.typeExprRule_insists.empty hs hread
  unfold typeExprRule at hread
  rw [mark_bind] at hread
  obtain ⟨head, v, hhead, hsuffixes⟩ := bind_ok hread
  have hgone' : ¬ P.gone v := fun hv => hgone
    (((h.typeSuffixes_late h.rounds_le head).stays (P.gone_spent hv) hsuffixes).gone hv)
  have hnone : s.token.isOperator .bitwiseOr = true → False := by simp [hbar]
  rcases (Follows.typeHead_tracks h (typeExpr_ends h hends) TypeExpr.Over.of_ends False.elim _).tracks
      ⟨⟨hst, hspent⟩, hnone⟩ hhead hgone' with ⟨v', hhead', hnear⟩ | ⟨hover, hunplain⟩
  · obtain ⟨w, fuel, heq, hnear'⟩ : ∃ w fuel,
        r'.typeSuffixes (r.rounds + more) (move P.offset P.lines head) v' =
          r'.typeSuffixes (fuel + 1 + more) (move P.offset P.lines type) w ∧ P.near u w :=
      typeSuffixes_tracks h hends hplain hend hgone hnear hsuffixes
    refine ⟨w, fuel, ?_, hnear'⟩
    have hmark : Mark.ofSpan ({ t with previous } : ParserState).token.span =
        move P.offset P.lines (Mark.ofSpan s.token.span) := P.begins hst hspent
    rw [← hmark] at hhead'
    have hhead' : r'.typeHead (Mark.ofSpan t.token.span) t = _ := typeHead_fresh hhead'
    unfold typeExprRule
    rw [mark_bind, bind_of_ok hhead', hrounds]
    exact heq
  · have hrounds' : r.rounds = r.depth + 1 + 1 := rfl
    rw [hrounds', typeSuffixes_over hover] at hsuffixes
    cases hsuffixes
    exact absurd hplain hunplain

end Members

end Tandem

end ActionSyntax
