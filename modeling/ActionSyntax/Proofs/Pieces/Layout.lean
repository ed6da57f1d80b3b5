import ActionSyntax.Proofs.Pieces.Piece
import ActionSyntax.Proofs.Pieces.Tokens
import ActionSyntax.Proofs.Places.Walk

/-!
Where the pieces of a tree lie. Every piece goes from the start of a token to the end of a token, and
covers the pieces that stand in it, but for the type of a parameter that is written before an arrow and
for the bounds of generics. What an inclusion brings in lies in the script that it includes.
-/

namespace ActionSyntax

set_option autoImplicit false

namespace Piece

/-- The child need not lie within the piece. -/
def Exempts : Piece → Piece → Prop
  | .parameter _, _ => True
  | .generics _, .typeBound _ => True
  | _, _ => False

/-- A function type covers the types of its parameters where their names are. -/
def CoversParameters : Piece → Prop
  | .type (.function _ params optional rest _) =>
    ∀ id ∈ params ++ optional.getD [] ++ rest.toList, ∀ type ∈ id.type, id.span.Covers type.span
  | _ => True

def isInclusion : Piece → Bool
  | .statement _ (.includeSource ..) => true
  | _ => false

/-- The piece goes from the start of one of the tokens to the end of one at or behind it. A function
type that begins with its keyword exempts nothing. -/
def Ends (tokens : List Token) (p : Piece) (span : Span) : Prop :=
  ∃ a ∈ tokens, ∃ b ∈ tokens, a.span.start ≤ b.span.start ∧ span = a.span.«to» b.span ∧
    (a.isKeyword "function" = true → p.CoversParameters)

/-- The piece and all that stands in it lie along the tokens. Included statements lie along the tokens
that have been consumed of the included script. -/
inductive Laid : List Token → Piece → Prop
  | piece {tokens : List Token} {p : Piece} (own : p.isInclusion = false)
      (ends : ∀ span ∈ p.span?, p.Ends tokens span) (children : ∀ c ∈ p.children, Laid tokens c)
      (covers : ∀ c ∈ p.children, ¬ p.Exempts c → ∀ outer ∈ p.span?, ∀ inner ∈ c.span?,
        outer.Covers inner) : Laid tokens p
  | included {tokens inside : List Token} {around : Situation} {span : Span} {source : String}
      {child : Script} {statements : List Statement} {t : ParserState}
      (ends : (Piece.statement around (.includeSource span source child statements)).Ends tokens span)
      (consumes : Consumes
        (ParserState.ofScript (.ofSource child.path (String.ofList child.content))).scanned inside t)
      (laid : ∀ s ∈ statements, Laid inside (.statement around s)) :
      Laid tokens (.statement around (.includeSource span source child statements))

theorem Ends.mono {tokens more : List Token} {p : Piece} {span : Span} (h : p.Ends tokens span)
    (hsub : tokens ⊆ more) : p.Ends more span := by
  obtain ⟨a, ha, b, hb, h⟩ := h
  exact ⟨a, hsub ha, b, hsub hb, h⟩

theorem Laid.mono {tokens more : List Token} {p : Piece} (h : p.Laid tokens)
    (hsub : tokens ⊆ more) : p.Laid more := by
  induction h with
  | piece own ends _ covers ih =>
    exact .piece own (fun span hspan => (ends span hspan).mono hsub) (fun c hc => ih c hc hsub) covers
  | included ends consumes laid => exact .included (ends.mono hsub) consumes laid

/-- The piece lies along the tokens, within a range. -/
structure LaidIn (tokens : List Token) (outer : Span) (p : Piece) : Prop where
  laid : p.Laid tokens
  within : ∀ span ∈ p.span?, outer.Covers span

theorem LaidIn.widen {tokens : List Token} {outer wider : Span} {p : Piece}
    (h : p.LaidIn tokens outer) (hwider : wider.Covers outer) : p.LaidIn tokens wider :=
  ⟨h.laid, fun span hspan => hwider.trans (h.within span hspan)⟩

theorem Laid.ends {tokens : List Token} {p : Piece} (h : p.Laid tokens) {span : Span}
    (hspan : span ∈ p.span?) : p.Ends tokens span := by
  cases h with
  | piece _ ends => exact ends span hspan
  | included ends =>
    obtain rfl : _ = span := by simpa [span?, Statement.span] using hspan
    exact ends

/-- A piece without exemptions has its children within its range. -/
theorem Laid.children_in {tokens : List Token} {p : Piece} (h : p.Laid tokens)
    (hown : p.isInclusion = false) (hexempt : ∀ c, ¬ p.Exempts c) {span : Span}
    (hspan : p.span? = some span) : ∀ c ∈ p.children, c.LaidIn tokens span := by
  cases h with
  | piece _ _ children covers =>
    exact fun c hc => ⟨children c hc, fun inner hinner => covers c hc (hexempt c) span hspan inner hinner⟩
  | included => cases hown

end Piece

end ActionSyntax
