import ActionSyntax.Proofs.Shadows.Levels
import ActionSyntax.Proofs.Shadows.Tracking
import ActionSyntax.Proofs.TypeSteps

/-!
How types track each other. What stands in brackets is tracked as long as something follows it. So a type
is tracked to its end if the types that end it outside of brackets are: the ones behind a colon, an arrow
or a bar.
-/

namespace ActionSyntax

set_option autoImplicit false

open Parse Rules

/-- The type is neither a union nor typed nor a function with a result, so outside of brackets it has no
bar, no colon and no arrow. -/
def TypeExpr.Plain : TypeExpr → Prop
  | .union _ _ | .typed _ _ _ | .function _ _ _ _ (some _) => False
  | _ => True

theorem Token.Spent.endsType {t : Token} (h : t.Spent) : t.EndsType := by
  rcases h with hkind | hkind | ⟨hkind, hop⟩
  · exact .of_closing (Or.inr hkind)
  all_goals exact ⟨by simp [hkind], by simp_all [Token.isOperator]⟩

namespace Rules

variable {q : Rules} {s t u : ParserState} {base type : TypeExpr}

/-- What a type begins with does not depend on the token in front of it. -/
theorem typeHead_fresh {m : Mark} {previous : Token}
    (h : q.typeHead m { s with previous } = .ok type u) : q.typeHead m s = .ok type u := by
  have choice : ∀ {condition : Token → Bool} {x y : Parse TypeExpr},
      (y { s with previous } = .ok type u → y s = .ok type u) →
      (consumeIf condition >>= fun found => if found = true then x else y) { s with previous } =
        .ok type u →
      (consumeIf condition >>= fun found => if found = true then x else y) s = .ok type u := by
    intro condition x y hy h
    cases hcondition : condition s.token with
    | true =>
      have heq : consumeIf condition { s with previous } = consumeIf condition s := by
        rw [consumeIf_true (s := s) hcondition]
        exact consumeIf_true hcondition
      change EStateM.bind (consumeIf condition) _ _ = _ at h
      unfold EStateM.bind at h
      rw [heq] at h
      exact h
    | false =>
      have hskip : consumeIf condition { s with previous } = .ok false { s with previous } :=
        consumeIf_no hcondition
      rw [bind_of_ok hskip] at h
      rw [bind_of_ok (consumeIf_no hcondition)]
      exact hy h
  refine choice (choice (choice (choice (choice (choice (choice (choice (choice (choice ?_))))))))) h
  intro h
  cases h

theorem typeExprRule_fresh {previous : Token} (h : q.typeExprRule { s with previous } = .ok type u) :
    q.typeExprRule s = .ok type u := by
  obtain ⟨m, v, hmark, h⟩ := bind_ok h
  cases hmark
  obtain ⟨head, v, hhead, h⟩ := bind_ok h
  have hhead : q.typeHead (Mark.ofSpan s.token.span) s = .ok head v := typeHead_fresh hhead
  unfold typeExprRule
  rw [mark_bind, bind_of_ok hhead]
  exact h

end Rules

section Moved

variable (offset lines : Nat)

instance : Movable TypeParams :=
  ⟨fun offset lines p =>
    ⟨move offset lines p.required, move offset lines p.optional, move offset lines p.rest⟩⟩

theorem TypeExpr.move_function (span : Span) (params : TypeParams) (result : Option TypeExpr) :
    TypeExpr.function (span.moved offset lines) (move offset lines params).required
        (move offset lines params).optional (move offset lines params).rest (move offset lines result) =
      move offset lines (TypeExpr.function span params.required params.optional params.rest result) := by
  show _ = TypeExpr.function _ _ _ _ _
  rw [Identifier.movedAll_eq, Identifier.movedAllOption_eq, Identifier.movedOption_eq,
    TypeExpr.movedOption_eq]
  rfl

theorem Rules.TypeParams.move_addOptional (params : TypeParams) (id : Identifier) :
    (move offset lines params).addOptional (move offset lines id) =
      move offset lines (params.addOptional id) := by
  obtain ⟨required, optional, rest⟩ := params
  cases optional with
  | none => rfl
  | some ids => simp [TypeParams.addOptional, Movable.move]

theorem Rules.TypeParams.move_addRequired (params : TypeParams) (id : Identifier) :
    (move offset lines params).addRequired (move offset lines id) =
      move offset lines (params.addRequired id) := by
  simp [TypeParams.addRequired, Movable.move]

theorem Rules.TypeParams.move_hasOptional (params : TypeParams) :
    (move offset lines params).optional.isSome = params.optional.isSome :=
  Option.isSome_map

end Moved

namespace Tandem

variable {P : Tandem}

section Loops

variable {α β : Type} [Movable α] [Movable β] {condition : Token → Bool} {item item' : Parse α}
  {done : β → ParserState → Prop}

theorem consumeIf_late (hc : Token.Takes condition) :
    Tracks P P.near Late (consumeIf condition) (consumeIf condition) := by
  have heq : consumeIf condition =
      consumeIf condition >>= fun found => if found = true then pure true else pure false := by
    have hsame : (fun found : Bool => if found = true then Pure.pure true else Pure.pure false) =
        (Pure.pure : Bool → Parse Bool) := funext fun found => by cases found <;> rfl
    rw [hsame, bind_pure]
  rw [heq]
  exact choice_late hc (.pure rfl) (.pure rfl)

theorem kind_open {ends : TokenKind → Bool} (hends : Token.Takes fun t => ends t.kind)
    {p p' q q' : Parse β} (hp : Tracks P P.near done p p') (hq : Tracks P P.near done q q') :
    Tracks P P.Open done (kind >>= fun k => if ends k = true then p else q)
      (kind >>= fun k => if ends k = true then p' else q') where
  tracks {s t b u} hst hread hgone := by
    change (if ends s.token.kind = true then p else q) s = _ at hread
    show (∃ v, (if ends t.token.kind = true then p' else q') t = _ ∧ _) ∨ _
    rw [← P.same hst.1 hst.2 hends]
    exact (Tracks.ite hp hq).tracks hst.1 hread hgone
  stays {s b u} hs hread := by
    change (if ends s.token.kind = true then p else q) s = _ at hread
    exact (Tracks.ite hp hq).stays hs hread

/-- The token is asked only where it is found. -/
theorem token_tracks {f f' : Token → Parse β} (hf : ∀ t t', Tracks P P.near done (f t) (f' t')) :
    Tracks P P.near done (token >>= f) (token >>= f') where
  tracks hst hread hgone := (hf _ _).tracks hst hread hgone
  stays hs hread := (hf _ (Token.initial)).stays hs hread

/-- Perhaps a problem is found, in both. -/
theorem optional_tracks {wrong wrong' : Bool} (hwrong : wrong = wrong') (id : ProblemId) (span span' : Span)
    {p p' : Parse β} (hp : Tracks P P.near done p p') :
    Tracks P P.near done (if wrong = true then syntaxError id span >>= fun _ => p else p)
      (if wrong' = true then syntaxError id span' >>= fun _ => p' else p') := by
  rw [← hwrong]
  exact .ite (.seq (syntaxError_tracks id span span') fun _ => hp) hp

theorem separated_late (hitem : Tracks P P.near Late item item') : ∀ {fuel fuel' : Nat}, fuel ≤ fuel' →
    Tracks P P.near Late (separated item fuel) (separated item' fuel')
  | 0, _, _ => .exhausted
  | _ + 1, _ + 1, hle =>
    .lately hitem fun first => choice_late (.kind (by decide))
      (.lately (separated_late hitem (Nat.le_of_succ_le_succ hle)) fun rest => .pure rfl) (.pure rfl)

theorem separatedUntil_late {closing : TokenKind} (hclosing : Token.Takes fun t => t.kind == closing)
    (hitem : Tracks P P.near Late item item') : ∀ {fuel fuel' : Nat}, fuel ≤ fuel' →
      Tracks P P.near Late (separatedUntil closing item fuel) (separatedUntil closing item' fuel')
  | 0, _, _ => .exhausted
  | _ + 1, _ + 1, hle => by
    refine .late (at?_tracks hclosing fun closed => .ite (.pure rfl) ?_)
    refine .lately hitem fun first => choice_late (.kind (by decide)) ?_ (.pure rfl)
    exact .lately (separatedUntil_late hclosing hitem (Nat.le_of_succ_le_succ hle)) fun rest => .pure rfl

end Loops

/-- Rules that track the types of others as long as something follows. -/
structure Follows (P : Tandem) (r r' : Rules) : Prop where
  depth : r.depth ≤ r'.depth
  typeExpr : Tracks P P.near Late r.typeExpr r'.typeExpr
  insists : Insists r.typeExpr

namespace Follows

variable {r r' : Rules}

section Late

variable (h : Follows P r r')
include h

theorem rounds_le : r.rounds ≤ r'.rounds := Nat.add_le_add_right h.depth 2

theorem optAnnotation_late : Tracks P P.near Late r.optAnnotation r'.optAnnotation :=
  choice_late (.kind (by decide)) (.lately h.typeExpr fun type => .pure rfl) (.pure rfl)

theorem typedIdentifierFrom_late (m : Mark) (name : String) : Tracks P P.near Late
    (r.typedIdentifierFrom m name) (r'.typedIdentifierFrom (move P.offset P.lines m) name) :=
  .lately h.optAnnotation_late fun type => finished_tracks m fun span => by
    simp only [Movable.move, Identifier.moved, TypeExpr.movedOption_eq]

omit h in
theorem expectName_tracks : Tracks P P.near Never expectName expectName :=
  .seq (expectIf_tracks (.kind (by decide))) fun _ => previous_tracks fun token => .pure rfl

omit h in
theorem expectName_insists : Insists expectName := (Insists.expectIf (.kind (by decide))).seq

theorem typedIdentifier_late : Tracks P P.near Late r.typedIdentifier r'.typedIdentifier :=
  .insisting (mark_tracks fun m => .opened (.seq expectName_tracks fun name =>
    h.typedIdentifierFrom_late m name)) (.mark fun _ => expectName_insists.seq)

theorem functionTypeParam_late : Tracks P P.near Late r.functionTypeParam r'.functionTypeParam := by
  refine .insisting (mark_tracks fun m => .opened ?_) (.mark fun _ => expectName_insists.seq)
  refine .seq expectName_tracks fun name => ?_
  refine .lately (consumeIf_late (.kind (by decide))) fun optional => ?_
  exact .lately (h.typedIdentifierFrom_late m name) fun id => .pure rfl

theorem functionTypeParams_late : ∀ {fuel fuel' : Nat}, fuel ≤ fuel' → ∀ params : TypeParams,
    Tracks P P.near Late (r.functionTypeParams fuel params)
      (r'.functionTypeParams fuel' (move P.offset P.lines params))
  | 0, _, _, _ => .exhausted
  | fuel + 1, fuel' + 1, hle, params => by
    refine .late (at?_tracks (.kind (by decide)) fun closed => .ite (.pure rfl) ?_)
    refine choice_late (.kind (by decide)) (.lately h.typedIdentifier_late fun rest => .pure rfl) ?_
    refine .lately h.functionTypeParam_late fun ⟨id, optional⟩ => ?_
    refine token_tracks fun t t' => ?_
    refine optional_tracks (by rw [TypeParams.move_hasOptional]; rfl) _ _ _ ?_
    have hmore : (if optional = true then (move P.offset P.lines params).addOptional (move P.offset P.lines id)
        else (move P.offset P.lines params).addRequired (move P.offset P.lines id)) =
        move P.offset P.lines (if optional = true then params.addOptional id else params.addRequired id) := by
      split
      · exact TypeParams.move_addOptional _ _ _ _
      · exact TypeParams.move_addRequired _ _ _ _
    refine choice_late (.kind (by decide)) ?_ (.pure hmore)
    exact hmore ▸ functionTypeParams_late (Nat.le_of_succ_le_succ hle) _

theorem moreTypes_late {ends : TokenKind → Bool} (hends : Token.Takes fun t => ends t.kind) :
    ∀ {fuel fuel' : Nat}, fuel ≤ fuel' →
      Tracks P P.near Late (r.moreTypes ends fuel) (r'.moreTypes ends fuel')
  | 0, _, _ => .exhausted
  | _ + 1, _ + 1, hle => by
    refine choice_late (.kind (by decide)) (.late (kind_open hends (.pure rfl) ?_)) (.pure rfl)
    refine .lately h.typeExpr fun first => ?_
    exact .lately (moreTypes_late hends (Nat.le_of_succ_le_succ hle)) fun rest => .pure rfl

/-- A sign closes the arguments. -/
theorem typeArguments_tracks : Tracks P P.near Never r.typeArguments r'.typeArguments :=
  .closed (separated_late h.typeExpr h.rounds_le)
    (fun _ => .seq expectGreater_tracks fun _ => .pure rfl) fun _ => Insists.expectGreater.seq

end Late

section Conversions

theorem convertTypeParam_tracks (type : Option TypeExpr) (params : TypeParams) (e : TypeExpr) :
    Tracks P P.near Never (convertTypeParam type params e)
      (convertTypeParam (move P.offset P.lines type) (move P.offset P.lines params)
        (move P.offset P.lines e)) := by
  have other : ∀ span span', Tracks P P.near Never
      (do syntaxError .invalidOrUnexpected span; pure params)
      (do syntaxError .invalidOrUnexpected span'; pure (move P.offset P.lines params)) :=
    fun span span' => .seq (syntaxError_tracks _ _ _) fun _ => .pure rfl
  have named : ∀ span name, ({ span := span.moved P.offset P.lines, name, type := move P.offset P.lines type } :
      Identifier) = move P.offset P.lines ({ span, name, type } : Identifier) := by
    intro span name
    simp only [Movable.move, Identifier.moved, TypeExpr.movedOption_eq]
  cases e with
  | name span name =>
    refine optional_tracks (by rw [TypeParams.move_hasOptional]) _ _ _ (.pure ?_)
    rw [named, TypeParams.move_addRequired]
  | nullable span base =>
    cases base with
    | name inner name =>
      refine .pure ?_
      rw [named, TypeParams.move_addOptional]
    | _ =>
      refine .seq (syntaxError_tracks _ _ _) fun _ => .pure ?_
      obtain ⟨required, optional, rest⟩ := params
      cases optional <;> rfl
  | _ => exact other _ _

theorem convertTypeParams_tracks (types : List TypeExpr) :
    Tracks P P.near Never (convertTypeParams types) (convertTypeParams (move P.offset P.lines types)) := by
  have hall : ∀ {step : TypeParams → TypeExpr → Parse TypeParams},
      (∀ params node, Tracks P P.near Never (step params node)
        (step (move P.offset P.lines params) (move P.offset P.lines node))) →
      ∀ (types : List TypeExpr) (params : TypeParams), Tracks P P.near Never (types.foldlM step params)
        ((move P.offset P.lines types).foldlM step (move P.offset P.lines params)) := by
    intro step hstep types
    induction types with
    | nil => exact fun params => .pure rfl
    | cons node types ih =>
      intro params
      show Tracks P P.near Never (_ >>= _) (_ >>= _)
      exact .seq (hstep params node) ih
  refine hall (fun params node => ?_) types {}
  cases node with
  | typed span base type => exact convertTypeParam_tracks (some type) params base
  | _ => exact convertTypeParam_tracks none params _

end Conversions

section Arrows

variable {ending done : TypeExpr → ParserState → Prop} (h : Follows P r r')
  (htype : Tracks P P.near ending r.typeExpr r'.typeExpr)
  (hdone : ∀ {type whole u}, ¬ whole.Plain → ending type u → done whole u)
include htype hdone

theorem arrowType_tracks (m : Mark) (params : TypeParams) : Tracks P P.near done (r.arrowType m params)
    (r'.arrowType (move P.offset P.lines m) (move P.offset P.lines params)) := by
  refine htype.bind ?_ fun result =>
    finished_tracks m fun span => TypeExpr.move_function _ _ span params (some result)
  intro result u whole v hended hread
  rw [finish_bind] at hread
  cases hread
  exact hdone id hended

include h

theorem restArrowType_tracks (m : Mark) (params : TypeParams) :
    Tracks P P.near done (r.restArrowType m params)
      (r'.restArrowType (move P.offset P.lines m) (move P.offset P.lines params)) := by
  refine .closed h.typedIdentifier_late (fun rest => ?_) fun _ => (Insists.expectIf (.kind (by decide))).seq
  refine .seq (expectIf_tracks (.kind (by decide))) fun _ => ?_
  refine .seq (expectIf_tracks (.kind (by decide))) fun _ => ?_
  exact arrowType_tracks htype hdone m { params with rest := some rest }

omit h in
/-- Types that are converted to parameters are those of a function type. -/
theorem converted_tracks (m : Mark) (types : List TypeExpr) : Tracks P P.near done
    (convertTypeParams types >>= fun params => r.arrowType m params)
    (convertTypeParams (move P.offset P.lines types) >>= fun params =>
      r'.arrowType (move P.offset P.lines m) params) :=
  .seq (convertTypeParams_tracks types) fun params => arrowType_tracks htype hdone m params

omit h in
theorem nameType_tracks (m : Mark) :
    Tracks P P.near done (r.nameType m) (r'.nameType (move P.offset P.lines m)) :=
  finish_tracks m fun span => previous_tracks fun token =>
    choice_parting (.kind (by decide)) (fun t ht => by simpa using ht.kind.1)
      (converted_tracks htype hdone m [.name span token.text]) (.pure rfl)

omit h hdone in
/-- A result is the end of a function type. -/
theorem optAnnotation_tracks :
    Tracks P P.near (fun result u => ∃ type, result = some type ∧ ending type u)
      r.optAnnotation r'.optAnnotation := by
  refine choice_parting (.kind (by decide)) (fun t ht => by simpa using ht.kind.2)
    (htype.bind ?_ fun type => .pure rfl) (.pure rfl)
  intro type u result v hended hread
  cases hread
  exact ⟨type, rfl, hended⟩

theorem functionType_tracks (m : Mark) :
    Tracks P P.near done (r.functionType m) (r'.functionType (move P.offset P.lines m)) := by
  refine .seq (expectIf_tracks (.kind (by decide))) fun _ => ?_
  refine .closed (h.functionTypeParams_late h.rounds_le {}) (fun params => ?_)
    fun _ => (Insists.expectIf (.kind (by decide))).seq
  refine .seq (expectIf_tracks (.kind (by decide))) fun _ => ?_
  refine (optAnnotation_tracks htype).bind ?_ fun result =>
    finished_tracks m fun span => TypeExpr.move_function _ _ span params result
  rintro result u whole v ⟨type, rfl, hended⟩ hread
  rw [finish_bind] at hread
  cases hread
  exact hdone id hended

omit htype hdone in
theorem bracketType_tracks (m : Mark) :
    Tracks P P.near done (r.bracketType m) (r'.bracketType (move P.offset P.lines m)) := by
  have hclose : Token.Takes fun t => t.kind == .rightBracket := .kind (by decide)
  have hinsists : Insists (expect .rightBracket) := .expectIf hclose
  refine choice_closed (.kind (by decide)) ?_ ?_ (.choice hclose h.insists.seq)
  · refine .closed h.typeExpr (fun item => ?_) fun _ => hinsists.seq
    exact .seq (expectIf_tracks hclose) fun _ => finished_tracks m fun span => rfl
  refine choice_closed hclose (finished_tracks m fun span => rfl) ?_ h.insists.seq
  refine .closed h.typeExpr (fun first => ?_) fun _ => .at? (.kind (by decide)) hinsists.seq
  refine at?_closed (.kind (by decide)) (fun more => .ite ?_ ?_) hinsists.seq
  · exact .seq (expectIf_tracks hclose) fun _ => finished_tracks m fun span => rfl
  · refine .closed (h.moreTypes_late hclose h.rounds_le) (fun rest => ?_) fun _ => hinsists.seq
    refine .seq (expectIf_tracks hclose) fun _ => finished_tracks m fun span => ?_
    exact congrArg (TypeExpr.tuple _) (TypeExpr.movedAll_eq _ _ (first :: rest)).symm

theorem parensType_tracks (m : Mark) :
    Tracks P P.near done (r.parensType m) (r'.parensType (move P.offset P.lines m)) := by
  have hclose : Token.Takes fun t => t.kind == .rightParen := .kind (by decide)
  have hinsists : Insists (expect .rightParen) := .expectIf hclose
  have hends : Token.Takes fun t => t.kind == .rightParen || t.kind == .ellipsis :=
    .or hclose (.kind (by decide))
  have harrow : ∀ t : Token, t.Parting → (t.kind == .arrow) = false := fun t ht => by
    simpa using ht.kind.1
  refine choice_closed hclose (.seq (expectIf_tracks (.kind (by decide))) fun _ =>
    arrowType_tracks htype hdone m {}) ?_ (.choice (.kind (by decide)) h.insists.seq)
  refine choice_closed (.kind (by decide)) (restArrowType_tracks h htype hdone m {}) ?_ h.insists.seq
  refine .closed h.typeExpr (fun first => ?_) fun _ => .at? (.kind (by decide)) hinsists.seq
  refine at?_closed (.kind (by decide)) (fun more => .ite ?_ ?_) hinsists.seq
  · exact .seq (expectIf_tracks hclose) fun _ => choice_parting (.kind (by decide)) harrow
      (converted_tracks htype hdone m [first]) (finished_tracks m fun span => rfl)
  refine .closed (h.moreTypes_late hends h.rounds_le) (fun rest => ?_)
    fun _ => .choice (.kind (by decide)) hinsists.seq
  refine choice_closed (.kind (by decide)) ?_ ?_ hinsists.seq
  · exact .seq (convertTypeParams_tracks (first :: rest)) fun params =>
      restArrowType_tracks h htype hdone m params
  · refine .seq (expectIf_tracks hclose) fun _ => choice_parting (.kind (by decide)) harrow
      (converted_tracks htype hdone m (first :: rest)) (finished_tracks m fun span => ?_)
    exact congrArg (TypeExpr.union _) (TypeExpr.movedAll_eq _ _ (first :: rest)).symm

/-- What a type begins with is tracked, behind a bar only if a whole type is. -/
theorem typeHead_tracks {barred : Prop} (hbarred : barred → Tracks P P.near done r.typeExpr r'.typeExpr)
    (m : Mark) :
    Tracks P (fun s t => P.Open s t ∧ (s.token.isOperator .bitwiseOr = true → barred)) done
      (r.typeHead m) (r'.typeHead (move P.offset P.lines m)) := by
  have plain : ∀ type : Span → TypeExpr,
      (∀ span, type (span.moved P.offset P.lines) = move P.offset P.lines (type span)) →
      Tracks P P.near done (finish m >>= fun span => pure (type span))
        (finish (move P.offset P.lines m) >>= fun span => pure (type span)) :=
    fun type => finished_tracks m
  have choice : ∀ {condition : Token → Bool} {p p' q q' : Parse TypeExpr}, Token.Takes condition →
      Tracks P P.near done p p' →
      Tracks P (fun s t => P.Open s t ∧ (s.token.isOperator .bitwiseOr = true → barred)) done q q' →
      Tracks P (fun s t => P.Open s t ∧ (s.token.isOperator .bitwiseOr = true → barred)) done
        (consumeIf condition >>= fun found => if found = true then p else q)
        (consumeIf condition >>= fun found => if found = true then p' else q') :=
    fun hc => consumeIf_tracks hc (fun hst => hst.1.1) fun hst => P.same hst.1.1 hst.1.2 hc
  refine choice (.isContextKeyword _) (plain _ fun _ => rfl) ?_
  refine choice (.kind (by decide)) (nameType_tracks htype hdone m) ?_
  refine choice (.isKeyword _) (functionType_tracks h htype hdone m) ?_
  refine choice (.kind (by decide)) (bracketType_tracks h m) ?_
  refine choice (.kind (by decide)) ?_ ?_
  · refine .closed (separatedUntil_late (.kind (by decide)) h.typedIdentifier_late h.rounds_le)
      (fun fields => ?_) fun _ => (Insists.expectIf (.kind (by decide))).seq
    refine .seq (expectIf_tracks (.kind (by decide))) fun _ => finished_tracks m fun span => ?_
    exact congrArg (TypeExpr.record _) (Identifier.movedAll_eq _ _ fields).symm
  refine choice (.kind (by decide)) (parensType_tracks h htype hdone m) ?_
  refine choice (.isKeyword _) (plain _ fun _ => rfl) ?_
  refine choice (.isOperator (by decide)) (plain _ fun _ => rfl) ?_
  refine choice (.isKeyword _) (plain _ fun _ => rfl) ?_
  have hbar : Token.Takes fun t => t.isOperator .bitwiseOr := .isOperator (by decide)
  -- The last choice is the bar.
  constructor
  · rintro s t type u ⟨hopen, hlead⟩ hread hgone
    obtain ⟨found, v, hv, hmore⟩ := bind_ok hread
    rcases consumeIf_inv hv with ⟨rfl, hyes, hnext⟩ | ⟨rfl, -, -⟩
    · have hrest := hbarred (hlead hyes)
      obtain ⟨t', hnext', hnear⟩ := P.next hopen.1 hbar hyes hnext (hrest.kept hmore hgone)
      have hconsume : consumeOperator .bitwiseOr t = .ok true t' :=
        consumeIf_yes (P.same hopen.1 hopen.2 hbar ▸ hyes) hnext'
      rw [bind_of_ok hconsume]
      exact hrest.tracks hnear hmore hgone
    · cases hmore
  · intro s type u hs hread
    obtain ⟨found, v, hv, hmore⟩ := bind_ok hread
    rcases consumeIf_inv hv with ⟨-, hyes, -⟩ | ⟨rfl, -, -⟩
    · rw [hbar.spent hs] at hyes
      cases hyes
    · cases hmore

omit htype hdone in
theorem typeMember_tracks (m : Mark) (base : TypeExpr) :
    Tracks P P.near done (r.typeMember m base)
      (r'.typeMember (move P.offset P.lines m) (move P.offset P.lines base)) := by
  refine choice_parting (.isOperator (by decide)) (fun t ht => ht.less) ?_ ?_
  · refine .seq h.typeArguments_tracks fun arguments => finished_tracks m fun span => ?_
    exact congrArg (TypeExpr.instantiation _ _) (TypeExpr.movedAll_eq _ _ arguments).symm
  · exact .seq (identifierOf_tracks .isWord) fun id => finished_tracks m fun span => rfl

/-- A suffix that is found in the first is found in the second. -/
theorem typeSuffix?_tracks (base : TypeExpr) :
    Tracks P P.Open (fun found u => ∃ type, found = some type ∧ done type u)
      (r.typeSuffix? base) (r'.typeSuffix? (move P.offset P.lines base)) := by
  have hspan : (move P.offset P.lines base).span = base.span.moved P.offset P.lines :=
    TypeExpr.span_moved _ _ _
  have hmark : Mark.ofSpan (move P.offset P.lines base).span =
      move P.offset P.lines (Mark.ofSpan base.span) := by rw [hspan]; rfl
  have moved : ∀ type : TypeExpr, (Mark.ofSpan (move P.offset P.lines base).span).«to»
      (move P.offset P.lines type).span =
        ((Mark.ofSpan base.span).«to» type.span).moved P.offset P.lines := by
    intro type
    rw [hmark, show (move P.offset P.lines type).span = type.span.moved P.offset P.lines from
      TypeExpr.span_moved _ _ _]
    rfl
  -- The type behind a colon or a bar ends the whole type.
  have ended : ∀ {f f' : TypeExpr → TypeExpr}, (∀ type, ¬ (f type).Plain) →
      (∀ type, f' (move P.offset P.lines type) = move P.offset P.lines (f type)) →
      Tracks P P.near (fun found u => ∃ type, found = some type ∧ done type u)
        (r.typeExpr >>= fun type => pure (some (f type)))
        (r'.typeExpr >>= fun type => pure (some (f' type))) := by
    intro f f' hplain hmoved
    refine htype.bind ?_ fun type => .pure (congrArg some (hmoved type))
    intro type u found v hended hread
    cases hread
    exact ⟨_, rfl, hdone (hplain type) hended⟩
  unfold typeSuffix?
  rw [hmark]
  refine choice_open (.kind (by decide)) (finished_tracks _ fun span => rfl) ?_
  refine choice_open (.kind (by decide)) (finished_tracks _ fun span => rfl) ?_
  refine choice_open (.kind (by decide)) ?_ ?_
  · exact .seq (typeMember_tracks h (Mark.ofSpan base.span) base) fun type => .pure rfl
  refine choice_open (.kind (by decide)) (ended (fun _ => id) fun type => ?_) ?_
  · rw [← hmark, moved]
    rfl
  refine choice_open (.isOperator (by decide)) (ended (fun _ => id) fun type => ?_) (.opened (.pure rfl))
  rw [← hmark, moved]
  have hmembers : ∀ type : TypeExpr, (move P.offset P.lines type).unionMembers =
      move P.offset P.lines type.unionMembers := fun type => TypeExpr.unionMembers_moved _ _ type
  rw [hmembers, hmembers]
  show _ = TypeExpr.union _ (TypeExpr.movedAll _ _ _)
  rw [TypeExpr.movedAll_eq]
  simp [Movable.move]

end Arrows

section Whole

theorem typeHead_insists (m : Mark) : Insists (r.typeHead m) :=
  .choice (.isContextKeyword _) <| .choice (.kind (by decide)) <| .choice (.isKeyword _) <|
    .choice (.kind (by decide)) <| .choice (.kind (by decide)) <| .choice (.kind (by decide)) <|
    .choice (.isKeyword _) <| .choice (.isOperator (by decide)) <| .choice (.isKeyword _) <|
    .choice (.isOperator (by decide)) ⟨fun _ hread => by cases hread⟩

theorem typeExprRule_insists : Insists r.typeExprRule := .mark fun m => (typeHead_insists m).seq

variable (h : Follows P r r')
include h

/-- The suffixes of the first are those of the second, as long as something follows. -/
theorem typeSuffixes_late : ∀ {fuel fuel' : Nat}, fuel ≤ fuel' → ∀ base : TypeExpr,
    Tracks P P.near Late (r.typeSuffixes fuel base) (r'.typeSuffixes fuel' (move P.offset P.lines base))
  | 0, _, _, _ => .exhausted
  | fuel + 1, fuel' + 1, hle, base => by
    have hmore := typeSuffixes_late (Nat.le_of_succ_le_succ hle)
    refine .late ((typeSuffix?_tracks h h.typeExpr (fun _ => id) base).bind ?_ fun found => ?_)
    · rintro found u type v ⟨longer, rfl, hlate⟩ hread
      show v.token.Spent
      rw [((hmore longer).stays hlate hread).token]
      exact hlate
    · cases found with
      | none => exact .pure rfl
      | some longer => exact hmore longer

theorem typeExprRule_late : Tracks P P.near Late r.typeExprRule r'.typeExprRule := by
  refine .insisting (mark_tracks fun m => ?_) typeExprRule_insists
  have hhead := typeHead_tracks h h.typeExpr (fun _ => id) (fun _ : True => h.typeExpr) m
  have hbegins : Tracks P P.Open Late (r.typeHead m) (r'.typeHead (move P.offset P.lines m)) :=
    ⟨fun hst => hhead.tracks ⟨hst, fun _ => trivial⟩, hhead.stays⟩
  exact .lately hbegins fun head => h.typeSuffixes_late h.rounds_le head

variable (hover : ∀ {s t : ParserState}, P.near s t → s.token.Spent → t.token.EndsType)
  (htype : Tracks P P.near Never r.typeExpr r'.typeExpr)
include hover htype

/-- Where nothing behind the first goes on with a type, its suffixes are all there are. -/
theorem typeSuffixes_whole : ∀ {fuel fuel' : Nat}, fuel ≤ fuel' → ∀ base : TypeExpr,
    Tracks P P.near Never (r.typeSuffixes fuel base) (r'.typeSuffixes fuel' (move P.offset P.lines base))
  | 0, _, _, _ => .exhausted
  | fuel + 1, fuel' + 1, hle, base => by
    have hmore := typeSuffixes_whole (Nat.le_of_succ_le_succ hle)
    have hopen : Tracks P P.Open Never (r.typeSuffixes (fuel + 1) base)
        (r'.typeSuffixes (fuel' + 1) (move P.offset P.lines base)) := by
      refine (typeSuffix?_tracks h htype (fun _ => id) base).bind ?_ fun found => ?_
      · rintro found u type v ⟨longer, rfl, ⟨⟩⟩
      · cases found with
        | none => exact .pure rfl
        | some longer => exact hmore longer
    refine ⟨fun {s t type u} hst hread hgone => ?_, hopen.stays⟩
    by_cases hspent : s.token.Spent
    · rw [typeSuffixes_over hspent.endsType] at hread
      cases hread
      exact Or.inl ⟨t, typeSuffixes_over (hover hst hspent) fuel' _, hst⟩
    · exact hopen.tracks ⟨hst, hspent⟩ hread hgone

theorem typeExprRule_whole : Tracks P P.near Never r.typeExprRule r'.typeExprRule := by
  refine .insisting (mark_tracks fun m => ?_) typeExprRule_insists
  have hhead := typeHead_tracks h htype (fun _ => id) (fun _ : True => htype) m
  have hbegins : Tracks P P.Open Never (r.typeHead m) (r'.typeHead (move P.offset P.lines m)) :=
    ⟨fun hst => hhead.tracks ⟨hst, fun _ => trivial⟩, hhead.stays⟩
  exact .seq hbegins fun head => typeSuffixes_whole h hover htype h.rounds_le head

end Whole

end Follows

section Levels

/-- The token behind a piece goes on with no type, nor does one that no type takes. -/
theorem endsType_of_near {x : Passage} (hx : x.Followed)
    (hafter : ∀ {t : ParserState}, t.Meets (x.before ++ x.piece) x.after → t.token.EndsType)
    {s t : ParserState} (hst : hx.tandem.near s t) (hspent : s.token.Spent) : t.token.EndsType := by
  rcases hst with halong | hacross | hpast
  · have htoken : t.token = x.moved s.token := halong.token
    rw [htoken]
    exact Token.Spent.endsType hspent
  · obtain ⟨front, count, more, equals, -, -, ht⟩ := hacross.signs.marks
    have hnone := fun {k : TokenKind} (hk : k ∉ [.endOfProgram, .number, .compoundAssignment, .operator]) =>
      (Token.Takes.kind hk).greater ht
    refine ⟨fun hmem => ?_, (Token.Takes.isOperator (by decide)).greater ht⟩
    have hclosed : ∀ k ∈ [TokenKind.questionMark, .exclamationMark, .dot, .colon],
        k ∉ [TokenKind.endOfProgram, .number, .compoundAssignment, .operator] := by decide
    have hkind := hnone (hclosed _ hmem)
    exact absurd (beq_self_eq_true _) (Bool.eq_false_iff.mp hkind)
  · exact hafter hpast.meets

variable (host : Host) {n n' : Nat}

/-- The types of one level are tracked by those of any level above. -/
theorem level_follows (P : Tandem) : ∀ {n n' : Nat}, n ≤ n' → Follows P (host.level n) (host.level n')
  | 0, _, _ => ⟨Nat.zero_le _, .exhausted, .exhausted⟩
  | _ + 1, _ + 1, hle =>
    ⟨hle, (level_follows P (Nat.le_of_succ_le_succ hle)).typeExprRule_late, Follows.typeExprRule_insists⟩

/-- They are tracked to their end where nothing behind it goes on with a type. -/
theorem level_typeExpr_whole
    (hover : ∀ {s t : ParserState}, P.near s t → s.token.Spent → t.token.EndsType) :
    ∀ {n n' : Nat}, n ≤ n' →
      Tracks P P.near Never (host.level n).typeExpr (host.level n').typeExpr
  | 0, _, _ => .exhausted
  | _ + 1, _ + 1, hle =>
    have hle := Nat.le_of_succ_le_succ hle
    (level_follows host P hle).typeExprRule_whole hover (level_typeExpr_whole hover hle)

end Levels

end Tandem

end ActionSyntax
