import ActionSyntax.Proofs.Building.Levels

/-!
What functions have been seen to use. While a tree is built, every `await` and `yield` is noted on the
innermost function, so that the flags of a function come to tell what stands in its body.
-/

namespace ActionSyntax

set_option autoImplicit false

namespace FunctionUse

/-- Whether the use of an operator has been seen. -/
def has (use : FunctionUse) : Operator → Bool
  | .await => use.usesAwait
  | .yield => use.usesYield
  | _ => false

@[simp] theorem has_await (use : FunctionUse) : use.has .await = use.usesAwait := rfl

@[simp] theorem has_yield (use : FunctionUse) : use.has .yield = use.usesYield := rfl

/-- The operators whose use is noted. -/
def Noted (op : Operator) : Prop := op = .await ∨ op = .yield

theorem noted_of_has {use : FunctionUse} {op : Operator} (h : use.has op = true) : Noted op := by
  unfold has at h
  split at h
  · exact Or.inl rfl
  · exact Or.inr rfl
  · cases h

@[simp] theorem has_empty (op : Operator) : ({} : FunctionUse).has op = false := by
  unfold has
  split <;> rfl

theorem has_noting {use : FunctionUse} {op other : Operator} :
    (use.noting op).has other = true ↔ use.has other = true ∨ (Noted other ∧ other = op) := by
  constructor
  · intro h
    have hnoted := noted_of_has h
    by_cases heq : other = op
    · exact Or.inr ⟨hnoted, heq⟩
    · left
      unfold noting at h
      rcases hnoted with rfl | rfl
      all_goals
        split at h
        all_goals first | exact h | exact (heq rfl).elim
  · rintro (h | ⟨rfl | rfl, rfl⟩)
    · unfold noting
      rcases noted_of_has h with rfl | rfl
      all_goals split <;> first | exact h | rfl
    · rfl
    · rfl

/-- Not both are used. -/
def Single (use : FunctionUse) : Prop := ¬ (use.usesAwait = true ∧ use.usesYield = true)

theorem Single.noting {use : FunctionUse} {op : Operator} (h : use.Single)
    (hawait : op = .await → use.usesYield = false) (hyield : op = .yield → use.usesAwait = false) :
    (use.noting op).Single := by
  unfold FunctionUse.noting
  split
  · rintro ⟨-, hy⟩
    exact absurd hy (by simp [hawait rfl])
  · rintro ⟨ha, -⟩
    exact absurd ha (by simp [hyield rfl])
  · exact h

end FunctionUse

open FunctionUse (Noted)

section Uses

/-- The operator stands in front of an expression somewhere in the pieces, outside of the bodies that
stand in them. -/
def Uses (ps : List Piece) (op : Operator) : Prop :=
  ∃ span operand, Piece.Among false ps (.expr (.unary span op operand))

variable {ps qs : List Piece} {p : Piece} {op : Operator}

@[simp] theorem uses_nil : ¬ Uses [] op := by simp [Uses]

@[simp] theorem uses_append : Uses (ps ++ qs) op ↔ Uses ps op ∨ Uses qs op := by
  simp [Uses, exists_or]

@[simp] theorem uses_body {use : FunctionUse} {b : Option FunctionBody} :
    ¬ Uses [.body use b] op := by simp [Uses, Piece.entered]

theorem Uses.mono (h : Uses ps op) (hsub : ps ⊆ qs) : Uses qs op := by
  obtain ⟨span, operand, hamong⟩ := h
  exact ⟨span, operand, hamong.mono hsub⟩

theorem Reworks.uses (h : Reworks ps qs) : Uses qs op ↔ Uses ps op := by
  exact exists_congr fun span => exists_congr fun operand => h.among false _ rfl

theorem uses_typal (h : ∀ p ∈ ps, p.isTypal = true) (op : Operator) : ¬ Uses ps op :=
  fun ⟨_, _, hamong⟩ => Piece.not_among_typal h rfl hamong

/-- What stands in a plain node stands in its children. -/
theorem uses_plain (h : p.isPlain = true) (hop : Noted op) :
    Uses (p :: ps) op ↔ Uses (p.children ++ ps) op := by
  have hself : ∀ span operand, Piece.expr (.unary span op operand) ≠ p := by
    rintro span operand rfl
    rcases hop with rfl | rfl <;> cases h
  simp [Uses, Piece.entered_of_isPlain h, hself]

theorem uses_element {e : Expr} {opening ending : List Token} {attributes : List NodeAttribute}
    {children : List Expr} (h : e.Element opening attributes children ending) :
    Uses [.expr e] op ↔ Uses (Piece.expr e).children op := by
  have hself : ∀ span operand, Expr.unary span op operand ≠ e := by
    rintro span operand rfl
    cases h
  simp [Uses, Piece.entered, hself]

theorem uses_front {span : Span} {operator : Operator} {operand : Expr} :
    Uses [.expr (.unary span operator operand)] op ↔ op = operator ∨ Uses [.expr operand] op := by
  constructor
  · rintro ⟨span', operand', hamong⟩
    simp only [Piece.among_cons, Piece.among_nil, or_false] at hamong
    obtain ⟨-, heq | hchild⟩ := hamong
    · cases heq
      exact Or.inl rfl
    · exact Or.inr ⟨span', operand', hchild⟩
  · rintro (rfl | ⟨span', operand', hchild⟩)
    · exact ⟨span, operand, by simp [Piece.entered]⟩
    · refine ⟨span', operand', ?_⟩
      simp only [Piece.among_cons, Piece.among_nil, or_false]
      exact ⟨rfl, Or.inr hchild⟩

end Uses

/-- What has been seen grows by what stands among the pieces. If none is lost, it grows by no more. -/
structure FunctionUse.Sees (lossy : Prop) (ps : List Piece) (use seen : FunctionUse) : Prop where
  noted : ∀ op, Noted op → use.has op = true ∨ Uses ps op → seen.has op = true
  only : ¬ lossy → ∀ op, seen.has op = true → use.has op = true ∨ Uses ps op
  single : use.Single → seen.Single

/-- The innermost function sees what stands among the pieces. Outside of all functions nothing
yields. -/
inductive Notes (lossy : Prop) (ps : List Piece) : List FunctionUse → List FunctionUse → Prop
  | outside (yield : ¬ Uses ps .yield) : Notes lossy ps [] []
  | inside {use seen : FunctionUse} {outer : List FunctionUse} (sees : use.Sees lossy ps seen) :
      Notes lossy ps (use :: outer) (seen :: outer)

namespace Notes

variable {lossy : Prop} {ps qs : List Piece} {f g h : List FunctionUse}

/-- Nothing is noted where nothing stands. -/
theorem none (hnone : ∀ op, ¬ Uses ps op) (f : List FunctionUse) : Notes lossy ps f f := by
  cases f with
  | nil => exact .outside (hnone _)
  | cons use outer =>
    refine .inside ⟨?_, fun _ op h => Or.inl h, id⟩
    rintro op - (h | h)
    · exact h
    · exact (hnone op h).elim

theorem append (hfg : Notes lossy ps f g) (hgh : Notes lossy qs g h) : Notes lossy (ps ++ qs) f h := by
  cases hfg with
  | outside yield =>
    cases hgh with
    | outside yield' => exact .outside (by simp [yield, yield'])
  | inside sees =>
    cases hgh with
    | inside sees' =>
      refine .inside ⟨?_, ?_, sees'.single ∘ sees.single⟩
      · rintro op hop (hbefore | hamong)
        · exact sees'.noted op hop (Or.inl (sees.noted op hop (Or.inl hbefore)))
        · rcases uses_append.mp hamong with hfirst | hsecond
          · exact sees'.noted op hop (Or.inl (sees.noted op hop (Or.inr hfirst)))
          · exact sees'.noted op hop (Or.inr hsecond)
      · intro hlossy op hseen
        rw [uses_append]
        rcases sees'.only hlossy op hseen with hmid | hsecond
        · exact (sees.only hlossy op hmid).imp_right Or.inl
        · exact Or.inr (Or.inr hsecond)

/-- Only what is used among the pieces counts. -/
theorem congr (hfg : Notes lossy ps f g) (h : ∀ op, Noted op → (Uses qs op ↔ Uses ps op)) :
    Notes lossy qs f g := by
  cases hfg with
  | outside yield => exact .outside ((h .yield (Or.inr rfl)).not.mpr yield)
  | inside sees =>
    refine .inside ⟨fun op hop hqs => ?_, fun hlossy op hseen => ?_, sees.single⟩
    · exact sees.noted op hop (hqs.imp_right (h op hop).mp)
    · exact (sees.only hlossy op hseen).imp_right (h op (FunctionUse.noted_of_has hseen)).mpr

/-- Some pieces get lost. -/
theorem lose (hfg : Notes lossy ps f g) (hsub : qs ⊆ ps) (hlossy : lossy) : Notes lossy qs f g := by
  cases hfg with
  | outside yield => exact .outside fun h => yield (h.mono hsub)
  | inside sees =>
    refine .inside ⟨fun op hop hqs => ?_, fun hnot => (hnot hlossy).elim, sees.single⟩
    exact sees.noted op hop (hqs.imp_right (Uses.mono · hsub))

/-- An operator is noted where it may be used. -/
theorem front {t : ParserState} {span : Span} {op : Operator} {operand : Expr}
    (hfg : Notes lossy [.expr operand] f t.functions) (hadmits : t.Admits op) :
    Notes lossy [.expr (.unary span op operand)] f (t.noting op).functions := by
  obtain ⟨hawait, hyield⟩ := hadmits
  show Notes lossy _ f (t.functions.modifyHead (·.noting op))
  generalize t.functions = g at *
  cases hfg with
  | outside yield =>
    refine .outside fun huse => ?_
    rcases uses_front.mp huse with rfl | huse
    · obtain ⟨use, huse, -⟩ := hyield rfl
      cases huse
    · exact yield huse
  | @inside use seen outer sees =>
    refine .inside ⟨?_, ?_, fun hsingle => ?_⟩
    · rintro other hother huse
      rw [FunctionUse.has_noting]
      rw [uses_front] at huse
      rcases huse with hbefore | rfl | huse
      · exact Or.inl (sees.noted other hother (Or.inl hbefore))
      · exact Or.inr ⟨hother, rfl⟩
      · exact Or.inl (sees.noted other hother (Or.inr huse))
    · intro hlossy other hseen
      rw [uses_front]
      rcases FunctionUse.has_noting.mp hseen with hseen | ⟨-, rfl⟩
      · exact (sees.only hlossy other hseen).imp_right Or.inr
      · exact Or.inr (Or.inl rfl)
    · refine (sees.single hsingle).noting (fun heq => hawait heq seen rfl) fun heq => ?_
      obtain ⟨_, ⟨⟩, hnone⟩ := hyield heq
      exact hnone

end Notes

/-- What is kept of a body tells what stands in it. If pieces may get lost, something may be kept that
does not stand there. -/
structure BodyTold (lossy : Prop) (use : FunctionUse) (b : Option FunctionBody) : Prop where
  noted : ∀ op, Noted op → Uses (b.toList.map FunctionBody.piece) op → use.has op = true
  only : ¬ lossy → ∀ op, use.has op = true → Uses (b.toList.map FunctionBody.piece) op
  single : use.Single

namespace BuildsIn

variable {lossy : Prop} {c a : Bool} {s t : ParserState} {ps : List Piece}

/-- What has been included stays included. -/
theorem included_subset (h : BuildsIn lossy c a s ps t) : s.script.included ⊆ t.script.included := by
  induction h with
  | refl | report | split => exact fun _ => id
  | @next _ s => exact fun child hc => s.scanner.next_included ▸ hc
  | @regular _ s => exact fun child hc => s.scanner.readRegularExpression_included ▸ hc
  | seq _ _ ih ih' => exact fun _ hc => ih' (ih hc)
  | weaken _ ih | anywhere _ _ ih | rework _ _ ih | lose _ _ _ ih => exact ih
  | node _ _ _ _ _ _ ih | element _ _ _ _ _ _ _ _ _ ih | functionType _ ih | block _ _ ih
  | body _ ih => exact ih
  | front _ note ih =>
    rcases Rules.noteUse_ok note with ⟨p, rfl, -⟩ | ⟨-, rfl⟩
    · exact ih
    · exact ih
  | @jump _ s t around jump _ _ _ ih => exact (t.afterJump_keeps around jump).2.1 ▸ ih
  | @superCall c s t u _ _ _ _ ih ih' =>
    exact fun child hc => (u.afterSuper_keeps c _).2.1 ▸ ih' (ih hc)
  | included _ _ _ _ ih => exact fun child hc => List.mem_append_left _ (ih hc)

/-- If nothing is included in the end, the functions around have seen what has been built, and what is
kept of every body tells what stands in it. -/
theorem notes (h : BuildsIn lossy c a s ps t) (hvalid : t.script.isValid = true)
    (hwhole : lossy → t.script.included = []) :
    Notes lossy ps s.functions t.functions ∧
      ∀ use b, Piece.Among true ps (.body use b) → BodyTold lossy use b := by
  induction h with
  | refl | next | regular | split | report =>
    exact ⟨.none (fun _ => uses_nil) _, fun _ _ h => (Piece.among_nil h).elim⟩
  | weaken _ ih | anywhere _ _ ih => exact ih hvalid hwhole
  | seq _ h' ih ih' =>
    have hbefore : lossy → _ := fun hl =>
      List.eq_nil_of_subset_nil (hwhole hl ▸ h'.included_subset)
    obtain ⟨hnotes, hbodies⟩ := ih (h'.grows.valid hvalid) hbefore
    obtain ⟨hnotes', hbodies'⟩ := ih' hvalid hwhole
    refine ⟨hnotes.append hnotes', fun use b hamong => ?_⟩
    rcases Piece.among_append.mp hamong with hamong | hamong
    · exact hbodies use b hamong
    · exact hbodies' use b hamong
  | rework _ reworks ih =>
    obtain ⟨hnotes, hbodies⟩ := ih hvalid hwhole
    refine ⟨hnotes.congr fun _ _ => reworks.uses, fun use b hamong => ?_⟩
    exact hbodies use b ((reworks.among true _ rfl).mp hamong)
  | lose _ sub why ih =>
    obtain ⟨hnotes, hbodies⟩ := ih hvalid hwhole
    have hlossy : lossy := why.resolve_right fun drops => by simp [drops.invalid] at hvalid
    exact ⟨hnotes.lose sub hlossy, fun use b hamong => hbodies use b (hamong.mono sub)⟩
  | @node _ s t p others _ plain _ _ _ _ ih =>
    obtain ⟨hnotes, hbodies⟩ := ih hvalid hwhole
    refine ⟨hnotes.congr fun _ hop => uses_plain plain hop, fun use b hamong => ?_⟩
    refine hbodies use b ?_
    rcases Piece.among_cons.mp hamong with ⟨-, rfl | hchild⟩ | hother
    · cases plain
    · exact Piece.among_append.mpr (Or.inl hchild)
    · exact Piece.among_append.mpr (Or.inr hother)
  | element _ _ made _ _ _ _ _ _ ih =>
    obtain ⟨hnotes, hbodies⟩ := ih hvalid hwhole
    refine ⟨hnotes.congr fun _ _ => uses_element made, fun use b hamong => hbodies use b ?_⟩
    simpa [Piece.entered] using hamong
  | functionType _ ih =>
    obtain ⟨hnotes, -⟩ := ih hvalid hwhole
    refine ⟨hnotes.congr fun op _ => iff_of_false (uses_typal (Piece.isTypal_type _) op)
      (uses_typal (Piece.isTypal_parameters _ _) op), fun use b hamong => ?_⟩
    exact (Piece.not_among_typal (Piece.isTypal_type _) rfl hamong).elim
  | @front s t u op operand _ note ih =>
    rcases Rules.noteUse_ok note with ⟨p, rfl, herror, -⟩ | ⟨hadmits, rfl⟩
    · cases hvalid.symm.trans (t.script.collect_invalid herror)
    obtain ⟨hnotes, hbodies⟩ := ih hvalid hwhole
    refine ⟨hnotes.front hadmits, fun use b hamong => hbodies use b ?_⟩
    rcases Piece.among_cons.mp hamong with ⟨-, heq | hchild⟩ | hnil
    · cases heq
    · exact hchild
    · exact (Piece.among_nil hnil).elim
  | @superCall c s t u around arguments _ closed ih ih' =>
    obtain ⟨hgrows, hincluded, hfunctions⟩ := u.afterSuper_keeps c (s.token.span.«to» u.previous.span)
    have hbefore := hgrows.valid hvalid
    have hwhole : lossy → u.script.included = [] := fun hl => hincluded ▸ hwhole hl
    obtain ⟨hnotes, hbodies⟩ := ih (closed.grows.valid hbefore)
      fun hl => List.eq_nil_of_subset_nil (hwhole hl ▸ closed.included_subset)
    obtain ⟨hclosed, -⟩ := ih' hbefore hwhole
    rw [hfunctions]
    refine ⟨(hnotes.append hclosed).congr fun op hop => ?_, fun use b hamong => hbodies use b ?_⟩
    · simp [Uses, Piece.entered, Piece.children, Statement.children]
    · simpa [Piece.entered, Piece.children, Statement.children] using hamong
  | @block _ s t around block _ _ ih =>
    obtain ⟨hnotes, hbodies⟩ := ih hvalid hwhole
    refine ⟨hnotes.congr fun op _ => ?_, fun use b hamong => hbodies use b ?_⟩
    · simp [Uses, Piece.entered, Piece.children]
    · simpa [Piece.entered, Piece.children] using hamong
  | @jump _ s t around jump _ isJump _ ih =>
    obtain ⟨hgrows, hincluded, hfunctions⟩ := t.afterJump_keeps around jump
    obtain ⟨hnotes, -⟩ := ih (hgrows.valid hvalid) (hincluded ▸ hwhole)
    rw [hfunctions]
    refine ⟨hnotes.congr fun op _ => iff_of_false ?_ uses_nil, fun use b hamong => ?_⟩
    · rintro ⟨_, _, hamong⟩
      cases (Piece.among_jump isJump).mp hamong
    · cases (Piece.among_jump isJump).mp hamong
  | @body _ a s t body _ ih =>
    obtain ⟨hnotes, hbodies⟩ := ih hvalid hwhole
    have hinside : Notes lossy _ ({} :: s.functions) t.functions := hnotes
    show Notes lossy _ s.functions t.functions.tail ∧ _
    generalize t.functions = behind at *
    cases hinside with
    | @inside _ seen _ sees =>
      refine ⟨.none (fun _ => uses_body) _, fun use b hamong => ?_⟩
      rcases Piece.among_cons.mp hamong with ⟨-, heq | hchild⟩ | hnil
      · cases heq
        refine ⟨fun op hop huse => sees.noted op hop (Or.inr huse), fun hlossy op hseen => ?_,
          sees.single (by rintro ⟨⟨⟩, -⟩)⟩
        exact (sees.only hlossy op hseen).resolve_left fun h => by simp at h
      · exact hbodies use b hchild
      · exact (Piece.among_nil hnil).elim
  | included may => cases (List.append_eq_nil_iff.mp (hwhole may)).2

end BuildsIn

/-- What is kept of every function in the tree tells what stands in its body. -/
theorem TreeRead.bodies {lossy : Prop} {s t : ParserState} {tree : Tree} (h : TreeRead lossy s tree t)
    (hvalid : t.script.isValid = true) (hwhole : lossy → t.script.included = [])
    {f : FunctionCommon} (hf : tree.piece.Holds true (.function f)) : BodyTold lossy f.use f.body := by
  have hbody : tree.piece.Holds true (.body f.use f.body) :=
    hf.trans (.inside (List.mem_append_right _ List.mem_cons_self) rfl (.self _))
  cases h with
  | node h =>
    refine (h.notes hvalid hwhole).2 _ _ ⟨_, List.mem_cons_self, ?_, hbody⟩
    cases tree <;> rfl
  | empty => simp [Tree.piece, Piece.holds_iff, Piece.children] at hbody

/-- A function uses `await` or `yield` just when one stands in its body, outside of the bodies of
functions there, and never both. Outside of all functions nothing yields. -/
theorem call_uses {host : Host} {path source : String} {entry : Entry} {tree : Tree} {q : Parser}
    (h : (Parser.ofScript host (Script.ofSource path source)).call entry = (some tree, q))
    (hstrict : (Parser.ofScript host (Script.ofSource path source)).ReadsStrictly entry) :
    (∀ f, tree.piece.Holds true (.function f) →
      (f.usesAwait = true ↔ Uses (f.body.toList.map FunctionBody.piece) .await) ∧
      (f.usesYield = true ↔ Uses (f.body.toList.map FunctionBody.piece) .yield) ∧
      ¬ (f.usesAwait = true ∧ f.usesYield = true)) ∧
    ¬ Uses [tree.piece] .yield := by
  obtain ⟨-, hread, hvalid⟩ := Parser.call_some h
  have htree := hstrict.treeRead hread
  constructor
  · intro f hf
    obtain ⟨hnoted, honly, hsingle⟩ := htree.bodies hvalid False.elim hf
    refine ⟨⟨honly id .await, hnoted .await (Or.inl rfl)⟩, ⟨honly id .yield, hnoted .yield (Or.inr rfl)⟩,
      hsingle⟩
  · cases htree with
    | node hbuilds =>
      have hnotes := (hbuilds.notes hvalid False.elim).1
      rw [Parser.ofScript_state] at hnotes
      have houtside : Notes False _ [] q.state.functions := hnotes
      generalize q.state.functions = behind at houtside
      cases houtside with
      | outside yield => exact yield
    | empty => simp [Uses, Tree.piece, Piece.children]

/-- A function that awaits and does not yield, found as the only statement. -/
theorem Tree.awaiting_of_found {answer : Option Tree} (h : (match answer with
    | some (.program ⟨_, _, [.functionDef _ _ _ _ f]⟩) => f.usesAwait && !f.usesYield
    | _ => false) = true) :
    ∃ tree f, answer = some tree ∧ tree.piece.Holds true (.function f) ∧ f.usesAwait = true ∧
      f.usesYield = false := by
  split at h
  · obtain ⟨hawait, hyield⟩ := (Bool.and_eq_true _ _).mp h
    refine ⟨_, _, rfl, ?_, hawait, Bool.not_eq_true' _ ▸ hyield⟩
    refine .inside (List.mem_append_right _ List.mem_cons_self) rfl ?_
    exact .inside (List.mem_append_right _ List.mem_cons_self) rfl (.self _)
  · cases h

/-- A function that awaits, with one inside that yields. -/
theorem call_uses_nested :
    let p := Parser.ofScript (Host.ofFiles []) (Script.ofSource "/m.es"
      "function f() \x7b await a; function g() \x7b yield x \x7d \x7d")
    ∃ tree q f, p.call .program = (some tree, q) ∧ tree.piece.Holds true (.function f) ∧
      Uses (f.body.toList.map FunctionBody.piece) .await ∧
      ¬ Uses (f.body.toList.map FunctionBody.piece) .yield := by
  intro p
  have hstrict : p.ReadsStrictly .program := .of_ok (by decide +kernel)
  obtain ⟨tree, f, hanswer, hf, hawait, hyield⟩ :=
    @Tree.awaiting_of_found (p.call .program).1 (by decide +kernel)
  cases hcall : p.call .program with
  | mk answer q =>
    rw [hcall] at hanswer
    obtain rfl : answer = some tree := hanswer
    obtain ⟨hawaits, hyields, -⟩ := (call_uses hcall hstrict).1 f hf
    refine ⟨tree, q, f, rfl, hf, hawaits.mp hawait, fun huse => ?_⟩
    exact Bool.false_ne_true (hyield.symm.trans (hyields.mpr huse))

end ActionSyntax
