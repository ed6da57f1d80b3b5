import ActionSyntax.Proofs.FunctionUses

/-!
Legal trees. Every definition is checked when it has been read, in the surroundings that it has in the
tree, and a definition that is not legal leaves an error in the script.
-/

namespace ActionSyntax

set_option autoImplicit false

/-- A jump may stand anywhere, as far as definitions are concerned. -/
theorem Statement.LegalIn.jump {jump : Statement} (h : jump.isJump = true) (around : Situation) :
    jump.LegalIn around := by
  cases jump <;> trivial

/-- All statements that are built are legal where they stand, if the script is still valid. -/
theorem BuildsIn.legal {lossy : Prop} {c a : Bool} {s t : ParserState} {ps : List Piece}
    (h : BuildsIn lossy c a s ps t) (hvalid : t.script.isValid = true) {around : Situation}
    {statement : Statement} (hamong : Piece.Among true ps (.statement around statement)) :
    statement.LegalIn around := by
  induction h with
  | refl | next | regular | split | report => exact (Piece.among_nil hamong).elim
  | weaken _ ih | anywhere _ _ ih => exact ih hvalid hamong
  | seq _ h' ih ih' =>
    rcases Piece.among_append.mp hamong with hamong | hamong
    · exact ih (h'.grows.valid hvalid) hamong
    · exact ih' hvalid hamong
  | rework _ reworks ih => exact ih hvalid ((reworks.among true _ rfl).mp hamong)
  | lose _ sub _ ih => exact ih hvalid (hamong.mono sub)
  | node _ _ _ _ legal _ ih =>
    rcases Piece.among_cons.mp hamong with ⟨-, rfl | hchild⟩ | hother
    · exact legal hvalid
    · exact ih hvalid (Piece.among_append.mpr (Or.inl hchild))
    · exact ih hvalid (Piece.among_append.mpr (Or.inr hother))
  | functionType => exact (Piece.not_among_typal (Piece.isTypal_type _) rfl hamong).elim
  | front _ note ih =>
    rcases Piece.among_cons.mp hamong with ⟨-, heq | hchild⟩ | hnil
    · cases heq
    · exact ih ((Rules.noteUse_grows note).valid hvalid) hchild
    · exact (Piece.among_nil hnil).elim
  | jump _ isJump =>
    obtain ⟨rfl, rfl⟩ := Piece.statement.inj ((Piece.among_jump isJump).mp hamong)
    exact .jump isJump _
  | @superCall c s t u _ _ _ closed ih =>
    rcases Piece.among_cons.mp hamong with ⟨-, heq | hchild⟩ | hnil
    · cases heq
      trivial
    · exact ih (closed.grows.valid ((u.afterSuper_keeps c _).1.valid hvalid)) hchild
    · exact (Piece.among_nil hnil).elim
  | element _ _ _ _ _ _ _ _ _ ih | block _ _ ih | body _ ih =>
    rcases Piece.among_cons.mp hamong with ⟨-, heq | hchild⟩ | hnil
    · cases heq
    · exact ih hvalid hchild
    · exact (Piece.among_nil hnil).elim
  | included =>
    rcases Piece.among_cons.mp hamong with ⟨-, heq | hchild⟩ | hnil
    · cases heq
      trivial
    · exact (Piece.among_nil hchild).elim
    · exact (Piece.among_nil hnil).elim

/-- Wherever a definition stands in a program that is read, it is legal there. If nothing is included,
what a function is not kept to use does not stand in its body. -/
theorem parseProgram_legal {p q : Parser} {program : Program}
    (h : p.parseProgram = (some program, q)) :
    (∀ around s, (Piece.program program).Holds true (.statement around s) → s.LegalIn around) ∧
    (q.script.included = [] → ∀ f, (Piece.program program).Holds true (.function f) →
      (Uses (f.body.toList.map FunctionBody.piece) .await → f.usesAwait = true) ∧
      (Uses (f.body.toList.map FunctionBody.piece) .yield → f.usesYield = true)) := by
  have hcall : p.call .program = (some (.program program), q) := by
    show p.parseProgram.map _ _ = _
    rw [h]
    rfl
  obtain ⟨-, hread, hvalid⟩ := Parser.call_some hcall
  have htree := Entry.read_ok hread
  constructor
  · intro around s hs
    cases htree with
    | node hbuilds => exact hbuilds.legal hvalid ⟨_, List.mem_cons_self, rfl, hs⟩
    | empty => simp [Piece.holds_iff, Piece.children] at hs
  · intro hwhole f hf
    obtain ⟨hnoted, -⟩ := htree.bodies hvalid (fun _ => hwhole) hf
    exact ⟨hnoted .await (Or.inl rfl), hnoted .yield (Or.inr rfl)⟩

/-- A native method, found as the only statement of the only class. -/
theorem Program.native_of_found {answer : Option Program} (h : (match answer with
    | some ⟨_, _, [.classDef _ _ _ _ _ _ _ _ ⟨_, [.functionDef _ a _ _ _]⟩]⟩ => a.modifiers.native
    | _ => false) = true) :
    ∃ program span name a id generics f, answer = some program ∧
      (Piece.program program).Holds true
        (.statement ⟨.class name, []⟩ (.functionDef span a id generics f)) ∧
      a.modifiers.native = true := by
  split at h
  · rename_i name _ _ _ _ _ _ span a id generics f
    refine ⟨_, span, name.name, a, id, generics, f, rfl, ?_, h⟩
    refine .inside (List.mem_append_right _ List.mem_cons_self) rfl ?_
    refine .inside (List.mem_append_right _ List.mem_cons_self) rfl ?_
    exact .inside List.mem_cons_self rfl (.self _)
  · cases h

/-- A native method of a class has no body. -/
theorem parseProgram_legal_native :
    let p := Parser.ofScript (Host.ofFiles []) (Script.ofSource "/m.es"
      "class C \x7b native function f(); \x7d")
    ∃ program q span name a id generics f, p.parseProgram = (some program, q) ∧
      (Piece.program program).Holds true
        (.statement ⟨.class name, []⟩ (.functionDef span a id generics f)) ∧
      a.modifiers.native = true ∧ f.body.isSome = false := by
  intro p
  obtain ⟨program, span, name, a, id, generics, f, hanswer, hholds, hnative⟩ :=
    @Program.native_of_found p.parseProgram.1 (by decide +kernel)
  cases hread : p.parseProgram with
  | mk answer q =>
    rw [hread] at hanswer
    obtain rfl : answer = some program := hanswer
    have hlegal := (parseProgram_legal hread).1 _ _ hholds
    have hbodied : f.body.isSome = !a.modifiers.native := hlegal.bodied (by rintro ⟨⟩)
    rw [hnative] at hbodied
    exact ⟨program, q, span, name, a, id, generics, f, rfl, hholds, hnative, hbodied⟩

end ActionSyntax
