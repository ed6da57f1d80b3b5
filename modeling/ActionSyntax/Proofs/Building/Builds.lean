import ActionSyntax.Proofs.Pieces.Reworks
import ActionSyntax.Proofs.Pieces.Standing
import ActionSyntax.Proofs.Pieces.Tags
import ActionSyntax.Proofs.Reads.Statements

/-!
How pieces of a tree come about. From one state to another tokens are consumed, and the pieces are
built of what has been built since the node was begun. What a node is made of, where it begins and
ends, and what has been checked of it are said once here; what follows for whole trees follows by
induction.
-/

namespace ActionSyntax

set_option autoImplicit false

/-- Nothing but the check of definitions goes with the building of the piece. Jumps, `await` and
`yield`, calls of the super constructor, blocks, bodies, inclusions and nodes that a tag closes are told
from all others. -/
def Piece.isPlain : Piece → Bool
  | .block .. | .body .. => false
  | .statement _ (.superCall ..) => false
  | .statement _ (.includeSource ..) => false
  | .statement _ s => !s.isJump
  | .expr (.unary _ op _) => op != .await && op != .yield
  | p => !p.isElement

theorem Piece.entered_of_isPlain {p : Piece} (h : p.isPlain = true) (deep : Bool) :
    p.entered deep = true := by
  cases p with
  | body => cases h
  | _ => rfl

/-- Whether the block of a constructor is read where the children of a piece are, if it is read so where
the piece itself is. -/
@[simp] def Piece.bearing (constructor : Bool) : Piece → Bool
  | .statement _ (.constructorDef ..) => true
  | .function _ | .body .. => constructor
  | _ => false

/-- It makes no difference to the piece whether it stands in a constructor. -/
def Piece.isInert : Piece → Bool
  | .block .. | .body .. | .function _ => false
  | .statement _ (.superCall ..) => false
  | _ => true

/-- A parameter has been dropped, and that has been reported. -/
structure ParserState.Drops (s : ParserState) : Prop where
  reported : ∃ p ∈ s.script.problems, p.id = .invalidArrowFunctionParam
  invalid : s.script.isValid = false

/-- The state behind a jump, which is reported if it has no target. -/
def ParserState.afterJump (s : ParserState) (around : Situation) (jump : Statement) : ParserState :=
  match jump.jumpProblem? around with
  | none => s
  | some p => s.collect p

theorem ParserState.afterJump_cases (s : ParserState) (around : Situation) (jump : Statement) :
    (jump.jumpProblem? around = none ∧ s.afterJump around jump = s) ∨
      ∃ p, jump.jumpProblem? around = some p ∧ s.afterJump around jump = s.collect p := by
  unfold afterJump
  cases jump.jumpProblem? around with
  | none => exact Or.inl ⟨rfl, rfl⟩
  | some p => exact Or.inr ⟨p, rfl, rfl⟩

/-- Nothing but its problem is new behind a jump. -/
theorem ParserState.afterJump_keeps (s : ParserState) (around : Situation) (jump : Statement) :
    s.script.Grows (s.afterJump around jump).script ∧
      (s.afterJump around jump).script.included = s.script.included ∧
      (s.afterJump around jump).functions = s.functions := by
  rcases s.afterJump_cases around jump with ⟨-, ht⟩ | ⟨p, -, ht⟩
  · rw [ht]
    exact ⟨.refl _, rfl, rfl⟩
  · rw [ht]
    exact ⟨.collect _ p, rfl, rfl⟩

/-- Nothing stands in a jump. -/
theorem Statement.isJump_children {jump : Statement} (h : jump.isJump = true) (around : Situation) :
    jump.children around = [] := by
  cases jump <;> first | rfl | cases h

theorem Piece.among_jump {jump : Statement} (h : jump.isJump = true) {around : Situation} {deep : Bool}
    {q : Piece} : Among deep [.statement around jump] q ↔ q = .statement around jump := by
  simp [entered, children, jump.isJump_children h around]

/-- The problem with a call of the super constructor that may not stand where it does. -/
def Statement.superProblem (span : Span) : Problem where
  id := .unexpectedSuperStatement
  severity := .syntaxError
  span

/-- The state behind a call of the super constructor, which is reported unless it is the first one in
the block of a constructor. -/
def ParserState.afterSuper (s : ParserState) (constructor : Bool) (span : Span) : ParserState :=
  if constructor && !s.superFound then { s with superFound := true }
  else s.collect (Statement.superProblem span)

theorem ParserState.afterSuper_cases (s : ParserState) (constructor : Bool) (span : Span) :
    ((constructor && !s.superFound) = true ∧
      s.afterSuper constructor span = { s with superFound := true }) ∨
    ((constructor && !s.superFound) = false ∧
      s.afterSuper constructor span = s.collect (Statement.superProblem span)) := by
  unfold afterSuper
  cases constructor && !s.superFound with
  | true => exact Or.inl ⟨rfl, rfl⟩
  | false => exact Or.inr ⟨rfl, rfl⟩

/-- Nothing but its problem is new behind a call of the super constructor. -/
theorem ParserState.afterSuper_keeps (s : ParserState) (constructor : Bool) (span : Span) :
    s.script.Grows (s.afterSuper constructor span).script ∧
      (s.afterSuper constructor span).script.included = s.script.included ∧
      (s.afterSuper constructor span).functions = s.functions := by
  rcases s.afterSuper_cases constructor span with ⟨-, ht⟩ | ⟨-, ht⟩
  · rw [ht]
    exact ⟨.refl _, rfl, rfl⟩
  · rw [ht]
    exact ⟨.collect _ _, rfl, rfl⟩

/-- The problem is none with a jump, nor with a call of the super constructor. -/
def ProblemId.isAside (id : ProblemId) : Bool := !id.isJump && id != .unexpectedSuperStatement

theorem ProblemId.isJump_of_isAside {id : ProblemId} (h : id.isAside = true) : id.isJump = false := by
  simpa using (Bool.and_eq_true_iff.mp h).1

/-- What the use of an operator adds. -/
def FunctionUse.noting (use : FunctionUse) : Operator → FunctionUse
  | .await => { use with usesAwait := true }
  | .yield => { use with usesYield := true }
  | _ => use

/-- The use of an operator is noted on the innermost function. -/
def ParserState.noting (s : ParserState) (op : Operator) : ParserState :=
  { s with functions := s.functions.modifyHead (·.noting op) }

/-- The operator may be used, as far as the innermost function has been seen. -/
structure ParserState.Admits (s : ParserState) (op : Operator) : Prop where
  await : op = .await → ∀ use ∈ s.functions.head?, use.usesYield = false
  yield : op = .yield → ∃ use ∈ s.functions.head?, use.usesAwait = false

/-- A use is reported, or it is noted on the innermost function. -/
theorem Rules.noteUse_ok {op : Operator} {span : Span} {s t : ParserState}
    (h : Rules.noteUse op span s = .ok () t) :
    (∃ p, t = s.collect p ∧ p.isWarning = false ∧ p.id.isAside = true) ∨
      (s.Admits op ∧ t = s.noting op) := by
  unfold noteUse at h
  rw [Parse.get_bind] at h
  have same : ∀ functions, s.functions = functions → ({ s with functions } : ParserState) = s := by
    rintro _ rfl
    rfl
  unfold ParserState.noting
  generalize hf : s.functions = functions at h ⊢
  split at h
  · rename_i use outer
    split at h
    · cases h
      exact Or.inl ⟨_, rfl, rfl, rfl⟩
    · rename_i hyield
      cases h
      exact Or.inr ⟨⟨fun _ => by simpa [hf] using hyield, nofun⟩, rfl⟩
  · rename_i use outer
    split at h
    · cases h
      exact Or.inl ⟨_, rfl, rfl, rfl⟩
    · rename_i hawait
      cases h
      exact Or.inr ⟨⟨nofun, fun _ => by simpa [hf] using hawait⟩, rfl⟩
  · cases h
    exact Or.inl ⟨_, rfl, rfl, rfl⟩
  · rename_i hawait hyield hnone
    cases h
    cases functions with
    | nil =>
      refine Or.inr ⟨⟨fun _ => by simp [hf], ?_⟩, (same _ hf).symm⟩
      rintro rfl
      exact (hnone rfl rfl).elim
    | cons use outer =>
      have hnoting : use.noting op = use := by
        unfold FunctionUse.noting
        split
        · exact (hawait use outer rfl rfl).elim
        · exact (hyield use outer rfl rfl).elim
        · rfl
      refine Or.inr ⟨⟨?_, ?_⟩, ?_⟩
      · rintro rfl
        exact (hawait use outer rfl rfl).elim
      · rintro rfl
        exact (hyield use outer rfl rfl).elim
      · rw [List.modifyHead_cons, hnoting]
        exact (same _ hf).symm

theorem Rules.noteUse_grows {op : Operator} {span : Span} {s t : ParserState}
    (h : Rules.noteUse op span s = .ok () t) : s.script.Grows t.script := by
  rcases Rules.noteUse_ok h with ⟨p, rfl, -⟩ | ⟨-, rfl⟩
  · exact .collect _ p
  · exact .refl _

/-- Between the states the pieces are built, and if so marked, a token is consumed. The first mark tells
whether the block in which they stand is that of a constructor. Unless pieces may get lost, none does
but the parameters that are reported. -/
inductive BuildsIn (lossy : Prop) : Bool → Bool → ParserState → List Piece → ParserState → Prop
  | refl {c : Bool} (s : ParserState) : BuildsIn lossy c false s [] s
  | next {c : Bool} {s : ParserState} (more : s.token.kind ≠ .endOfProgram)
      (ok : s.scanner.next.1 = .ok ()) : BuildsIn lossy c true s [] s.advance
  | regular {c : Bool} {s : ParserState} (slash : Rules.beginsRegularExpression s.token = true)
      (ok : s.scanner.readRegularExpression.1 = .ok ()) : BuildsIn lossy c false s [] s.advanceRegular
  | split {c : Bool} {s : ParserState} {kind : TokenKind} {operator : Option Operator}
      (greater : Parse.afterGreater? s.token = some (kind, operator)) :
      BuildsIn lossy c true s [] (s.split kind operator)
  | report {c : Bool} (s : ParserState) {p : Problem} (aside : p.id.isAside = true) :
      BuildsIn lossy c false s [] (s.collect p)
  | weaken {c : Bool} {s t : ParserState} {ps : List Piece} (h : BuildsIn lossy c true s ps t) :
      BuildsIn lossy c false s ps t
  | seq {c a b : Bool} {s t u : ParserState} {ps qs : List Piece} (h : BuildsIn lossy c a s ps t)
      (h' : BuildsIn lossy c b t qs u) : BuildsIn lossy c (a || b) s (ps ++ qs) u
  /-- Most pieces are built in the same way wherever they stand. -/
  | anywhere {c a : Bool} {s t : ParserState} {ps : List Piece} (h : BuildsIn lossy false a s ps t)
      (inert : ∀ p ∈ ps, p.isInert = true) : BuildsIn lossy c a s ps t
  | rework {a : Bool} {s t : ParserState} {ps qs : List Piece} (h : BuildsIn lossy false a s ps t)
      (reworks : Reworks ps qs) : BuildsIn lossy false a s qs t
  | lose {a : Bool} {s t : ParserState} {ps qs : List Piece} (h : BuildsIn lossy false a s ps t)
      (sub : qs ⊆ ps) (why : lossy ∨ t.Drops) : BuildsIn lossy false a s qs t
  /-- A node out of its children. Others that have been read meanwhile stay beside it. -/
  | node {c : Bool} {s t : ParserState} {p : Piece} {others : List Piece}
      (h : BuildsIn lossy (p.bearing c) true s (p.children ++ others) t) (plain : p.isPlain = true)
      (beside : others = [] ∨ ∃ f, p = .function f)
      (ends : p.span? = some (s.token.span.«to» t.previous.span))
      (legal : t.script.isValid = true → p.Legal)
      (covers : s.token.isKeyword "function" = true → p.CoversParameters) :
      BuildsIn lossy c true s (p :: others) t
  /-- An element, whose name, attributes, children and closing tag are read one behind the other. -/
  | element {c : Bool} {s t behindName behindMarks inside behind : ParserState} {e : Expr}
      {opening ending : List Token} {attributes : List NodeAttribute} {children : List Expr}
      {greater closing : Token} (h : BuildsIn lossy false true s (Piece.expr e).children t)
      (ends : e.span = s.token.span.«to» t.previous.span)
      (made : e.Element opening attributes children ending)
      (marks : TagMarks s.token greater closing t.previous)
      (name : Consumes s (s.token :: opening) behindName)
      (attributed : BuildsIn lossy false false behindName (attributes.map .attribute) behindMarks)
      (opened : Consumes behindMarks [greater] inside)
      (filled : BuildsIn lossy false false inside (children.map .expr) behind)
      (closed : Consumes behind (closing :: ending ++ [t.previous]) t) :
      BuildsIn lossy c true s [.expr e] t
  /-- A function type that begins with its keyword: its parameters cover their types. -/
  | functionType {s t : ParserState} {params : List Identifier} {optional : Option (List Identifier)}
      {rest : Option Identifier} {result : Option TypeExpr}
      (h : BuildsIn lossy false true s ((params ++ optional.getD [] ++ rest.toList).map .identifier ++
        result.toList.map .type) t) :
      BuildsIn lossy false true s
        [.type (.function (s.token.span.«to» t.previous.span) params optional rest result)] t
  /-- An operator in front of its operand, noted on the innermost function. -/
  | front {s t u : ParserState} {op : Operator} {operand : Expr}
      (h : BuildsIn lossy false true s [.expr operand] t)
      (note : Rules.noteUse op (s.token.span.«to» t.previous.span) t = .ok () u) :
      BuildsIn lossy false true s [.expr (.unary (s.token.span.«to» t.previous.span) op operand)] u
  | jump {c : Bool} {s t : ParserState} {around : Situation} {jump : Statement}
      (h : BuildsIn lossy false true s [] t) (isJump : jump.isJump = true)
      (ends : jump.span = s.token.span.«to» t.previous.span) :
      BuildsIn lossy c true s [.statement around jump] (t.afterJump around jump)
  | superCall {c : Bool} {s t u : ParserState} {around : Situation} {arguments : List Expr}
      (h : BuildsIn lossy false true s (arguments.map .expr) t) (closed : BuildsIn lossy false true t [] u) :
      BuildsIn lossy c true s
        [.statement around (.superCall (s.token.span.«to» u.previous.span) arguments)]
        (u.afterSuper c (s.token.span.«to» u.previous.span))
  /-- How a block has called the super constructor does not show outside of it. -/
  | block {c : Bool} {s t : ParserState} {around : Situation} {block : Block}
      (h : BuildsIn lossy c true { s with superFound := false }
        (block.statements.map (.statement around)) t)
      (ends : block.span = s.token.span.«to» t.previous.span) :
      BuildsIn lossy c true s [.block around block] { t with superFound := s.superFound }
  | body {c a : Bool} {s t : ParserState} {body : Option FunctionBody}
      (h : BuildsIn lossy c a s.enter (body.toList.map FunctionBody.piece) t) :
      BuildsIn lossy c a s [.body (t.functions.head?.getD {}) body] t.leave
  /-- A script that is included: its statements are those that have been read of it. They are no pieces
  of the tree. -/
  | included {c d a : Bool} {s t first inner last : ParserState} {around : Situation} {source : String}
      {child : Script} {statements : List Statement} (may : lossy) (h : BuildsIn lossy false true s [] t)
      (begins : statements ≠ [] → first =
          (t.inside (.ofSource child.path (String.ofList child.content))).scanned ∧
        (t.inside (.ofSource child.path (String.ofList child.content))).scanner.next.1 = .ok ())
      (inside : BuildsIn lossy d a first (statements.map (.statement around)) inner) :
      BuildsIn lossy c true s
        [.statement around
          (.includeSource (s.token.span.«to» t.previous.span) source child statements)]
        ((t.outside last).addIncluded child)

/-- Between the states the pieces are built, elsewhere than directly in a constructor. -/
abbrev Builds (lossy : Prop) : Bool → ParserState → List Piece → ParserState → Prop :=
  BuildsIn lossy false

/-- Most nodes need no check, and nothing is to be said about where their children lie. -/
structure Piece.Unchecked (p : Piece) : Prop where
  plain : p.isPlain = true
  legal : p.Legal
  covers : p.CoversParameters

namespace BuildsIn

variable {lossy : Prop} {c a b : Bool} {s t u : ParserState} {ps qs : List Piece} {p : Piece}

/-- Tokens are consumed, and then something is built. -/
theorem skip (h : Builds lossy a s [] t) (h' : BuildsIn lossy c b t ps u) :
    BuildsIn lossy c (a || b) s ps u := (h.anywhere (by simp)).seq h'

/-- Something is built, and then tokens are consumed. -/
theorem close (h : BuildsIn lossy c a s ps t) (h' : Builds lossy b t [] u) :
    BuildsIn lossy c (a || b) s ps u := by
  simpa using h.seq (h'.anywhere (by simp))

/-- Something is built, and then something is done aside. -/
theorem aside (h : BuildsIn lossy c a s ps t) (h' : Builds lossy false t [] u) :
    BuildsIn lossy c a s ps u := by
  simpa using h.close h'

theorem loose (h : BuildsIn lossy c a s ps t) : BuildsIn lossy c false s ps t := by
  cases a with
  | false => exact h
  | true => exact h.weaken

/-- A node whose children have been built, and which has been checked. -/
theorem checked (h : BuildsIn lossy (p.bearing c) true s p.children t)
    (ends : p.span? = some (s.token.span.«to» t.previous.span)) (plain : p.isPlain = true)
    (legal : t.script.isValid = true → p.Legal)
    (covers : s.token.isKeyword "function" = true → p.CoversParameters) :
    BuildsIn lossy c true s [p] t := by
  have hchildren : BuildsIn lossy (p.bearing c) true s (p.children ++ []) t := by
    rwa [List.append_nil]
  exact .node hchildren plain (Or.inl rfl) ends legal covers

theorem whole (h : BuildsIn lossy (p.bearing c) true s p.children t)
    (ends : p.span? = some (s.token.span.«to» t.previous.span)) (free : p.Unchecked) :
    BuildsIn lossy c true s [p] t :=
  .checked h ends free.plain (fun _ => free.legal) fun _ => free.covers

/-- The script grows, and what it includes stays included. -/
theorem grows (h : BuildsIn lossy c a s ps t) : s.script.Grows t.script := by
  induction h with
  | refl => exact .refl _
  | @next _ s => exact s.scanner.next_grows
  | @regular _ s => exact s.scanner.readRegularExpression_grows
  | report s => exact .collect _ _
  | split => exact .refl _
  | seq _ _ ih ih' => exact ih.trans ih'
  | block _ _ ih | body _ ih => exact ih
  | weaken _ ih | anywhere _ _ ih | rework _ _ ih | lose _ _ _ ih => exact ih
  | node _ _ _ _ _ _ ih | element _ _ _ _ _ _ _ _ _ ih | functionType _ ih => exact ih
  | front _ note ih => exact ih.trans (Rules.noteUse_grows note)
  | @jump _ s t around jump _ _ _ ih => exact ih.trans (t.afterJump_keeps around jump).1
  | @superCall c s t u _ _ _ _ ih ih' =>
    exact ih.trans (ih'.trans (u.afterSuper_keeps c _).1)
  | included _ _ _ _ ih => exact ih.trans (.of_problems_eq rfl rfl rfl rfl)

end BuildsIn

end ActionSyntax
