import ActionSyntax.Grammar.Functions
import ActionSyntax.Proofs.Reads.Types

/-!
How type parameters, patterns and functions are read.
-/

namespace ActionSyntax.Setting.Sound

set_option autoImplicit false

open Parse Rules

variable {S : Setting} {r : Rules} {n : Nat}

theorem typeParameter_reads : S.Reads n always typeParameter :=
  .paid identifier_reads fun _ => .pure _

theorem asPattern_reads (e : Expr) : S.Reads n never (asPattern e) := by
  unfold asPattern
  split
  · exact .pure _
  · exact stopAt_reads _ _ _

theorem endsHere_reads (defines : Bool) : S.Reads n never (endsHere defines) := by
  unfold endsHere
  split
  · exact endStatement_reads
  · exact .pure _

theorem addArrowParam_reads (params : Params) (e : Expr) :
    S.Reads n never (addArrowParam params e) := by
  unfold addArrowParam
  split
  · exact .seq (asPattern_reads _) fun _ => .pure _
  · exact .seq (syntaxError_reads _ _) fun _ => .pure _
  · refine .seq (asPattern_reads _) fun pattern => ?_
    exact .optional (syntaxError_reads _ _) fun _ => .pure _

theorem arrowParams_reads (expressions : List Expr) :
    S.Reads n never (arrowParams expressions) :=
  .foldlM addArrowParam_reads expressions _

variable (h : S.Sound n r)
include h

theorem optGenerics_reads : S.Reads n never r.optGenerics := by
  refine .seq (at?_reads .dot) fun present => ?_
  split
  · exact .pure none
  refine .seq mark_reads fun m => ?_
  refine .seq next_reads fun _ => ?_
  refine .seq (expectOperator_reads _) fun _ => ?_
  refine .seq (h.separated_reads typeParameter_reads) fun params => ?_
  refine .seq expectGreater_reads fun _ => ?_
  exact .seq (finish_reads m) fun _ => .pure _

theorem typeBound_reads : S.Reads n always r.typeBound := by
  refine .look mark_reads fun m => ?_
  refine .paid identifier_reads fun id => ?_
  refine .seq (expectKeyword_reads _) fun _ => ?_
  refine .seq h.typeExpr fun type => ?_
  exact .seq (finish_reads m) fun _ => .pure _

theorem boundsClause?_reads (generics : Option Generics) :
    S.Reads n Option.isSome (r.boundsClause? generics) := by
  refine .bool (consumeKeyword_reads _) ?_ .pure_none
  exact (Reads.seq (h.separated_reads h.typeBound_reads) fun _ => .pure _).mono (Nat.sub_le n 1)

theorem primary_reads (allowTyped : Bool) : S.Reads n always (r.primary allowTyped) :=
  .option (h.optPrimary allowTyped _) (fun e => .pure e) unexpected_reads

theorem pattern_reads : S.Reads n always r.pattern := by
  refine .look kind_reads fun kind => ?_
  refine .optional unexpected_reads fun _ => ?_
  exact .paid (h.primary_reads true) asPattern_reads

theorem optInit_reads (allowIn : Bool) : S.Reads n never (r.optInit allowIn) := by
  refine .seq (consume_reads (by decide)) fun initialized => ?_
  split
  · exact .seq (h.assignmentExpr_reads allowIn) fun _ => .pure _
  · exact .pure none

theorem variableBinding_reads (allowIn : Bool) : S.Reads n always (r.variableBinding allowIn) := by
  refine .look mark_reads fun m => ?_
  refine .paid h.pattern_reads fun pattern => ?_
  refine .seq (h.optInit_reads allowIn) fun init => ?_
  exact .seq (finish_reads m) fun _ => .pure _

theorem variableDeclaration?_reads : S.Reads n never r.variableDeclaration? := by
  refine .seq (atKeyword?_reads _) fun readOnly => ?_
  refine .seq (atKeyword?_reads _) fun changeable => ?_
  split
  · exact .pure none
  refine .seq mark_reads fun m => ?_
  refine .seq next_reads fun _ => ?_
  refine .seq (h.separated_reads (h.variableBinding_reads false)) fun bindings => ?_
  exact .seq (finish_reads m) fun _ => .pure _

theorem restParam_reads : S.Reads n never r.restParam := by
  refine .seq (h.variableBinding_reads true) fun binding => ?_
  exact .optional (syntaxError_reads _ _) fun _ => .pure _

theorem functionParams_reads :
    ∀ fuel params k, k ≤ n → k ≤ fuel → S.Reads k never (r.functionParams fuel params)
  | 0, _, _, _, hk => exhausted_reads hk
  | fuel + 1, params, k, hn, hk => by
    refine .seq (at?_reads .rightParen) fun closed => ?_
    split
    · exact .pure _
    refine .seq (consume_reads (by decide)) fun atRest => ?_
    split
    · exact .seq (h.restParam_reads.mono hn) fun _ => .pure _
    refine .moved ((h.variableBinding_reads true).mono hn) fun binding => ?_
    refine .optional (syntaxError_reads _ _) fun _ => ?_
    refine .seq (consume_reads (by decide)) fun more => ?_
    split
    · exact functionParams_reads fuel _ _ (by omega) (by omega)
    · exact .pure _

theorem throwsType_reads : S.Reads n never r.throwsType := by
  refine .seq (h.separated_reads h.typeExpr) fun types => ?_
  split
  · exact .pure _
  · exact .seq (finish_reads _) fun _ => .pure _

theorem functionClauses_reads :
    ∀ fuel clauses k, k ≤ n → k ≤ fuel → S.Reads k never (r.functionClauses fuel clauses)
  | 0, _, _, _, hk => exhausted_reads hk
  | fuel + 1, clauses, k, hn, hk => by
    refine .bool (consumeKeyword_reads _) ?_ ?_
    · refine .seq previous_reads fun word => ?_
      refine .optional (syntaxError_reads _ _) fun _ => ?_
      refine .seq (h.throwsType_reads.mono (by omega)) fun type => ?_
      exact functionClauses_reads fuel _ _ (by omega) (by omega)
    · refine .option ((h.boundsClause?_reads _).mono hn) (fun generics => ?_) (.pure _)
      exact functionClauses_reads fuel _ _ (by omega) (by omega)

theorem functionBody_reads (role : FunctionRole) : S.Reads n never (r.functionBody role) := by
  refine .seq (at?_reads .leftBrace) fun isBlock => ?_
  split
  · exact .seq (h.block _) fun _ => .pure _
  refine .seq (endsHere_reads _) fun ended => ?_
  split
  · exact .pure _
  refine .seq (h.assignmentExpr_reads true) fun body => ?_
  exact .seq (endsHere_reads _) fun _ => .pure _

theorem functionParts_reads (generics : Option Generics) (role : FunctionRole) :
    S.Reads n always (r.functionParts generics role) := by
  refine .look mark_reads fun m => ?_
  refine .paid (expect_reads (by decide)) fun _ => ?_
  refine .seq (h.functionParams_reads _ _ n (Nat.le_refl n) (h.rounds_le (by omega))) fun params => ?_
  refine .seq (expect_reads (by decide)) fun _ => ?_
  refine .seq h.optAnnotation_reads fun result => ?_
  refine .seq (h.functionClauses_reads _ _ n (Nat.le_refl n) (h.rounds_le (by omega)))
    fun clauses => ?_
  refine .seq (inFunction_reads (h.functionBody_reads role)) fun ⟨⟨body, ended⟩, use⟩ => ?_
  exact .seq (finish_reads m) fun _ => .pure _

theorem functionExpr_reads : S.Reads (n + 1) always r.functionExpr := by
  refine .look mark_reads fun m => ?_
  refine .moved (expectKeyword_reads _) fun _ => ?_
  refine .seq consumeIdentifier_reads fun named => ?_
  refine .branch (.map previousIdentifier_reads nofun) (.pure none) fun id => ?_
  refine .seq (h.functionParts_reads none _) fun parts => ?_
  refine .seq (finish_reads m) fun span => ?_
  exact .optional (syntaxError_reads _ _) fun _ => .pure _

theorem arrowBody_reads : S.Reads n never r.arrowBody := by
  refine .seq (at?_reads .leftBrace) fun isBlock => ?_
  split
  · exact .seq (h.block _) fun _ => .pure _
  · exact .seq (h.assignmentExpr_reads true) fun _ => .pure _

theorem arrowFunction_reads (m : Mark) (params : Params) (result : Option TypeExpr) :
    S.Reads n never (r.arrowFunction m params result) := by
  refine .seq (inFunction_reads h.arrowBody_reads) fun ⟨body, use⟩ => ?_
  exact .seq (finish_reads m) fun _ => .pure _

end ActionSyntax.Setting.Sound
