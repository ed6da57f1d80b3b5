import ActionSyntax.Grammar.Program
import ActionSyntax.Grammar.Statements

/-!
Loops with more and with fewer rounds. A loop gives up when its rounds are used up; as long as it does
not, more rounds make no difference to it.
-/

namespace ActionSyntax

set_option autoImplicit false

open Parse

/-- The first reading is the second one, but may give up on the way. -/
def Shortens {α : Type} (x y : Parse α) : Prop :=
  ∀ s, x s = y s ∨ ∃ t, x s = .error .exhausted t

namespace Shortens

variable {α β : Type} {x y : Parse α} {f g : α → Parse β}

theorem refl (x : Parse α) : Shortens x x := fun _ => Or.inl rfl

theorem exhausted : Shortens Parse.exhausted x := fun s => Or.inr ⟨s, rfl⟩

theorem seq (hx : Shortens x y) (hf : ∀ a, Shortens (f a) (g a)) : Shortens (x >>= f) (y >>= g) := by
  intro s
  show EStateM.bind x f s = EStateM.bind y g s ∨ ∃ t, EStateM.bind x f s = .error .exhausted t
  unfold EStateM.bind
  rcases hx s with heq | ⟨t, ht⟩
  · rw [heq]
    cases y s with
    | ok a t => exact hf a t
    | error stop t => exact Or.inl rfl
  · rw [ht]
    exact Or.inr ⟨t, rfl⟩

/-- The same is read first. -/
theorem after (x : Parse α) (hf : ∀ a, Shortens (f a) (g a)) : Shortens (x >>= f) (x >>= g) :=
  (refl x).seq hf

theorem ite {condition : Prop} {_ : Decidable condition} {x' y' : Parse α} (hx : Shortens x y)
    (hx' : Shortens x' y') : Shortens (if condition then x else x') (if condition then y else y') := by
  split
  · exact hx
  · exact hx'

end Shortens

namespace Parse

variable {α : Type}

theorem separated_shortens (item : Parse α) : ∀ {m n}, m ≤ n →
    Shortens (separated item m) (separated item n)
  | 0, _, _ => .exhausted
  | m + 1, n + 1, h => by
    refine .after _ fun first => .after _ fun more => .ite ?_ (.refl _)
    exact (separated_shortens item (Nat.le_of_succ_le_succ h)).seq fun _ => .refl _

theorem separatedUntil_shortens (closing : TokenKind) (item : Parse α) : ∀ {m n}, m ≤ n →
    Shortens (separatedUntil closing item m) (separatedUntil closing item n)
  | 0, _, _ => .exhausted
  | m + 1, n + 1, h => by
    refine .after _ fun closed => .ite (.refl _) ?_
    refine .after _ fun first => .after _ fun more => .ite ?_ (.refl _)
    exact (separatedUntil_shortens closing item (Nat.le_of_succ_le_succ h)).seq fun _ => .refl _

theorem collectWhile_shortens (step : Parse (Option α)) : ∀ {m n}, m ≤ n →
    Shortens (collectWhile step m) (collectWhile step n)
  | 0, _, _ => .exhausted
  | m + 1, n + 1, h => by
    refine .after _ fun found => ?_
    cases found with
    | none => exact .refl _
    | some first => exact (collectWhile_shortens step (Nat.le_of_succ_le_succ h)).seq fun _ => .refl _

end Parse

namespace Rules

variable (r : Rules)

section Types

theorem functionTypeParams_shortens : ∀ {m n} params, m ≤ n →
    Shortens (r.functionTypeParams m params) (r.functionTypeParams n params)
  | 0, _, _, _ => .exhausted
  | m + 1, n + 1, params, h => by
    refine .after _ fun closed => .ite (.refl _) ?_
    refine .after _ fun atRest => .ite (.refl _) ?_
    refine .after _ fun ⟨id, optional⟩ => .after _ fun t => ?_
    refine .ite (.after _ fun _ => ?_) ?_
    all_goals
      refine .after _ fun more => .ite ?_ (.refl _)
      exact functionTypeParams_shortens _ (Nat.le_of_succ_le_succ h)

theorem moreTypes_shortens (ends : TokenKind → Bool) : ∀ {m n}, m ≤ n →
    Shortens (r.moreTypes ends m) (r.moreTypes ends n)
  | 0, _, _ => .exhausted
  | m + 1, n + 1, h => by
    refine .after _ fun more => .ite ?_ (.refl _)
    refine .after _ fun k => .ite (.refl _) (.after _ fun first => ?_)
    exact (moreTypes_shortens ends (Nat.le_of_succ_le_succ h)).seq fun _ => .refl _

theorem typeSuffixes_shortens : ∀ {m n} base, m ≤ n →
    Shortens (r.typeSuffixes m base) (r.typeSuffixes n base)
  | 0, _, _, _ => .exhausted
  | m + 1, n + 1, base, h => by
    refine .after _ fun found => ?_
    cases found with
    | some longer => exact typeSuffixes_shortens longer (Nat.le_of_succ_le_succ h)
    | none => exact .refl _

end Types

section Functions

theorem functionParams_shortens : ∀ {m n} params, m ≤ n →
    Shortens (r.functionParams m params) (r.functionParams n params)
  | 0, _, _, _ => .exhausted
  | m + 1, n + 1, params, h => by
    refine .after _ fun closed => .ite (.refl _) ?_
    refine .after _ fun atRest => .ite (.refl _) ?_
    refine .after _ fun binding => ?_
    refine .ite (.after _ fun _ => ?_) ?_
    all_goals
      refine .after _ fun more => .ite ?_ (.refl _)
      exact functionParams_shortens _ (Nat.le_of_succ_le_succ h)

theorem functionClauses_shortens : ∀ {m n} clauses, m ≤ n →
    Shortens (r.functionClauses m clauses) (r.functionClauses n clauses)
  | 0, _, _, _ => .exhausted
  | m + 1, n + 1, clauses, h => by
    have ih := fun clauses => functionClauses_shortens clauses (Nat.le_of_succ_le_succ h)
    refine .after _ fun throwing => .ite (.after _ fun word => ?_) (.after _ fun found => ?_)
    · exact .ite (.after _ fun _ => .after _ fun type => ih _) (.after _ fun type => ih _)
    · cases found with
      | some generics => exact ih _
      | none => exact .refl _

end Functions

section Expressions

theorem tagName_shortens : ∀ {m n} base, m ≤ n → Shortens (r.tagName m base) (r.tagName n base)
  | 0, _, _, _ => .exhausted
  | m + 1, n + 1, base, h => by
    refine .after _ fun longer => .ite (.after _ fun id => .after _ fun span => ?_) (.refl _)
    exact tagName_shortens _ (Nat.le_of_succ_le_succ h)

theorem parensItems_shortens : ∀ {m n} items, m ≤ n →
    Shortens (r.parensItems m items) (r.parensItems n items)
  | 0, _, _, _ => .exhausted
  | m + 1, n + 1, items, h => by
    refine .after _ fun atRest => .ite (.refl _) (.after _ fun e => .after _ fun more => .ite ?_ (.refl _))
    exact parensItems_shortens _ (Nat.le_of_succ_le_succ h)

theorem arrayItems_shortens : ∀ {m n}, m ≤ n → Shortens (r.arrayItems m) (r.arrayItems n)
  | 0, _, _ => .exhausted
  | m + 1, n + 1, h => by
    have ih := arrayItems_shortens (Nat.le_of_succ_le_succ h)
    refine .after _ fun hole => .ite (ih.seq fun _ => .refl _) (.after _ fun closed => .ite (.refl _) ?_)
    exact .after _ fun item => .after _ fun more => .ite (ih.seq fun _ => .refl _) (.refl _)

theorem newBase_shortens : ∀ {m n} base, m ≤ n → Shortens (r.newBase m base) (r.newBase n base)
  | 0, _, _, _ => .exhausted
  | m + 1, n + 1, base, h => by
    have ih := fun base => newBase_shortens base (Nat.le_of_succ_le_succ h)
    refine .after _ fun member => .ite (.after _ ih) (.after _ fun s => .ite ?_ (.refl _))
    exact .after _ fun _ => .after _ ih

theorem continuations_shortens (allowIn : Bool) (level : Precedence) : ∀ {m n} base, m ≤ n →
    Shortens (r.continuations allowIn level m base) (r.continuations allowIn level n base)
  | 0, _, _, _ => .exhausted
  | m + 1, n + 1, base, h => by
    refine .after _ fun s => ?_
    cases continuation? allowIn level s with
    | none => exact .refl _
    | some way =>
      refine .after _ fun _ => .after _ fun longer => ?_
      exact continuations_shortens allowIn level longer (Nat.le_of_succ_le_succ h)

end Expressions

section Statements

theorem definitionAttributes_shortens : ∀ {m n} attributes, m ≤ n →
    Shortens (definitionAttributes m attributes) (definitionAttributes n attributes)
  | 0, _, _, _ => .exhausted
  | m + 1, n + 1, attributes, h => by
    have ih := fun attributes => definitionAttributes_shortens attributes (Nat.le_of_succ_le_succ h)
    refine .after _ fun s => ?_
    refine .ite (.after _ fun _ => ?_) ?_
    all_goals
      cases Words.modifier? s.token with
      | some modifier => exact .after _ fun _ => ih _
      | none =>
        cases Words.access? s.token with
        | some access => exact .after _ fun _ => ih _
        | none => exact .refl _

theorem classHeritage_shortens : ∀ {m n} heritage, m ≤ n →
    Shortens (r.classHeritage m heritage) (r.classHeritage n heritage)
  | 0, _, _, _ => .exhausted
  | m + 1, n + 1, heritage, h => by
    have ih := fun heritage => classHeritage_shortens heritage (Nat.le_of_succ_le_succ h)
    refine .after _ fun extending => .ite (.after _ fun type => ?_) (.after _ fun implementing => ?_)
    · exact .ite (.after _ fun _ => ih _) (ih _)
    · refine .ite (.after _ fun types => ih _) (.after _ fun found => ?_)
      cases found with
      | some generics => exact ih _
      | none => exact .refl _

theorem interfaceHeritage_shortens : ∀ {m n} heritage, m ≤ n →
    Shortens (r.interfaceHeritage m heritage) (r.interfaceHeritage n heritage)
  | 0, _, _, _ => .exhausted
  | m + 1, n + 1, heritage, h => by
    have ih := fun heritage => interfaceHeritage_shortens heritage (Nat.le_of_succ_le_succ h)
    refine .after _ fun extending => .ite (.after _ fun types => ih _) (.after _ fun found => ?_)
    cases found with
    | some generics => exact ih _
    | none => exact .refl _

theorem boundsClauses_shortens : ∀ {m n} generics, m ≤ n →
    Shortens (r.boundsClauses m generics) (r.boundsClauses n generics)
  | 0, _, _, _ => .exhausted
  | m + 1, n + 1, generics, h => by
    refine .after _ fun found => ?_
    cases found with
    | some longer => exact boundsClauses_shortens _ (Nat.le_of_succ_le_succ h)
    | none => exact .refl _

theorem caseStatements_shortens (context : Context) : ∀ {m n}, m ≤ n →
    Shortens (r.caseStatements context m) (r.caseStatements context n)
  | 0, _, _ => .exhausted
  | m + 1, n + 1, h => by
    refine .after _ fun t => .ite (.refl _) (.after _ fun ⟨first, ended⟩ => .ite ?_ (.refl _))
    exact (caseStatements_shortens context (Nat.le_of_succ_le_succ h)).seq fun _ => .refl _

theorem switchCases_shortens (context : Context) : ∀ {m n}, m ≤ n →
    Shortens (r.switchCases context m) (r.switchCases context n)
  | 0, _, _ => .exhausted
  | m + 1, n + 1, h => by
    refine .after _ fun closed => .ite (.refl _) (.after _ fun mark => .after _ fun test => ?_)
    refine .after _ fun _ => .after _ fun ⟨consequent, ended⟩ => .after _ fun span => .ite ?_ (.refl _)
    exact (switchCases_shortens context (Nat.le_of_succ_le_succ h)).seq fun _ => .refl _

theorem blockStatements_shortens (context : Context) : ∀ {m n}, m ≤ n →
    Shortens (r.blockStatements context m) (r.blockStatements context n)
  | 0, _, _ => .exhausted
  | m + 1, n + 1, h => by
    refine .after _ fun closed => .ite (.refl _) (.after _ fun ⟨first, ended⟩ => .ite ?_ (.refl _))
    exact (blockStatements_shortens context (Nat.le_of_succ_le_succ h)).seq fun _ => .refl _

theorem importParts_shortens : ∀ {m n}, m ≤ n → Shortens (importParts m) (importParts n)
  | 0, _, _ => .exhausted
  | m + 1, n + 1, h => by
    refine .after _ fun more => .ite ?_ (.refl _)
    refine .after _ fun wildcard => .ite (.refl _) (.after _ fun recursive => .ite (.refl _) ?_)
    refine .after _ fun first => ?_
    exact (importParts_shortens (Nat.le_of_succ_le_succ h)).seq fun _ => .refl _

theorem moreBrackets_shortens : ∀ {m n} read, m ≤ n →
    Shortens (r.moreBrackets m read) (r.moreBrackets n read)
  | 0, _, _, _ => .exhausted
  | m + 1, n + 1, read, h => by
    refine .after _ fun s => .ite (.after _ fun e => ?_) (.refl _)
    exact moreBrackets_shortens _ (Nat.le_of_succ_le_succ h)

theorem programStatements_shortens : ∀ {m n}, m ≤ n →
    Shortens (r.programStatements m) (r.programStatements n)
  | 0, _, _ => .exhausted
  | m + 1, n + 1, h => by
    refine .after _ fun closed => .ite (.refl _) (.after _ fun ⟨first, ended⟩ => .ite ?_ (.refl _))
    exact (programStatements_shortens (Nat.le_of_succ_le_succ h)).seq fun _ => .refl _

end Statements

end Rules

end ActionSyntax
