import ActionSyntax.Proofs.ArraySlots
import ActionSyntax.Proofs.Decorators.Singles
import ActionSyntax.Proofs.Layout

/-!
Brackets in front of a definition. By its layout, a bracket is an array of its own or goes on with the one
before as an index, and what it holds is read as items of an array or as a comma list. Whichever it is, what
the brackets hold is found in the same order.
-/

namespace ActionSyntax

set_option autoImplicit false

open Parse Rules

namespace Words

variable {t : Token}

/-- Reserved words that may stand behind decorators. -/
def decoratedKeywords : List String := strictDefinitions ++ Access.all.map Access.word

/-- Names that may stand behind decorators. -/
def decoratedNames : List String := ["enum", "namespace", "type"] ++ Modifier.all.map Modifier.word

theorem beginsDecorated_word (h : beginsDecorated t = true) :
    (t.kind = .keyword ∧ t.text ∈ decoratedKeywords) ∨ (t.kind = .identifier ∧ t.text ∈ decoratedNames) := by
  have hname : ∀ {word : String}, t.isContextKeyword word = true → t.kind = .identifier ∧ t.text = word := by
    intro word hword
    simp only [Token.isContextKeyword, Bool.and_eq_true, beq_iff_eq] at hword
    exact hword.1
  unfold beginsDecorated beginsDefinition isStrictDefinition isSoftDefinition access? modifier? at h
  simp only [Bool.or_eq_true, Bool.and_eq_true, beq_iff_eq, List.contains_iff_mem] at h
  rcases h with ((⟨hkind, htext⟩ | haccess) | (hword | hword) | hword) | hmodifier
  · exact Or.inl ⟨hkind, List.mem_append_left _ htext⟩
  · split at haccess
    · rename_i hkind
      obtain ⟨a, hmem, hword⟩ := List.find?_isSome.mp haccess
      exact Or.inl ⟨hkind, List.mem_append_right _ (List.mem_map.mpr ⟨a, hmem, eq_of_beq hword⟩)⟩
    · cases haccess
  · obtain ⟨hkind, htext⟩ := hname hword
    exact Or.inr ⟨hkind, by simp [decoratedNames, htext]⟩
  · obtain ⟨hkind, htext⟩ := hname hword
    exact Or.inr ⟨hkind, by simp [decoratedNames, htext]⟩
  · obtain ⟨hkind, htext⟩ := hname hword
    exact Or.inr ⟨hkind, by simp [decoratedNames, htext]⟩
  · split at hmodifier
    · rename_i hspelled
      obtain ⟨m, hmem, hword⟩ := List.find?_isSome.mp hmodifier
      exact Or.inr ⟨hspelled.1, List.mem_append_right _ (List.mem_map.mpr ⟨m, hmem, eq_of_beq hword⟩)⟩
    · cases hmodifier

theorem beginsDecorated_kind (h : beginsDecorated t = true) : t.kind = .keyword ∨ t.kind = .identifier :=
  (beginsDecorated_word h).imp And.left And.left

/-- No expression goes on where a definition begins. -/
theorem continuation?_decorated {s : ParserState} {allowIn : Bool} {level : Precedence}
    (h : beginsDecorated s.token = true) : continuation? allowIn level s = none := by
  have hreserved : ∀ word ∉ decoratedKeywords, s.token.isKeyword word = false := by
    intro word hword
    rw [← Bool.not_eq_true]
    intro heq
    simp only [Token.isKeyword, Bool.and_eq_true, beq_iff_eq] at heq
    rcases beginsDecorated_word h with ⟨-, htext⟩ | ⟨hkind, -⟩
    · exact hword (heq.2 ▸ htext)
    · cases hkind.symm.trans heq.1
  have hnamed : ∀ word ∉ decoratedNames, s.token.isContextKeyword word = false := by
    intro word hword
    rw [← Bool.not_eq_true]
    intro heq
    simp only [Token.isContextKeyword, Bool.and_eq_true, beq_iff_eq] at heq
    rcases beginsDecorated_word h with ⟨hkind, -⟩ | ⟨-, htext⟩
    · cases hkind.symm.trans heq.1.1
    · exact hword (heq.1.2 ▸ htext)
  unfold continuation? OperatorRule.between? OperatorRule.behind?
  rcases beginsDecorated_kind h with hkind | hkind <;>
    simp [hkind, hreserved "in" (by decide), hreserved "as" (by decide), hreserved "is" (by decide),
      hnamed "instanceof" (by decide)]

end Words

section Reading

variable {host : Host} {k j : Nat} {s t u : ParserState} {α : Type}

/-- What one reading gives, another one gives too that does the same unless the first gives up. -/
theorem Follows.ok [Located α] {refused : ParserState → Prop} {known : List Place} {x y : Parse α} {a : α}
    (h : Follows refused known x y) (hs : s.Sound) (hknown : s.Knows known) (hread : x s = .ok a t) :
    y s = .ok a t ∧ t.Sound ∧ t.Knows (places a) := by
  obtain ⟨hlands, hagree⟩ := h s hs hknown
  rcases hagree with heq | ⟨⟨_, hstop⟩, -⟩
  · rw [← heq, hread] at hlands
    exact ⟨heq ▸ hread, (hlands.1.walk.sound hs).1, hlands.2⟩
  · cases hread.symm.trans hstop

theorem ParserState.Sound.next (hs : s.Sound) (h : Parse.next s = .ok () t) : t.Sound := by
  have hfollows : Follows (fun _ => True) [] Parse.next Parse.next := next_follows
  exact (hfollows.ok hs nofun h).2.1

theorem Host.level_deepens (host : Host) (h : k ≤ j) : Alike (fun _ => True) (host.level k) (host.level j) :=
  ActionSyntax.level_deepens (includeAt_inserting host.readFile host.includeDepth) h

end Reading

namespace Decorators

/-- Expressions with commas between them, each read where it stands, up to the closing bracket. -/
inductive Items (r : Rules) : ParserState → List Expr → ParserState → Prop
  | last {s t : ParserState} {e : Expr} : r.assignmentExpr true s = .ok e t → t.token.kind = .rightBracket →
      Items r s [e] t
  | more {s t u v : ParserState} {e : Expr} {rest : List Expr} : r.assignmentExpr true s = .ok e t →
      t.token.kind = .comma → Parse.next t = .ok () u → Items r u rest v → Items r s (e :: rest) v

/-- Brackets one behind the other, on whatever lines they stand, and the expressions in each. -/
inductive Brackets (r : Rules) : ParserState → List (List Expr) → ParserState → Prop
  | nil (s : ParserState) : Brackets r s [] s
  | cons {s t u v w : ParserState} {items : List Expr} {groups : List (List Expr)} :
      s.token.kind = .leftBracket → Parse.next s = .ok () t → Items r t items u → Parse.next u = .ok () v →
      Brackets r v groups w → Brackets r s (items :: groups) w

/-- What goes on with an item goes on with it in a list, too, and then the list may go on. -/
theorem continuations_list {q : Rules} {allowIn : Bool} {e : Expr} {t : ParserState} :
    ∀ {fuel fuel' : Nat}, fuel ≤ fuel' → ∀ {base : Expr} {s : ParserState},
      q.continuations allowIn .assignment fuel base s = .ok e t →
      ∃ left, fuel' ≤ left + fuel ∧ q.continuations allowIn .list fuel' base s =
        q.continuations allowIn .list (left + 1) e t
  | 0, _, _, _, _, h => by cases h
  | fuel + 1, fuel' + 1, hle, base, s, h => by
    cases hway : continuation? allowIn .assignment s with
    | none =>
      rw [RulesShadow.continuations_none hway] at h
      cases h
      exact ⟨fuel', Nat.succ_le_succ (Nat.le_add_right _ _), rfl⟩
    | some way =>
      have hcomma : s.token.kind ≠ .comma := by
        intro hkind
        have hnone : continuation? allowIn .assignment s = none :=
          continuation?_over (by rw [hkind]; rfl) fun _ => by decide
        cases hnone.symm.trans hway
      have hway' : continuation? allowIn .list s = some way := (continuation?_item hcomma).trans hway
      rw [RulesShadow.continuations_some hway] at h
      obtain ⟨_, u, hnext, h⟩ := bind_ok h
      obtain ⟨longer, v, hlonger, h⟩ := bind_ok h
      obtain ⟨left, hleft, hrest⟩ := continuations_list (Nat.le_of_succ_le_succ hle) h
      refine ⟨left, Nat.succ_le_succ hleft, ?_⟩
      rw [RulesShadow.continuations_some hway', bind_of_ok hnext, bind_of_ok hlonger, hrest]

section Items

variable {host : Host} {k j : Nat} {s t u v : ParserState} {e : Expr} {items : List Expr}

/-- At a deeper level, an expression is read as it is. -/
theorem assignmentExpr_deepens (hkj : k ≤ j) (hs : s.Sound)
    (h : (host.level k).assignmentExpr true s = .ok e t) :
    (host.level j).assignmentExpr true s = .ok e t ∧ t.Sound := by
  have hfollows : Follows (fun _ => True) [] ((host.level k).assignmentExpr true)
      ((host.level j).assignmentExpr true) := (host.level_deepens hkj).assignmentExpr_follows true
  obtain ⟨hread, ht, -⟩ := hfollows.ok hs nofun h
  exact ⟨hread, ht⟩

theorem assignmentExpr_left (h : (host.level k).assignmentExpr true s = .ok e t) : t.left + 1 ≤ s.left := by
  have hsound := level_lenient host.readFile host.includeDepth k
  have hends := hsound.assignmentExpr_reads true s (Or.inl trivial)
  rw [h] at hends
  exact hends.left

theorem next_left (hs : s.token.kind ≠ .endOfProgram) (h : Parse.next s = .ok () t) :
    t.left + 1 ≤ s.left := by
  have hends : (Setting.lenient fun _ => none).Ends always s (Parse.next s) := Setting.next_moved hs
  rw [h] at hends
  exact hends.left

/-- Where a list may stand, the first expression is read in the same way, and then the list may go on. -/
theorem assignmentExpr_goesOn (hkj : k < j) (hs : s.Sound)
    (h : (host.level (k + 1)).assignmentExpr true s = .ok e t) :
    ∃ base u left, (host.level j).operand? {} s = .ok (some base) u ∧
      (host.level j).continuations true .list (host.level j).rounds base u =
        (host.level j).continuations true .list (left + 2) e t := by
  obtain ⟨base, u, hoperand, hcontinued⟩ := expr_inv (congrFun (host.level_optExpr k) _) h
  have halike := host.level_deepens (Nat.le_of_lt hkj)
  have hfollows : Follows (fun _ => True) [] ((host.level k).operand? { level := .assignment })
      ((host.level j).operand? { level := .assignment }) := halike.operand?_follows _
  obtain ⟨hoperand', hu, hknows⟩ := hfollows.ok hs nofun hoperand
  have hfollows := halike.continuations_follows true .assignment (host.level k).rounds base (places base)
    (List.Subset.refl _)
  rw [places_some] at hknows
  obtain ⟨hcontinued', -⟩ := hfollows.ok hu hknows hcontinued
  have hfuel : (host.level k).rounds < (host.level j).rounds := by
    rw [host.level_rounds, host.level_rounds]
    omega
  obtain ⟨left, hleft, hpass⟩ := continuations_list hfuel.le hcontinued'
  obtain ⟨left, rfl⟩ : ∃ less, left = less + 1 := ⟨left - 1, by omega⟩
  exact ⟨base, u, left, (operand?_list s).trans hoperand', hpass⟩

namespace Items

theorem single (h : Items (host.level k) s items t) : ∀ e ∈ items, e.IsSingle := by
  have hread : ∀ {s e t}, (host.level k).assignmentExpr true s = .ok e t → e.IsSingle := by
    intro s e t he
    cases k with
    | zero => cases he
    | succ p => exact assignmentExpr_yields _ (host.level_optExpr p) true he
  induction h with
  | last he => exact List.forall_mem_singleton.mpr (hread he)
  | more he _ _ _ ih => exact List.forall_mem_cons.mpr ⟨hread he, ih⟩

theorem kind (h : Items (host.level k) s items t) : t.token.kind = .rightBracket := by
  induction h with
  | last _ hkind => exact hkind
  | more _ _ _ _ ih => exact ih

theorem sound (h : Items (host.level k) s items t) (hs : s.Sound) : t.Sound := by
  induction h with
  | last he => exact (assignmentExpr_deepens (Nat.le_refl k) hs he).2
  | more he _ hnext _ ih => exact ih ((assignmentExpr_deepens (Nat.le_refl k) hs he).2.next hnext)

/-- Each item takes something from the text. -/
theorem left (h : Items (host.level k) s items t) : items.length + t.left ≤ s.left := by
  induction h with
  | last he =>
    have hitem := assignmentExpr_left he
    simp only [List.length_singleton]
    omega
  | more he hcomma hnext _ ih =>
    have hitem := assignmentExpr_left he
    have hmark := next_left (by simp [hcomma]) hnext
    simp only [List.length_cons]
    omega

/-- As a comma list, the items are read in their order. -/
theorem separated (h : Items (host.level k) s items t) (hkj : k ≤ j) (hs : s.Sound) : ∀ {fuel : Nat},
    items.length ≤ fuel → Parse.separated ((host.level j).assignmentExpr true) fuel s = .ok items t := by
  induction h with
  | last he hbracket =>
    intro fuel hfuel
    obtain _ | fuel := fuel
    · exact absurd hfuel (Nat.not_succ_le_zero _)
    obtain ⟨hread, -⟩ := assignmentExpr_deepens hkj hs he
    rw [Parse.separated, bind_of_ok hread, bind_of_ok (consume_no (by simp [hbracket]))]
    rfl
  | more he hcomma hnext _ ih =>
    intro fuel hfuel
    obtain _ | fuel := fuel
    · exact absurd hfuel (Nat.not_succ_le_zero _)
    obtain ⟨hread, ht⟩ := assignmentExpr_deepens hkj hs he
    have hrest := ih (ht.next hnext) (Nat.le_of_succ_le_succ hfuel)
    rw [Parse.separated, bind_of_ok hread, bind_of_ok (consume_yes hcomma hnext), if_pos rfl,
      bind_of_ok hrest]
    rfl

/-- As items of an array, they are read in their order, too. -/
theorem arrayItems (h : Items (host.level (k + 1)) s items t) (hkj : k ≤ j) (hs : s.Sound) : ∀ {fuel : Nat},
    items.length ≤ fuel → (host.level (j + 1)).arrayItems fuel s = .ok (items.map some) t := by
  have hitem : ∀ {s e t}, s.Sound → (host.level (k + 1)).assignmentExpr true s = .ok e t →
      s.token.kind ≠ .comma ∧ s.token.kind ≠ .rightBracket ∧
        (host.level (j + 1)).arrayItem s = .ok e t ∧ t.Sound := by
    intro s e t hs he
    have hrefused : ∀ kind ∈ [TokenKind.ellipsis, .rightParen, .comma, .rightBracket],
        s.token.kind ≠ kind := fun kind hmem heq =>
      expr_refuses (host.level_optExpr k) (heq ▸ hmem) he
    obtain ⟨hread, ht⟩ := assignmentExpr_deepens (Nat.succ_le_succ hkj) hs he
    refine ⟨hrefused _ (by decide), hrefused _ (by decide), ?_, ht⟩
    unfold arrayItem
    rw [mark_bind, bind_of_ok (consume_no (hrefused .ellipsis (by decide)))]
    exact hread
  induction h with
  | last he hbracket =>
    intro fuel hfuel
    obtain _ | fuel := fuel
    · exact absurd hfuel (Nat.not_succ_le_zero _)
    obtain ⟨hhole, hopen, hread, -⟩ := hitem hs he
    rw [Rules.arrayItems, bind_of_ok (consume_no hhole), if_neg Bool.false_ne_true, at?_bind,
      beq_false_of_ne hopen, if_neg Bool.false_ne_true, bind_of_ok hread,
      bind_of_ok (consume_no (by simp [hbracket]))]
    rfl
  | more he hcomma hnext _ ih =>
    intro fuel hfuel
    obtain _ | fuel := fuel
    · exact absurd hfuel (Nat.not_succ_le_zero _)
    obtain ⟨hhole, hopen, hread, ht⟩ := hitem hs he
    have hrest := ih (ht.next hnext) (Nat.le_of_succ_le_succ hfuel)
    rw [Rules.arrayItems, bind_of_ok (consume_no hhole), if_neg Bool.false_ne_true, at?_bind,
      beq_false_of_ne hopen, if_neg Bool.false_ne_true, bind_of_ok hread,
      bind_of_ok (consume_yes hcomma hnext), if_pos rfl, bind_of_ok hrest]
    rfl

/-- As the key of an index, they are read as one expression or as a comma list. -/
theorem expr (h : Items (host.level (k + 1)) s items t) (hkj : k < j) (hs : s.Sound)
    (hitems : items.length ≤ j + 2) :
    ∃ key, (host.level (j + 1)).expr {} s = .ok key t ∧ listItems key = items := by
  cases h with
  | @last _ t e he hbracket =>
    obtain ⟨base, u, left, hoperand, hpass⟩ := assignmentExpr_goesOn hkj hs he
    have hover : continuation? true .list t = none :=
      continuation?_over (by rw [hbracket]; rfl) (by simp [hbracket])
    refine ⟨e, expr_of_continued (congrFun (host.level_optExpr j) _) hoperand ?_, ?_⟩
    · exact hpass.trans (RulesShadow.continuations_none hover)
    · exact (Items.last he hbracket).single e List.mem_cons_self |>.listItems
  | @more _ v w _ e rest he hcomma hnext hrest =>
    obtain ⟨base, u, left, hoperand, hpass⟩ := assignmentExpr_goesOn hkj hs he
    have hw : w.Sound := (assignmentExpr_deepens (Nat.le_refl _) hs he).2.next hnext
    have hlist : Parse.separated ((host.level j).assignmentExpr true) (host.level j).rounds w = .ok rest t := by
      refine hrest.separated hkj hw ?_
      rw [host.level_rounds]
      exact (Nat.le_succ _).trans hitems
    have hover : continuation? true .list t = none :=
      continuation?_over (by rw [hrest.kind]; rfl) (by simp [hrest.kind])
    refine ⟨.list ((Mark.ofSpan e.span).«to» t.previous.span) (e :: rest), ?_, rfl⟩
    refine expr_of_continued (congrFun (host.level_optExpr j) _) hoperand (hpass.trans ?_)
    rw [RulesShadow.continuations_some (continuation?_comma hcomma), bind_of_ok hnext]
    show ((host.level j).listContinuation true _ e >>= _) w = _
    unfold listContinuation
    rw [bind_assoc, bind_of_ok hlist, bind_assoc, finish_bind]
    exact RulesShadow.continuations_none hover

/-- A bracket that goes on with no expression is an array. -/
theorem array (h : Items (host.level (k + 1)) t items u) (hkj : k ≤ j) (ht : t.Sound)
    (hitems : items.length ≤ j + 2) (hopen : s.token.kind = .leftBracket) (hnext : Parse.next s = .ok () t)
    (hclose : Parse.next u = .ok () v) (hcolon : v.token.kind ≠ .colon) (mode : ExprMode) :
    ∃ span, (host.level (j + 1)).operand? mode s = .ok (some (.array span (items.map some) none)) v := by
  refine ⟨(Mark.ofSpan s.token.span).«to» v.previous.span, operand?_bracket hopen hnext mode ?_⟩
  have hread : (host.level (j + 1)).arrayItems (host.level (j + 1)).rounds t = .ok (items.map some) u :=
    h.arrayItems hkj ht (by rw [host.level_rounds]; omega)
  have hannotation : optAnnotation (host.level (j + 1)) v = .ok none v := by
    unfold optAnnotation
    rw [bind_of_ok (consume_no hcolon)]
    rfl
  unfold arrayInitializer
  rw [bind_of_ok hread, bind_of_ok (expect_yes h.kind hclose), bind_of_ok hannotation, finish_bind]
  rfl

/-- A bracket that goes on with an expression is an index. -/
theorem index (h : Items (host.level (k + 1)) s items t) (hkj : k < j) (hs : s.Sound)
    (hitems : items.length ≤ j + 2) (hclose : Parse.next t = .ok () u) (m : Mark) (base : Expr) :
    ∃ span key, (host.level (j + 1)).indexContinuation m base false s = .ok (.index span base key false) u ∧
      listItems key = items := by
  obtain ⟨key, hkey, hlist⟩ := h.expr hkj hs hitems
  refine ⟨m.«to» u.previous.span, key, ?_, hlist⟩
  unfold indexContinuation
  rw [bind_of_ok hkey, bind_of_ok (expect_yes h.kind hclose), finish_bind]
  rfl

end Items

/-- All items of an array are decorators. -/
theorem decoratorsOf_array {span : Span} (h : ∀ e ∈ items, e.IsSingle) :
    decoratorsOf (.array span (items.map some) none) = items := by
  have hitems : (items.map some).filterMap id = items := by simp
  rw [decoratorsOf, hitems]
  exact List.filter_eq_self.mpr fun e he => by rw [(h e he).isSpread]; rfl

end Items

namespace Brackets

variable {host : Host} {k j : Nat} {s t w : ParserState} {groups : List (List Expr)}

theorem sound (h : Brackets (host.level k) s groups w) (hs : s.Sound) : w.Sound := by
  induction h with
  | nil => exact hs
  | cons _ hnext hitems hclose _ ih => exact ih ((hitems.sound (hs.next hnext)).next hclose)

/-- Each bracket and each item takes something from the text. -/
theorem left (h : Brackets (host.level k) s groups w) : groups.length + w.left ≤ s.left := by
  induction h with
  | nil s => exact Nat.le_of_eq (Nat.zero_add _)
  | cons hopen hnext hitems hclose _ ih =>
    have hmark := next_left (by simp [hopen]) hnext
    have hinner := hitems.left
    have hmark' := next_left (by simp [hitems.kind]) hclose
    simp only [List.length_cons]
    omega

/-- In front of a definition, brackets are followed by another bracket or by the definition. -/
theorem facing (h : Brackets (host.level k) s groups w) (hw : Words.beginsDecorated w.token = true) :
    s.token.kind ≠ .colon := by
  cases h with
  | nil =>
    rcases Words.beginsDecorated_kind hw with hkind | hkind <;> simp [hkind]
  | cons hopen => simp [hopen]

/-- The brackets that go on with an expression become indices, and the others stay. -/
theorem continuations (h : Brackets (host.level (k + 1)) s groups w) (hkj : k < j) (hs : s.Sound)
    (hw : Words.beginsDecorated w.token = true) (hleft : s.left ≤ j + 2) :
    ∀ (fuel : Nat) (base : Expr), groups.length < fuel → isDecorators base = true →
      ∃ e t taken others, groups = taken ++ others ∧
        (host.level (j + 1)).continuations true .list fuel base s = .ok e t ∧ isDecorators e = true ∧
        decoratorsOf e = decoratorsOf base ++ taken.flatten ∧ Brackets (host.level (k + 1)) s taken t ∧
        Brackets (host.level (k + 1)) t others w := by
  induction h with
  | nil s =>
    intro fuel base hfuel hbase
    obtain _ | fuel := fuel
    · exact absurd hfuel (Nat.not_lt_zero _)
    refine ⟨base, s, [], [], rfl, ?_, hbase, by simp, .nil s, .nil s⟩
    exact RulesShadow.continuations_none (Words.continuation?_decorated hw)
  | @cons s t u v w items groups hopen hnext hitems hclose hrest ih =>
    intro fuel base hfuel hbase
    obtain _ | fuel := fuel
    · exact absurd hfuel (Nat.not_lt_zero _)
    rw [continuations_bracket (Or.inr hopen)]
    split
    · have ht := hs.next hnext
      have hmark := next_left (by simp [hopen]) hnext
      have hinner := hitems.left
      have hmark' := next_left (by simp [hitems.kind]) hclose
      obtain ⟨span, key, hindex, hkey⟩ := hitems.index hkj ht (by omega) hclose (Mark.ofSpan base.span) base
      obtain ⟨e, x, taken, others, rfl, hread, he, hsame, htaken, hothers⟩ :=
        ih ((hitems.sound ht).next hclose) hw (by omega) fuel (.index span base key false)
          (Nat.lt_of_succ_lt_succ hfuel) (by simpa [isDecorators] using hbase)
      refine ⟨e, x, items :: taken, others, rfl, ?_, he, ?_, .cons hopen hnext hitems hclose htaken, hothers⟩
      · rw [bind_of_ok hnext, hopen]
        unfold bracketContinuation
        rw [if_neg (by decide), bind_of_ok hindex]
        exact hread
      · rw [hsame, decoratorsOf, hkey, List.flatten_cons, List.append_assoc]
    · exact ⟨base, s, [], items :: groups, rfl, rfl, hbase, by simp, .nil s,
        .cons hopen hnext hitems hclose hrest⟩

/-- An expression that begins with a bracket takes that bracket and those that go on with it. -/
theorem exprRule {items : List Expr} (h : Brackets (host.level (k + 1)) s (items :: groups) w) (hkj : k < j)
    (hs : s.Sound) (hw : Words.beginsDecorated w.token = true) (hleft : s.left ≤ j + 2) :
    ∃ e t taken others, groups = taken ++ others ∧ (host.level (j + 1)).exprRule {} s = .ok e t ∧
      isDecorators e = true ∧ decoratorsOf e = items ++ taken.flatten ∧ t.Sound ∧ t.left ≤ s.left ∧
      Brackets (host.level (k + 1)) t others w := by
  cases h with
  | @cons _ t u v _ _ _ hopen hnext hitems hclose hrest =>
    have ht := hs.next hnext
    have hv := (hitems.sound ht).next hclose
    have hmark := next_left (by simp [hopen]) hnext
    have hinner := hitems.left
    have hmark' := next_left (by simp [hitems.kind]) hclose
    have hcount := hrest.left
    obtain ⟨span, harray⟩ := hitems.array (Nat.le_of_lt hkj) ht (by omega) hopen hnext hclose
      (hrest.facing hw) {}
    obtain ⟨e, x, taken, others, rfl, hread, he, hsame, htaken, hothers⟩ :=
      hrest.continuations hkj hv hw (by omega) (host.level (j + 1)).rounds (.array span (items.map some) none)
        (by rw [host.level_rounds]; omega) rfl
    have htakenLeft := htaken.left
    refine ⟨e, x, taken, others, rfl, ?_, he, ?_, htaken.sound hv, by omega, hothers⟩
    · unfold Rules.exprRule optExprRule
      rw [bind_assoc, bind_of_ok harray]
      show ((host.level (j + 1)).continuations true .list _ _ >>= _ >>= _) v = _
      rw [bind_assoc, bind_of_ok hread]
      rfl
    · rw [hsame, decoratorsOf_array hitems.single]

/-- However they are laid out, brackets in front of a definition are all read, and what they hold stands
there in the same order. -/
theorem moreBrackets (hkj : k < j) (hw : Words.beginsDecorated w.token = true) :
    ∀ {groups : List (List Expr)} {s : ParserState} {fuel : Nat} (read : List Expr),
      Brackets (host.level (k + 1)) s groups w → s.Sound → s.left ≤ j + 2 → groups.length < fuel →
      (read.getLast?.map isDecorators).getD false = true →
      ∃ new, (host.level (j + 2)).moreBrackets fuel read s = .ok (read ++ new) w ∧
        (∀ e ∈ new, isDecorators e = true) ∧ new.flatMap decoratorsOf = groups.flatten
  | [], s, fuel, read, h, _, _, hfuel, _ => by
    obtain _ | fuel := fuel
    · exact absurd hfuel (Nat.not_lt_zero _)
    cases h
    have hopen : (w.token.kind == .leftBracket) = false := by
      rcases Words.beginsDecorated_kind hw with hkind | hkind <;> rw [hkind] <;> rfl
    refine ⟨[], ?_, nofun, rfl⟩
    rw [Rules.moreBrackets, get_bind, hopen, Bool.and_false, List.append_nil]
    rfl
  | items :: groups, s, fuel, read, h, hs, hleft, hfuel, hread => by
    obtain _ | fuel := fuel
    · exact absurd hfuel (Nat.not_lt_zero _)
    have hopen : s.token.kind = .leftBracket := by
      cases h with
      | cons hopen => exact hopen
    obtain ⟨e, t, taken, others, rfl, hexpr, he, hsame, ht, hless, hothers⟩ := h.exprRule hkj hs hw hleft
    have hexpr' : (host.level (j + 2)).expr {} s = .ok e t := hexpr
    have hcount : others.length < fuel := by
      simp only [List.length_cons, List.length_append] at hfuel
      omega
    obtain ⟨new, hmore, hnew, hflat⟩ := moreBrackets hkj hw (read ++ [e]) hothers ht (hless.trans hleft) hcount
      (by simp [he])
    refine ⟨e :: new, ?_, List.forall_mem_cons.mpr ⟨he, hnew⟩, ?_⟩
    · rw [Rules.moreBrackets, get_bind, hread, hopen]
      show ((host.level (j + 2)).expr {} >>= _) s = _
      rw [bind_of_ok hexpr', hmore, List.append_assoc]
      rfl
    · rw [List.flatMap_cons, hflat, hsame, List.flatten_cons, List.flatten_append, List.append_assoc]
termination_by groups => groups.length

/-- Brackets in front of a definition are read as its decorators. -/
theorem bracketStatement (h : Brackets (host.level (k + 1)) s groups w) (hkj : k < j) (hs : s.Sound)
    (hopen : s.token.kind = .leftBracket) (hw : Words.beginsDecorated w.token = true) (hleft : s.left ≤ j + 2)
    (context : Context) (m : Mark) :
    (host.level (j + 2)).bracketStatement context m s =
      (host.level (j + 2)).modifiedDefinition { decorators := some groups.flatten } context m w := by
  obtain _ | ⟨items, groups⟩ := groups
  · cases h
    rcases Words.beginsDecorated_kind hw with hkind | hkind <;> cases hopen.symm.trans hkind
  have hcount := h.left
  obtain ⟨e, t, taken, others, rfl, hexpr, he, hsame, ht, hless, hothers⟩ :=
    h.exprRule (Nat.lt_succ_of_lt hkj) hs hw (Nat.le_succ_of_le hleft)
  have hrounds : others.length < (host.level (j + 2)).rounds := by
    rw [host.level_rounds]
    simp only [List.length_cons, List.length_append] at hcount
    omega
  obtain ⟨new, hmore, hnew, hflat⟩ := moreBrackets hkj hw [e] hothers ht (hless.trans hleft) hrounds
    (by simp [he])
  have hall : ([e] ++ new).all isDecorators = true :=
    List.all_eq_true.mpr (List.forall_mem_cons.mpr ⟨he, hnew⟩)
  have hdecorators : ([e] ++ new).flatMap decoratorsOf = (items :: (taken ++ others)).flatten := by
    rw [List.singleton_append, List.flatMap_cons, hflat, hsame, List.flatten_cons, List.flatten_append,
      List.append_assoc]
  unfold Rules.bracketStatement
  rw [bind_of_ok hexpr, bind_of_ok hmore, token_bind, hall, hw, hdecorators]
  rfl

end Brackets

end Decorators

end ActionSyntax
