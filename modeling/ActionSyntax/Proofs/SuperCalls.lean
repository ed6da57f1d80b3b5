import ActionSyntax.Proofs.JumpProblems

/-!
Calls of the super constructor. The first one that stands directly in the block of a constructor may
stand there. While a tree is built, a problem is reported for every other one, in the order in which
they end.
-/

namespace ActionSyntax

set_option autoImplicit false

open Parse Rules
open Piece (Among)

section Standing

namespace Statement

def isSuperCall : Statement → Bool
  | .superCall .. => true
  | _ => false

/-- Where calls of the super constructor stand and where they may stand is told by these. -/
def isConstructing : Statement → Bool
  | .superCall .. | .constructorDef .. => true
  | _ => false

end Statement

/-- The statements that stand directly in the block of a function, if it has one. -/
def FunctionBody.statements : Option FunctionBody → List Statement
  | some (.block b) => b.statements
  | _ => []

def FunctionCommon.statements (f : FunctionCommon) : List Statement := FunctionBody.statements f.body

namespace Piece

def isSuperCall : Piece → Bool
  | .statement _ s => s.isSuperCall
  | _ => false

/-- The statements that stand directly in the block that the piece is or has. -/
def statements : Piece → List Statement
  | .block _ b => b.statements
  | .body _ b => FunctionBody.statements b
  | .function f => f.statements
  | _ => []

theorem isSuperCall_of_isInert {p : Piece} (h : p.isInert = true) : p.isSuperCall = false := by
  unfold isSuperCall
  split
  · rename_i around s
    cases s <;> first | rfl | cases h
  · rfl

theorem statements_of_isInert {p : Piece} (h : p.isInert = true) : p.statements = [] := by
  cases p <;> first | rfl | cases h

/-- The body of a function is no call, whatever it consists of. -/
theorem any_body (b : Option FunctionBody) :
    (b.toList.map FunctionBody.piece).any isSuperCall = false := by
  rcases b with _ | (_ | _) <;> rfl

/-- The call is the first one directly in the block of a constructor among the pieces. -/
def Initial (ps : List Piece) (s : Statement) : Prop :=
  ∃ around span a id f, Among true ps (.statement around (.constructorDef span a id f)) ∧
    f.statements.find? Statement.isSuperCall = some s

/-- In the block of a constructor, the call is the first one among the pieces, unless there has been one
before, or it is the first one in a block among the pieces. -/
def Leading (found : Bool) (ps : List Piece) (s : Statement) : Prop :=
  (found = false ∧ ∃ around, ps.find? isSuperCall = some (.statement around s)) ∨
    ∃ p ∈ ps, p.statements.find? Statement.isSuperCall = some s

/-- No block of a constructor among the pieces has two calls. -/
def Single (ps : List Piece) : Prop :=
  ∀ around span a id f, Among true ps (.statement around (.constructorDef span a id f)) →
    f.statements.countP Statement.isSuperCall ≤ 1

/-- In the block of a constructor, there is no call besides one. -/
def Sole (found : Bool) (ps : List Piece) : Prop :=
  ps.countP isSuperCall + found.toNat ≤ 1 ∧
    ∀ p ∈ ps, p.statements.countP Statement.isSuperCall ≤ 1

section Leading

variable {found : Bool} {ps qs : List Piece} {s : Statement}

theorem leading_append : Leading found (ps ++ qs) s ↔
    Leading found ps s ∨ Leading (found || ps.any isSuperCall) qs s := by
  have hfind : (∃ around, (ps ++ qs).find? isSuperCall = some (.statement around s)) ↔
      (∃ around, ps.find? isSuperCall = some (.statement around s)) ∨
        ps.any isSuperCall = false ∧ ∃ around, qs.find? isSuperCall = some (.statement around s) := by
    rw [List.find?_append]
    cases hps : ps.find? isSuperCall with
    | none =>
      have hany : ps.any isSuperCall = false := by simpa using hps
      simp [hany]
    | some p =>
      have hany : ps.any isSuperCall = true :=
        List.any_eq_true.mpr ⟨p, List.mem_of_find?_eq_some hps, List.find?_some hps⟩
      simp [hany]
  unfold Leading
  rw [hfind]
  simp only [List.mem_append, or_and_right, exists_or, Bool.or_eq_false_iff]
  rw [and_or_left, or_or_or_comm, and_assoc]

theorem Sole.append (h : Sole found ps) (h' : Sole (found || ps.any isSuperCall) qs) :
    Sole found (ps ++ qs) := by
  obtain ⟨hcount, hblocks⟩ := h
  obtain ⟨hcount', hblocks'⟩ := h'
  refine ⟨?_, fun p hp => (List.mem_append.mp hp).elim (hblocks p) (hblocks' p)⟩
  rw [List.countP_append]
  cases hany : ps.any isSuperCall with
  | true =>
    rw [hany, Bool.or_true, Bool.toNat_true] at hcount'
    omega
  | false =>
    have hnone : ps.countP isSuperCall = 0 := by
      rw [List.countP_eq_zero]
      simpa using hany
    rw [hany, Bool.or_false] at hcount'
    omega

theorem leading_cons {p : Piece} (h : p.isSuperCall = false) : Leading found (p :: ps) s ↔
    p.statements.find? Statement.isSuperCall = some s ∨ Leading found ps s := by
  unfold Leading
  rw [List.find?_cons_of_neg (by simp [h]), List.exists_mem_cons_iff, or_left_comm]

theorem sole_cons {p : Piece} (h : p.isSuperCall = false) : Sole found (p :: ps) ↔
    p.statements.countP Statement.isSuperCall ≤ 1 ∧ Sole found ps := by
  unfold Sole
  rw [List.countP_cons_of_neg (by simp [h]), List.forall_mem_cons, and_left_comm]

/-- Pieces that are no calls and have no block of their own. -/
structure Aloof (ps : List Piece) : Prop where
  calls : ∀ p ∈ ps, p.isSuperCall = false
  blocks : ∀ p ∈ ps, p.statements = []

theorem Aloof.of_isInert (h : ∀ p ∈ ps, p.isInert = true) : Aloof ps :=
  ⟨fun p hp => isSuperCall_of_isInert (h p hp), fun p hp => statements_of_isInert (h p hp)⟩

theorem Aloof.nil : Aloof [] := ⟨by simp, by simp⟩

theorem Aloof.any (h : Aloof ps) : ps.any isSuperCall = false := by
  simpa using h.calls

theorem Aloof.not_leading (h : Aloof ps) : ¬ Leading found ps s := by
  rintro (⟨-, around, hfind⟩ | ⟨p, hp, hfind⟩)
  · have hnone := h.calls _ (List.mem_of_find?_eq_some hfind)
    have hsome := List.find?_some hfind
    rw [hnone] at hsome
    cases hsome
  · rw [h.blocks p hp] at hfind
    cases hfind

theorem Aloof.sole (h : Aloof ps) : Sole found ps := by
  refine ⟨?_, fun p hp => ?_⟩
  · have hnone : ps.countP isSuperCall = 0 := by
      rw [List.countP_eq_zero]
      intro p hp
      simp [h.calls p hp]
    have hfound := Bool.toNat_le found
    omega
  · rw [h.blocks p hp]
    exact Nat.zero_le 1

theorem Aloof.leading_append (h : Aloof ps) : Leading found (ps ++ qs) s ↔ Leading found qs s := by
  rw [Piece.leading_append, or_iff_right h.not_leading, h.any, Bool.or_false]

theorem Sole.of_append (h : Sole found (ps ++ qs)) : Sole found qs := by
  obtain ⟨hcount, hblocks⟩ := h
  rw [List.countP_append] at hcount
  exact ⟨by omega, fun p hp => hblocks p (List.mem_append_right _ hp)⟩

/-- No call stands directly in a node that is not told from others, nor where a function is read. -/
theorem any_children {c : Bool} {p : Piece} {others : List Piece} (plain : p.isPlain = true)
    (beside : others = [] ∨ ∃ f, p = .function f) :
    (p.bearing c && (p.children ++ others).any isSuperCall) = (c && (p :: others).any isSuperCall) := by
  have hfunction : ∀ f : FunctionCommon, f.children.any isSuperCall = false := by
    intro f
    rw [f.children_eq, List.any_append, (Aloof.of_isInert f.signature_inert).any]
    rfl
  rcases beside with rfl | ⟨f, rfl⟩
  · rw [List.append_nil, List.any_cons, List.any_nil, Bool.or_false]
    cases p with
    | function f =>
      show (c && f.children.any isSuperCall) = _
      rw [hfunction]
      rfl
    | block | body => cases plain
    | statement around s =>
      cases s with
      | constructorDef span a id f =>
        have hnamed : (a.pieces ++ [Piece.identifier id]).any isSuperCall = false :=
          (Aloof.of_isInert a.named_inert).any
        have hchildren : (Piece.statement around (.constructorDef span a id f)).children =
            (a.pieces ++ [.identifier id]) ++ [.function f] := by
          simp [children, Statement.children]
        rw [hchildren, List.any_append, hnamed]
        exact (Bool.and_false c).symm
      | superCall | includeSource => cases plain
      | _ => exact (Bool.and_false c).symm
    | _ => exact (Bool.and_false c).symm
  · show (c && (f.children ++ others).any isSuperCall) = _
    rw [List.any_append, hfunction]
    rfl

end Leading

end Piece

end Standing

open Piece (Initial Leading Single Sole Aloof)

/-- The problems with calls of the super constructor, in the order in which they have been reported. -/
def Script.superProblems (s : Script) : List Problem :=
  s.problems.toList.filter (·.id == .unexpectedSuperStatement)

theorem Script.superProblems_collect (s : Script) (p : Problem) :
    (s.collect p).superProblems =
      s.superProblems ++ if p.id == .unexpectedSuperStatement then [p] else [] := by
  simp [superProblems, collect, List.filter_append, List.filter_cons]

theorem Script.superProblems_aside (s : Script) {p : Problem} (h : p.id.isAside = true) :
    (s.collect p).superProblems = s.superProblems := by
  have hother : (p.id == .unexpectedSuperStatement) = false := by
    have hne := (Bool.and_eq_true_iff.mp h).2
    simpa using hne
  rw [superProblems_collect, hother]
  exact List.append_nil _

/-- A jump is no call of the super constructor. -/
theorem ParserState.afterJump_superProblems (s : ParserState) (around : Situation) (jump : Statement) :
    (s.afterJump around jump).script.superProblems = s.script.superProblems ∧
      (s.afterJump around jump).token = s.token ∧
      (s.afterJump around jump).superFound = s.superFound := by
  rcases s.afterJump_cases around jump with ⟨-, ht⟩ | ⟨p, hp, ht⟩
  · rw [ht]
    exact ⟨rfl, rfl, rfl⟩
  · have hjump := (Statement.jumpProblem?_some hp).2.1
    have hother : (p.id == .unexpectedSuperStatement) = false := by
      cases hid : p.id <;> first | rfl | simp [hid, ProblemId.isJump] at hjump
    rw [ht]
    refine ⟨?_, rfl, rfl⟩
    show (s.script.collect p).superProblems = _
    rw [Script.superProblems_collect, hother]
    exact List.append_nil _

section Accounts

/-- The problems with those of the calls that are not excused. -/
def reportedCalls (calls : List (Statement × Bool)) : List Problem :=
  (calls.filter fun call => !call.2).map fun call => Statement.superProblem call.1.span

/-- The calls of the super constructor that stand in the pieces, in the order in which they end, behind
one offset and up to another. A call is excused where it may stand. The marks tell whether the pieces
stand in the block of a constructor, and whether there has been a call there before. -/
structure Accounts (c found : Bool) (ps : List Piece) (start stop : Nat)
    (calls : List (Statement × Bool)) : Prop where
  mem : ∀ s, (∃ excused, (s, excused) ∈ calls) ↔
    s.isSuperCall = true ∧ ∃ around, Among true ps (.statement around s)
  excused : ∀ s, (s, true) ∈ calls ↔ Initial ps s ∨ c = true ∧ Leading found ps s
  single : (∀ call ∈ calls, call.2 = true) → Single ps ∧ (c = true → Sole found ps)
  sorted : calls.Pairwise fun a b => a.1.span.stop < b.1.span.stop
  between : ∀ call ∈ calls, start < call.1.span.stop ∧ call.1.span.stop ≤ stop

theorem mem_reportedCalls {calls : List (Statement × Bool)} {problem : Problem} :
    problem ∈ reportedCalls calls ↔
      ∃ s, (s, false) ∈ calls ∧ problem = Statement.superProblem s.span := by
  unfold reportedCalls
  rw [List.mem_map]
  constructor
  · rintro ⟨⟨s, excused⟩, hcall, rfl⟩
    obtain ⟨hcall, hnot⟩ := List.mem_filter.mp hcall
    obtain rfl : excused = false := by simpa using hnot
    exact ⟨s, hcall, rfl⟩
  · rintro ⟨s, hcall, rfl⟩
    exact ⟨(s, false), List.mem_filter.mpr ⟨hcall, rfl⟩, rfl⟩

/-- A call of the super constructor is reported unless it is excused, and it is remembered in the block
of a constructor. -/
theorem ParserState.afterSuper_superProblems (s : ParserState) (c : Bool) (span : Span)
    (arguments : List Expr) :
    (s.afterSuper c span).script.superProblems =
        s.script.superProblems ++ reportedCalls [(.superCall span arguments, c && !s.superFound)] ∧
      (s.afterSuper c span).token = s.token ∧
      (s.afterSuper c span).superFound = (s.superFound || c) := by
  rcases s.afterSuper_cases c span with ⟨hexcused, ht⟩ | ⟨hreported, ht⟩
  · rw [ht, hexcused]
    refine ⟨(List.append_nil _).symm, rfl, ?_⟩
    rw [(Bool.and_eq_true_iff.mp hexcused).1, Bool.or_true]
  · rw [ht, hreported]
    refine ⟨s.script.superProblems_collect _, rfl, ?_⟩
    show s.superFound = _
    cases hfound : s.superFound with
    | true => rfl
    | false => simpa [hfound] using hreported.symm

namespace Accounts

variable {c c' found found' : Bool} {ps qs : List Piece} {start middle stop : Nat}
  {calls more : List (Statement × Bool)}

/-- No call and no constructor stands there. -/
theorem none (haloof : Aloof ps) (h : ∀ around s, s.isConstructing = true →
    ¬ Among true ps (.statement around s)) : Accounts c found ps start stop [] where
  mem s := by
    refine iff_of_false (by simp) ?_
    rintro ⟨hsuper, around, hamong⟩
    refine h around s ?_ hamong
    cases s <;> first | rfl | cases hsuper
  excused s := by
    refine iff_of_false List.not_mem_nil ?_
    rintro (⟨around, span, a, id, f, hamong, -⟩ | ⟨-, hleading⟩)
    · exact h around _ rfl hamong
    · exact haloof.not_leading hleading
  single _ := ⟨fun around span a id f hamong => (h around _ rfl hamong).elim, fun _ => haloof.sole⟩
  sorted := .nil
  between := nofun

theorem reported_sorted (h : Accounts c found ps start stop calls) :
    (reportedCalls calls).Pairwise fun a b => a.span.stop < b.span.stop :=
  List.pairwise_map.mpr (h.sorted.filter _)

/-- No call is both excused and reported, since no two of them end at one place. -/
theorem excused_once (h : Accounts c found ps start stop calls) {s : Statement}
    (hexcused : (s, true) ∈ calls) : (s, false) ∉ calls := by
  intro hreported
  have hdistinct : (calls.map fun call => call.1.span.stop).Nodup :=
    List.pairwise_map.mpr (h.sorted.imp Nat.ne_of_lt)
  cases List.inj_on_of_nodup_map hdistinct hexcused hreported rfl

theorem eq_nil (h : Accounts c found [] start stop calls) : calls = [] := by
  refine List.eq_nil_iff_forall_not_mem.mpr fun ⟨s, excused⟩ hcall => ?_
  obtain ⟨_, _, hamong⟩ := (h.mem s).mp ⟨excused, hcall⟩
  exact Piece.among_nil hamong

theorem append (h : Accounts c found ps start middle calls)
    (h' : Accounts c (found || (c && ps.any Piece.isSuperCall)) qs middle stop more)
    (hstart : start ≤ middle) (hstop : middle ≤ stop) :
    Accounts c found (ps ++ qs) start stop (calls ++ more) where
  mem s := by
    simp only [List.mem_append, exists_or, h.mem, h'.mem, Piece.among_append, and_or_left]
  excused s := by
    have hinitial : Initial (ps ++ qs) s ↔ Initial ps s ∨ Initial qs s := by
      simp only [Initial, Piece.among_append, or_and_right, exists_or]
    rw [List.mem_append, h.excused, h'.excused, hinitial, Piece.leading_append]
    cases c with
    | false => simp
    | true =>
      simp only [Bool.true_and, true_and]
      exact or_or_or_comm
  single hall := by
    obtain ⟨hfirst, hsole⟩ := h.single fun call hcall => hall call (List.mem_append_left _ hcall)
    obtain ⟨hsecond, hsole'⟩ := h'.single fun call hcall => hall call (List.mem_append_right _ hcall)
    refine ⟨fun around span a id f hamong => ?_, fun hc => ?_⟩
    · rcases Piece.among_append.mp hamong with hamong | hamong
      · exact hfirst around span a id f hamong
      · exact hsecond around span a id f hamong
    · subst hc
      exact (hsole rfl).append (by simpa using hsole' rfl)
  sorted := List.pairwise_append.mpr ⟨h.sorted, h'.sorted, fun a ha b hb =>
    (h.between a ha).2.trans_lt (h'.between b hb).1⟩
  between call hcall := by
    rcases List.mem_append.mp hcall with hcall | hcall
    · exact (h.between call hcall).imp_right fun hle => hle.trans hstop
    · exact (h'.between call hcall).imp_left hstart.trans_lt

/-- The same calls and constructors stand in other pieces, and those that may stand where they do are
the same. -/
theorem transfer (h : Accounts c found ps start stop calls)
    (hamong : ∀ around s, s.isConstructing = true →
      (Among true qs (.statement around s) ↔ Among true ps (.statement around s)))
    (hleading : ∀ s, (c' = true ∧ Leading found' qs s) ↔ (c = true ∧ Leading found ps s))
    (hsole : (c = true → Sole found ps) → c' = true → Sole found' qs) :
    Accounts c' found' qs start stop calls where
  mem s := by
    rw [h.mem]
    refine and_congr_right fun hsuper => exists_congr fun around => (hamong around s ?_).symm
    cases s <;> first | rfl | cases hsuper
  excused s := by
    rw [h.excused, hleading]
    refine or_congr_left ?_
    unfold Initial
    simp only [hamong _ (.constructorDef _ _ _ _) rfl]
  single hall := by
    obtain ⟨hfirst, hhere⟩ := h.single hall
    refine ⟨fun around span a id f h => ?_, hsole hhere⟩
    exact hfirst around span a id f ((hamong around _ rfl).mp h)
  sorted := h.sorted
  between := h.between

/-- Pieces that are made out of others, elsewhere than in a constructor. -/
theorem congr (h : Accounts false found ps start stop calls)
    (hamong : ∀ around s, s.isConstructing = true →
      (Among true qs (.statement around s) ↔ Among true ps (.statement around s))) :
    Accounts false found' qs start stop calls :=
  h.transfer hamong (by simp) nofun

/-- Aloof pieces may stand in a constructor as well as elsewhere. -/
theorem anywhere (h : Accounts false found ps start stop calls) (haloof : Aloof ps) :
    Accounts c found' ps start stop calls :=
  h.transfer (fun _ _ _ => Iff.rfl) (fun _ => iff_of_false (fun h => haloof.not_leading h.2) nofun)
    fun _ _ => haloof.sole

section Nodes

/-- A constructor excuses the first call in its block. -/
theorem constructorDef {around : Situation} {span : Span} {a : Attributes} {id : Identifier}
    {f : FunctionCommon}
    (h : Accounts true found (Piece.statement around (.constructorDef span a id f)).children start stop
      calls) :
    Accounts c found' [.statement around (.constructorDef span a id f)] start stop calls := by
  have haloof : Aloof (a.pieces ++ [.identifier id]) := .of_isInert a.named_inert
  have hchildren : (Piece.statement around (.constructorDef span a id f)).children =
      (a.pieces ++ [.identifier id]) ++ [.function f] := by
    simp [Piece.children, Statement.children]
  have hself : Aloof [.statement around (.constructorDef span a id f)] := .of_isInert (by simp [Piece.isInert])
  have hamong : ∀ q, Among true [.statement around (.constructorDef span a id f)] q ↔
      q = .statement around (.constructorDef span a id f) ∨
        Among true (Piece.statement around (.constructorDef span a id f)).children q := by
    intro q
    simp [Piece.entered]
  have hleading : ∀ s, Leading found
      (Piece.statement around (.constructorDef span a id f)).children s ↔
        f.statements.find? Statement.isSuperCall = some s := by
    intro s
    rw [hchildren, haloof.leading_append, Piece.leading_cons rfl, or_iff_left]
    · rfl
    · exact Aloof.nil.not_leading
  exact
    { mem := fun s => by
        rw [h.mem]
        refine and_congr_right fun hsuper => exists_congr fun around' => ?_
        rw [hamong, or_iff_right]
        rintro ⟨⟩
        cases hsuper
      excused := fun s => by
        rw [h.excused, hleading, or_iff_left fun h : c = true ∧ _ => hself.not_leading h.2]
        unfold Initial
        simp only [hamong]
        constructor
        · rintro (⟨around', span', a', id', f', hin, hfirst⟩ | ⟨_, hfirst⟩)
          · exact ⟨around', span', a', id', f', Or.inr hin, hfirst⟩
          · exact ⟨around, span, a, id, f, Or.inl rfl, hfirst⟩
        · rintro ⟨around', span', a', id', f', heq | hin, hfirst⟩
          · cases heq
            exact Or.inr ⟨trivial, hfirst⟩
          · exact Or.inl ⟨around', span', a', id', f', hin, hfirst⟩
      single := fun hall => by
        obtain ⟨hinside, hsole⟩ := h.single hall
        refine ⟨fun around' span' a' id' f' hin => ?_, fun _ => hself.sole⟩
        rcases (hamong _).mp hin with heq | hin
        · cases heq
          refine (hsole rfl).2 (.function f) ?_
          rw [hchildren]
          exact List.mem_append_right _ List.mem_cons_self
        · exact hinside around' span' a' id' f' hin
      sorted := h.sorted
      between := h.between }

/-- What a function is excused for is what its block is excused for. -/
theorem function {f : FunctionCommon} {others : List Piece}
    (h : Accounts c found (f.children ++ others) start stop calls) :
    Accounts c found (.function f :: others) start stop calls := by
  have haloof : Aloof f.signature := .of_isInert f.signature_inert
  refine h.transfer (fun around s _ => ?_) (fun s => and_congr_right fun _ => ?_) fun hsole hc => ?_
  · simp [Piece.entered, Piece.children]
  · rw [f.children_eq, List.append_assoc, haloof.leading_append, List.singleton_append,
      Piece.leading_cons rfl, Piece.leading_cons rfl]
    rfl
  · have hbehind := hsole hc
    rw [f.children_eq, List.append_assoc] at hbehind
    have hbody := (Piece.sole_cons (p := .body f.use f.body) rfl).mp hbehind.of_append
    exact (Piece.sole_cons rfl).mpr hbody

/-- Blocks that are not those of constructors excuse nothing. -/
theorem plain {p : Piece} (h : Accounts false found p.children start stop calls)
    (hself : Aloof [p]) (hother : ∀ around s, s.isConstructing = true → p ≠ .statement around s)
    (hentered : p.entered true = true) : Accounts c found' [p] start stop calls := by
  refine (h.congr fun around s hs => ?_ : Accounts false found' [p] start stop calls).anywhere hself
  simp [hentered, (hother around s hs).symm]

/-- A block excuses the first call among its statements, if it is that of a constructor. -/
theorem block {around : Situation} {b : Block}
    (h : Accounts c false (b.statements.map (.statement around)) start stop calls) :
    Accounts c found [.block around b] start stop calls := by
  have hcalls : Piece.isSuperCall ∘ Piece.statement around = Statement.isSuperCall := rfl
  have hblocks : ∀ p ∈ b.statements.map (Piece.statement around), p.statements = [] := by
    rintro p hp
    obtain ⟨s, -, rfl⟩ := List.mem_map.mp hp
    rfl
  refine h.transfer (fun around s _ => ?_) (fun s => and_congr_right fun _ => ?_) fun hsole hc => ?_
  · simp [Piece.entered, Piece.children]
  · rw [Piece.leading_cons rfl, or_iff_left Aloof.nil.not_leading]
    constructor
    · intro hfirst
      refine Or.inl ⟨rfl, around, ?_⟩
      rw [List.find?_map, hcalls, show b.statements.find? Statement.isSuperCall = _ from hfirst]
      rfl
    · rintro (⟨-, around', hfirst⟩ | ⟨p, hp, hfirst⟩)
      · rw [List.find?_map, hcalls] at hfirst
        obtain ⟨first, hfind, heq⟩ := Option.map_eq_some_iff.mp hfirst
        cases heq
        exact hfind
      · rw [hblocks p hp] at hfirst
        cases hfirst
  · obtain ⟨hcount, -⟩ := hsole hc
    rw [List.countP_map, hcalls] at hcount
    exact (Piece.sole_cons rfl).mpr ⟨hcount, Aloof.nil.sole⟩

theorem body {use : FunctionUse} {b : Option FunctionBody}
    (h : Accounts c found (b.toList.map FunctionBody.piece) start stop calls) :
    Accounts c found [.body use b] start stop calls := by
  have hpiece : ∀ body : FunctionBody, body.piece.isSuperCall = false ∧
      body.piece.statements = FunctionBody.statements (some body) := by
    rintro (_ | _) <;> exact ⟨rfl, rfl⟩
  refine h.transfer (fun around s _ => ?_) (fun s => and_congr_right fun _ => ?_) fun hsole hc => ?_
  · simp [Piece.entered, Piece.children]
  · rw [Piece.leading_cons rfl]
    cases b with
    | none => exact iff_of_false (fun h => h.elim (by rintro ⟨⟩) Aloof.nil.not_leading) Aloof.nil.not_leading
    | some body =>
      obtain ⟨hcall, hstatements⟩ := hpiece body
      rw [Option.toList_some, List.map_singleton, Piece.leading_cons hcall, hstatements]
      rfl
  · refine (Piece.sole_cons rfl).mpr ⟨?_, Aloof.nil.sole⟩
    cases b with
    | none => exact Nat.zero_le 1
    | some body =>
      obtain ⟨hcall, hstatements⟩ := hpiece body
      have hfirst := ((Piece.sole_cons hcall).mp (hsole hc)).1
      rwa [hstatements] at hfirst

/-- A node that is told from none of the others. -/
theorem node {p : Piece} {others : List Piece}
    (h : Accounts (p.bearing c) found (p.children ++ others) start stop calls) (plain : p.isPlain = true)
    (beside : others = [] ∨ ∃ f, p = .function f) : Accounts c found (p :: others) start stop calls := by
  rcases beside with rfl | ⟨f, rfl⟩
  · rw [List.append_nil] at h
    cases p with
    | function f =>
      rw [← List.append_nil (Piece.function f).children] at h
      exact h.function
    | block | body => cases plain
    | statement around s =>
      cases s with
      | constructorDef => exact h.constructorDef
      | superCall | includeSource => cases plain
      | _ =>
        refine h.plain (.of_isInert (by simp [Piece.isInert])) ?_ rfl
        rintro _ _ hs ⟨⟩
        cases hs
    | _ => exact h.plain (.of_isInert (by simp [Piece.isInert])) (by rintro _ _ _ ⟨⟩) rfl
  · exact h.function

/-- The call of the super constructor ends behind those that stand in its arguments. -/
theorem superCall {around : Situation} {span : Span} {arguments : List Expr}
    (h : Accounts false found' (arguments.map .expr) start middle calls) (hstart : start ≤ middle)
    (hmiddle : middle < span.stop) (hstop : span.stop ≤ stop) :
    Accounts c found [.statement around (.superCall span arguments)] start stop
      (calls ++ [(.superCall span arguments, c && !found)]) := by
  have hamong : ∀ q, Among true [.statement around (.superCall span arguments)] q ↔
      q = .statement around (.superCall span arguments) ∨ Among true (arguments.map .expr) q := by
    intro q
    simp [Piece.entered, Piece.children, Statement.children]
  have hinitial : ∀ s, Initial [.statement around (.superCall span arguments)] s ↔
      Initial (arguments.map .expr) s := by
    intro s
    unfold Initial
    simp [hamong]
  have hleading : ∀ s, Leading found [.statement around (.superCall span arguments)] s ↔
      found = false ∧ s = .superCall span arguments := by
    intro s
    simp [Leading, Piece.isSuperCall, Statement.isSuperCall, Piece.statements, eq_comm]
  exact
    { mem := fun s => by
        simp only [List.mem_append, exists_or, h.mem, List.mem_singleton, Prod.mk.injEq, exists_and_left,
          exists_eq, and_true]
        constructor
        · rintro (⟨hsuper, around', hin⟩ | rfl)
          · exact ⟨hsuper, around', (hamong _).mpr (Or.inr hin)⟩
          · exact ⟨rfl, around, (hamong _).mpr (Or.inl rfl)⟩
        · rintro ⟨hsuper, around', hin⟩
          rcases (hamong _).mp hin with heq | hin
          · cases heq
            exact Or.inr rfl
          · exact Or.inl ⟨hsuper, around', hin⟩
      excused := fun s => by
        rw [List.mem_append, h.excused, hinitial, hleading, List.mem_singleton, Prod.mk.injEq,
          eq_comm (a := true), Bool.and_eq_true, Bool.not_eq_true']
        refine or_congr (by simp) ?_
        tauto
      single := fun hall => by
        obtain ⟨hinside, -⟩ := h.single fun call hcall => hall call (List.mem_append_left _ hcall)
        have hown : (c && !found) = true := hall _ (List.mem_append_right _ List.mem_cons_self)
        refine ⟨fun around' span' a id f hin => ?_, fun _ => ⟨?_, ?_⟩⟩
        · rcases (hamong _).mp hin with heq | hin
          · cases heq
          · exact hinside around' span' a id f hin
        · obtain rfl : found = false := by simpa using (Bool.and_eq_true_iff.mp hown).2
          exact Nat.le_refl 1
        · rintro p hp
          obtain rfl := List.mem_singleton.mp hp
          exact Nat.zero_le 1
      sorted := by
        refine List.pairwise_append.mpr ⟨h.sorted, List.pairwise_singleton _ _, fun a ha b hb => ?_⟩
        obtain rfl := List.mem_singleton.mp hb
        exact (h.between a ha).2.trans_lt hmiddle
      between := fun call hcall => by
        rcases List.mem_append.mp hcall with hcall | hcall
        · exact (h.between call hcall).imp_right fun hle => (hle.trans hmiddle.le).trans hstop
        · obtain rfl := List.mem_singleton.mp hcall
          exact ⟨hstart.trans_lt hmiddle, hstop⟩ }

end Nodes

end Accounts

end Accounts

namespace BuildsIn

variable {lossy : Prop} {c a : Bool} {s t : ParserState} {ps : List Piece}

/-- The last token that is consumed ends behind the first one's start, and in front of the current one. -/
theorem previous_stop (h : BuildsIn lossy c true s ps t) (hs : s.Ordered) :
    s.token.span.start < t.previous.span.stop ∧ t.previous.span.stop ≤ t.token.span.start := by
  obtain ⟨tokens, hconsumes, hne, -⟩ := h.laid hs
  have hpaced := hconsumes.paced hs
  obtain ⟨first, hfirst, last, hlast, hle, hspan, -, -⟩ := hpaced.ends (hne rfl)
  have hstart : (s.token.span.«to» t.previous.span).start = _ := congrArg Span.start hspan
  have hstop : (s.token.span.«to» t.previous.span).stop = _ := congrArg Span.stop hspan
  simp only [Span.to] at hstart hstop
  have hwide := (hpaced.wide last hlast).1
  exact ⟨by omega, hpaced.ordered.previous.offset⟩

/-- If no piece is lost and no parameter is dropped, just the calls of the super constructor among the
pieces that are not excused are reported. That there has been one is remembered in the block of a
constructor. -/
theorem superCalls (h : BuildsIn False c a s ps t) (hs : s.Ordered)
    (hparams : ∀ p ∈ t.script.problems, p.id ≠ .invalidArrowFunctionParam) :
    t.superFound = (s.superFound || (c && ps.any Piece.isSuperCall)) ∧
      ∃ calls, t.script.superProblems = s.script.superProblems ++ reportedCalls calls ∧
        Accounts c s.superFound ps s.token.span.start t.token.span.start calls := by
  have nothing : ∀ {c : Bool} {u v : ParserState},
      v.script.superProblems = u.script.superProblems → v.superFound = u.superFound →
      v.superFound = (u.superFound || (c && ([] : List Piece).any Piece.isSuperCall)) ∧
        ∃ calls, v.script.superProblems = u.script.superProblems ++ reportedCalls calls ∧
          Accounts c u.superFound [] u.token.span.start v.token.span.start calls := by
    intro c u v hsame hfound
    refine ⟨by simpa using hfound, [], ?_, .none .nil fun _ _ _ h => (Piece.among_nil h).elim⟩
    rw [hsame]
    exact (List.append_nil _).symm
  induction h with
  | refl | split => exact nothing rfl rfl
  | next _ ok =>
    exact nothing (congrArg (fun ps : Array Problem => ps.toList.filter _) (Scanner.next_problems ok)) rfl
  | regular _ ok =>
    exact nothing (congrArg (fun ps : Array Problem => ps.toList.filter _)
      (Scanner.readRegularExpression_problems ok)) rfl
  | @report _ s p aside => exact nothing (s.script.superProblems_aside aside) rfl
  | weaken _ ih => exact ih hs hparams
  | anywhere _ inert ih =>
    obtain ⟨hfound, calls, hnew, haccounts⟩ := ih hs hparams
    have haloof := Aloof.of_isInert inert
    refine ⟨?_, calls, hnew, haccounts.anywhere haloof⟩
    rw [hfound, haloof.any, Bool.and_false, Bool.and_false]
  | @seq c a b s t u ps qs h h' ih ih' =>
    obtain ⟨hordered, hle, -⟩ := h.moves hs
    obtain ⟨-, hle', -⟩ := h'.moves hordered
    obtain ⟨hfound, calls, hnew, haccounts⟩ := ih hs fun p hp => hparams p (h'.grows.mem hp)
    obtain ⟨hfound', more, hmore, haccounts'⟩ := ih' hordered hparams
    rw [hfound] at haccounts'
    refine ⟨?_, calls ++ more, ?_, haccounts.append haccounts' hle hle'⟩
    · rw [hfound', hfound, List.any_append, Bool.and_or_distrib_left, Bool.or_assoc]
    · rw [hmore, hnew, reportedCalls, reportedCalls, reportedCalls, List.filter_append, List.map_append,
        List.append_assoc]
  | rework _ reworks ih =>
    obtain ⟨hfound, calls, hnew, haccounts⟩ := ih hs hparams
    exact ⟨hfound, calls, hnew, haccounts.congr fun around s _ => reworks.among true _ rfl⟩
  | lose _ _ why =>
    obtain ⟨p, hp, hid⟩ := (why.resolve_left id).reported
    exact (hparams p hp hid).elim
  | node _ plain beside _ _ _ ih =>
    obtain ⟨hfound, calls, hnew, haccounts⟩ := ih hs hparams
    refine ⟨?_, calls, hnew, haccounts.node plain beside⟩
    rw [hfound, Piece.any_children plain beside]
  | element _ _ _ _ _ _ _ _ _ ih =>
    obtain ⟨hfound, calls, hnew, haccounts⟩ := ih hs hparams
    refine ⟨?_, calls, hnew, haccounts.plain (.of_isInert (by simp [Piece.isInert])) nofun rfl⟩
    simpa [Piece.isSuperCall] using hfound
  | functionType _ ih =>
    obtain ⟨hfound, calls, hnew, haccounts⟩ := ih hs hparams
    refine ⟨hfound, calls, hnew, haccounts.congr fun around s _ => iff_of_false ?_ ?_⟩
    · exact Piece.not_among_typal (Piece.isTypal_type _) rfl
    · exact Piece.not_among_typal (Piece.isTypal_parameters _ _) rfl
  | @front s t u op operand _ note ih =>
    obtain ⟨hfound, calls, hnew, haccounts⟩ := ih hs fun p hp => hparams p ((Rules.noteUse_grows note).mem hp)
    obtain ⟨hproblems, htoken, hsame⟩ : u.script.superProblems = t.script.superProblems ∧
        u.token = t.token ∧ u.superFound = t.superFound := by
      rcases Rules.noteUse_ok note with ⟨p, rfl, -, haside⟩ | ⟨-, rfl⟩
      · exact ⟨t.script.superProblems_aside haside, rfl, rfl⟩
      · exact ⟨rfl, rfl, rfl⟩
    rw [hproblems, htoken, hsame]
    refine ⟨hfound, calls, hnew, haccounts.congr fun around s _ => ?_⟩
    rw [Piece.among_cons]
    simp [Piece.entered, Piece.children, Expr.children]
  | @jump c s t around jump h isJump ends ih =>
    obtain ⟨hgrows, -⟩ := t.afterJump_keeps around jump
    obtain ⟨hfound, calls, hnew, haccounts⟩ := ih hs fun p hp => hparams p (hgrows.mem hp)
    obtain ⟨hproblems, htoken, hsame⟩ := t.afterJump_superProblems around jump
    have hplain : jump.isSuperCall = false ∧ jump.isConstructing = false := by
      cases jump <;> first | exact ⟨rfl, rfl⟩ | cases isJump
    have haloof : Aloof [.statement around jump] := ⟨by simpa [Piece.isSuperCall] using hplain.1, by simp [Piece.statements]⟩
    rw [hproblems, htoken, hsame]
    refine ⟨?_, calls, hnew, (haccounts.congr ?_ : Accounts false s.superFound _ _ _ _).anywhere haloof⟩
    · rw [hfound, haloof.any, Bool.and_false, Bool.false_and]
    · refine fun around' other hother => iff_of_false (fun hin => ?_) Piece.among_nil
      cases (Piece.among_jump isJump).mp hin
      cases hother.symm.trans hplain.2
  | @superCall c s t u around arguments h closed ih ih' =>
    have hgrows := (u.afterSuper_keeps c (s.token.span.«to» u.previous.span)).1
    obtain ⟨hordered, hle, -⟩ := h.moves hs
    obtain ⟨hmiddle, hstop⟩ := closed.previous_stop hordered
    have hbefore : ∀ p ∈ u.script.problems, p.id ≠ .invalidArrowFunctionParam := fun p hp =>
      hparams p (hgrows.mem hp)
    obtain ⟨hfound, calls, hnew, haccounts⟩ := ih hs fun p hp => hbefore p (closed.grows.mem hp)
    obtain ⟨hfound', none, hnone, hclosed⟩ := ih' hordered hbefore
    obtain rfl := hclosed.eq_nil
    have hsame : u.superFound = s.superFound := by simpa [hfound] using hfound'
    obtain ⟨hproblems, htoken, hafter⟩ := u.afterSuper_superProblems c
      (s.token.span.«to» u.previous.span) arguments
    rw [hproblems, htoken, hafter, hnone, hnew, hsame]
    refine ⟨by simp [Piece.isSuperCall, Statement.isSuperCall], _, ?_,
      haccounts.superCall hle hmiddle hstop⟩
    simp [reportedCalls]
  | block _ _ ih =>
    obtain ⟨-, calls, hnew, haccounts⟩ := ih (hs.beside ⟨rfl, rfl, rfl, rfl, rfl⟩) hparams
    refine ⟨?_, calls, hnew, Accounts.block haccounts⟩
    simp [Piece.isSuperCall]
  | body _ ih =>
    obtain ⟨hfound, calls, hnew, haccounts⟩ := ih (hs.beside ⟨rfl, rfl, rfl, rfl, rfl⟩) hparams
    refine ⟨?_, calls, hnew, Accounts.body haccounts⟩
    rw [Piece.any_body] at hfound
    exact hfound
  | included may => exact may.elim

end BuildsIn

/-- The call is the first one directly in the block of a constructor of the program. -/
def Program.Excuses (program : Program) (s : Statement) : Prop :=
  ∃ around span a id f, (Piece.program program).Holds true
    (.statement around (.constructorDef span a id f)) ∧
      f.statements.find? Statement.isSuperCall = some s

/-- When a program has been read to its end, the problems with calls of the super constructor are those
of the calls in the tree, but for the first one directly in the block of each constructor, in the order
in which they end. If there is none, every call is the only one directly in the block of a
constructor. -/
theorem parseProgram_superCalls {host : Host} {path source : String} {program : Program}
    {t : ParserState} {p : Parser} (hp : p = Parser.ofScript host (Script.ofSource path source))
    (hvalid : p.script.isValid = true)
    (hprogram : Parser.toEnd (ofHost p.host p.script).program p.state = .ok program t)
    (hstrict : p.ReadsStrictly .program)
    (hparams : ∀ problem ∈ t.script.problems, problem.id ≠ .invalidArrowFunctionParam) :
    p.parseProgram.2.script = t.script ∧
      (t.script.superProblems.Pairwise fun a b => a.span.stop < b.span.stop) ∧
      (∀ problem, problem ∈ t.script.superProblems ↔ ∃ around s,
        (Piece.program program).Holds true (.statement around s) ∧ s.isSuperCall = true ∧
          ¬ program.Excuses s ∧ problem = Statement.superProblem s.span) ∧
      (t.script.superProblems = [] →
        (∀ around s, (Piece.program program).Holds true (.statement around s) →
          s.isSuperCall = true → program.Excuses s) ∧
        ∀ around span a id f, (Piece.program program).Holds true
          (.statement around (.constructorDef span a id f)) →
            f.statements.countP Statement.isSuperCall ≤ 1) := by
  obtain ⟨hscript, htree, hordered, hproblems⟩ := parseProgram_treeRead hp hvalid hprogram hstrict
  have hnone : p.script.superProblems = [] := by rw [Script.superProblems, hproblems]; rfl
  have haccounts : ∃ calls, t.script.superProblems = p.script.superProblems ++ reportedCalls calls ∧
      Accounts false p.state.superFound [.program program] p.state.token.span.start
        t.token.span.start calls := by
    cases htree with
    | node hbuilds => exact (hbuilds.superCalls hordered hparams).2
    | empty hbuilds =>
      obtain ⟨-, calls, hnew, haccounts⟩ := hbuilds.superCalls hordered hparams
      refine ⟨calls, hnew, haccounts.congr fun around s _ => ?_⟩
      simp [Piece.entered, Piece.children]
  obtain ⟨calls, hnew, haccounts⟩ := haccounts
  rw [hnone, List.nil_append] at hnew
  have hholds : ∀ q, Among true [.program program] q ↔ (Piece.program program).Holds true q := by
    intro q
    simp [Among, Piece.entered]
  have hexcused : ∀ s, (s, true) ∈ calls ↔ program.Excuses s := by
    intro s
    rw [haccounts.excused, or_iff_left fun h => Bool.false_ne_true h.1]
    unfold Initial Program.Excuses
    simp only [hholds]
  refine ⟨hscript, hnew ▸ haccounts.reported_sorted, fun problem => ?_, fun hquiet => ?_⟩
  · rw [hnew, mem_reportedCalls]
    constructor
    · rintro ⟨s, hcall, rfl⟩
      obtain ⟨hsuper, around, hin⟩ := (haccounts.mem s).mp ⟨false, hcall⟩
      refine ⟨around, s, (hholds _).mp hin, hsuper, fun hfirst => ?_, rfl⟩
      exact haccounts.excused_once ((hexcused s).mpr hfirst) hcall
    · rintro ⟨around, s, hin, hsuper, hnot, rfl⟩
      obtain ⟨excused, hcall⟩ := (haccounts.mem s).mpr ⟨hsuper, around, (hholds _).mpr hin⟩
      cases excused with
      | true => exact (hnot ((hexcused s).mp hcall)).elim
      | false => exact ⟨s, hcall, rfl⟩
  · have hall : ∀ call ∈ calls, call.2 = true := by
      intro call hcall
      by_contra hreported
      have hmem : Statement.superProblem call.1.span ∈ reportedCalls calls := by
        refine mem_reportedCalls.mpr ⟨call.1, ?_, rfl⟩
        rwa [← Bool.eq_false_iff.mpr hreported]
      rw [← hnew, hquiet] at hmem
      cases hmem
    constructor
    · intro around s hin hsuper
      obtain ⟨excused, hcall⟩ := (haccounts.mem s).mpr ⟨hsuper, around, (hholds _).mpr hin⟩
      obtain rfl : excused = true := hall _ hcall
      exact (hexcused s).mp hcall
    · intro around span a id f hin
      exact (haccounts.single hall).1 around span a id f ((hholds _).mpr hin)

/-- Two calls directly in the block of a constructor, and one in a loop there. -/
theorem parseProgram_superCalls_loop :
    let p := Parser.ofScript (Host.ofFiles []) (Script.ofSource "/m.es"
      "class C \x7b function C() \x7b while (a) super(); super(); super() \x7d \x7d")
    ∃ program t, Parser.toEnd (ofHost p.host p.script).program p.state = .ok program t ∧
      t.script.superProblems.length = 2 ∧
      ∀ problem ∈ t.script.superProblems, ∃ around s,
        (Piece.program program).Holds true (.statement around s) ∧ s.isSuperCall = true ∧
          ¬ program.Excuses s ∧ problem = Statement.superProblem s.span := by
  intro p
  have hstrict : p.ReadsStrictly .program := .of_ok (by decide +kernel)
  have hids : (match Parser.toEnd (ofHost p.host p.script).program p.state with
    | .ok _ t => t.script.problems.toList.map (·.id)
    | .error .. => []) = [.unexpectedSuperStatement, .unexpectedSuperStatement] := by decide +kernel
  cases hprogram : Parser.toEnd (ofHost p.host p.script).program p.state with
  | error =>
    rw [hprogram] at hids
    cases hids
  | ok program t =>
    rw [hprogram] at hids
    have hall : ∀ problem ∈ t.script.problems, problem.id = .unexpectedSuperStatement := by
      intro problem hproblem
      have hmem := List.mem_map_of_mem (f := (·.id)) (Array.mem_toList_iff.mpr hproblem)
      rw [show t.script.problems.toList.map (·.id) = _ from hids] at hmem
      simpa using hmem
    have hparams : ∀ problem ∈ t.script.problems, problem.id ≠ .invalidArrowFunctionParam := by
      intro problem hproblem hid
      cases (hall problem hproblem).symm.trans hid
    obtain ⟨-, -, hcalls, -⟩ := parseProgram_superCalls rfl (by decide +kernel) hprogram hstrict hparams
    refine ⟨program, t, rfl, ?_, fun problem hproblem => (hcalls problem).mp hproblem⟩
    have hsame : t.script.superProblems = t.script.problems.toList := by
      refine List.filter_eq_self.mpr fun problem hproblem => ?_
      simp [hall problem (Array.mem_toList_iff.mp hproblem)]
    rw [hsame, ← List.length_map (f := (·.id)), show t.script.problems.toList.map (·.id) = _ from hids]
    rfl

end ActionSyntax
