import ActionSyntax.Proofs.Shadows.Alongside

/-!
Readings that go to the end of a piece. A reading of the whole tracks one of the piece when both read the
same, with ranges moved, also where the piece ends and the whole goes on with something else. Some readings
need not be tracked: those that are done with the piece. What is told here of the parts of types goes for
any two texts whose states go together as far as types can see.
-/

namespace ActionSyntax

set_option autoImplicit false

open Parse

section Moved

/-- Things with ranges in them, which can stand elsewhere: so many bytes and lines further on. -/
class Movable (α : Type) where
  move : Nat → Nat → α → α

export Movable (move)

variable {α β : Type} [Movable α] [Movable β] (offset lines : Nat)

instance : Movable Unit := ⟨fun _ _ => id⟩

instance : Movable Bool := ⟨fun _ _ => id⟩

instance : Movable String := ⟨fun _ _ => id⟩

instance : Movable (List α) := ⟨fun offset lines => List.map (move offset lines)⟩

instance : Movable (Option α) := ⟨fun offset lines => Option.map (move offset lines)⟩

instance : Movable (α × β) := ⟨fun offset lines => Prod.map (move offset lines) (move offset lines)⟩

instance : Movable Token := ⟨fun offset lines t => { t with span := t.span.moved offset lines }⟩

instance : Movable Mark := ⟨fun offset lines m => ⟨m.line + lines, m.start + offset⟩⟩

mutual

/-- The same type, so many bytes and lines further on. -/
def TypeExpr.moved (offset lines : Nat) : TypeExpr → TypeExpr
  | .name span name => .name (span.moved offset lines) name
  | .member span base id => .member (span.moved offset lines) (base.moved offset lines) (id.moved offset lines)
  | .any span => .any (span.moved offset lines)
  | .void span => .void (span.moved offset lines)
  | .undefined span => .undefined (span.moved offset lines)
  | .null span => .null (span.moved offset lines)
  | .function span params optional rest result =>
    .function (span.moved offset lines) (Identifier.movedAll offset lines params)
      (Identifier.movedAllOption offset lines optional) (Identifier.movedOption offset lines rest)
      (TypeExpr.movedOption offset lines result)
  | .array span item => .array (span.moved offset lines) (item.moved offset lines)
  | .tuple span items => .tuple (span.moved offset lines) (TypeExpr.movedAll offset lines items)
  | .record span fields => .record (span.moved offset lines) (Identifier.movedAll offset lines fields)
  | .union span members => .union (span.moved offset lines) (TypeExpr.movedAll offset lines members)
  | .instantiation span base arguments =>
    .instantiation (span.moved offset lines) (base.moved offset lines)
      (TypeExpr.movedAll offset lines arguments)
  | .nullable span base => .nullable (span.moved offset lines) (base.moved offset lines)
  | .nonNullable span base => .nonNullable (span.moved offset lines) (base.moved offset lines)
  | .parens span base => .parens (span.moved offset lines) (base.moved offset lines)
  | .typed span base type =>
    .typed (span.moved offset lines) (base.moved offset lines) (type.moved offset lines)

def TypeExpr.movedAll (offset lines : Nat) : List TypeExpr → List TypeExpr
  | [] => []
  | type :: rest => type.moved offset lines :: TypeExpr.movedAll offset lines rest

def TypeExpr.movedOption (offset lines : Nat) : Option TypeExpr → Option TypeExpr
  | none => none
  | some type => some (type.moved offset lines)

def Identifier.moved (offset lines : Nat) : Identifier → Identifier
  | ⟨span, name, type⟩ => ⟨span.moved offset lines, name, TypeExpr.movedOption offset lines type⟩

def Identifier.movedOption (offset lines : Nat) : Option Identifier → Option Identifier
  | none => none
  | some id => some (id.moved offset lines)

def Identifier.movedAll (offset lines : Nat) : List Identifier → List Identifier
  | [] => []
  | id :: rest => id.moved offset lines :: Identifier.movedAll offset lines rest

def Identifier.movedAllOption (offset lines : Nat) : Option (List Identifier) → Option (List Identifier)
  | none => none
  | some ids => some (Identifier.movedAll offset lines ids)

end

instance : Movable TypeExpr := ⟨TypeExpr.moved⟩

instance : Movable Identifier := ⟨Identifier.moved⟩

theorem TypeExpr.movedAll_eq : ∀ types : List TypeExpr,
    TypeExpr.movedAll offset lines types = move offset lines types
  | [] => rfl
  | type :: rest => congrArg (type.moved offset lines :: ·) (TypeExpr.movedAll_eq rest)

theorem TypeExpr.movedOption_eq (type : Option TypeExpr) :
    TypeExpr.movedOption offset lines type = move offset lines type := by
  cases type <;> rfl

theorem Identifier.movedAll_eq : ∀ ids : List Identifier,
    Identifier.movedAll offset lines ids = move offset lines ids
  | [] => rfl
  | id :: rest => congrArg (id.moved offset lines :: ·) (Identifier.movedAll_eq rest)

theorem Identifier.movedOption_eq (id : Option Identifier) :
    Identifier.movedOption offset lines id = move offset lines id := by
  cases id <;> rfl

theorem Identifier.movedAllOption_eq (ids : Option (List Identifier)) :
    Identifier.movedAllOption offset lines ids = move offset lines ids := by
  cases ids with
  | none => rfl
  | some ids => exact congrArg some (Identifier.movedAll_eq offset lines ids)

theorem TypeExpr.span_moved (type : TypeExpr) :
    (type.moved offset lines).span = type.span.moved offset lines := by
  cases type <;> rfl

theorem TypeExpr.unionMembers_moved (type : TypeExpr) :
    (type.moved offset lines).unionMembers = move offset lines type.unionMembers := by
  cases type with
  | union span members => exact TypeExpr.movedAll_eq offset lines members
  | _ => rfl

mutual

/-- Apart from its places, a type that stands elsewhere is the same. -/
theorem TypeExpr.bare_moved : ∀ type : TypeExpr, (type.moved offset lines).bare = type.bare
  | .name _ _ | .any _ | .void _ | .undefined _ | .null _ => rfl
  | .member _ base id => by simp [TypeExpr.moved, base.bare_moved, id.bare_moved]
  | .function _ params optional rest result => by
    simp [TypeExpr.moved, Identifier.bareAll_moved params, Identifier.bareAllOption_moved optional,
      Identifier.bareOption_moved rest, TypeExpr.bareOption_moved result]
  | .array _ base | .nullable _ base | .nonNullable _ base | .parens _ base => by
    simp [TypeExpr.moved, base.bare_moved]
  | .tuple _ types | .union _ types => by simp [TypeExpr.moved, TypeExpr.bareAll_moved types]
  | .record _ fields => by simp [TypeExpr.moved, Identifier.bareAll_moved fields]
  | .instantiation _ base arguments => by
    simp [TypeExpr.moved, base.bare_moved, TypeExpr.bareAll_moved arguments]
  | .typed _ base type => by simp [TypeExpr.moved, base.bare_moved, type.bare_moved]

theorem TypeExpr.bareAll_moved : ∀ types : List TypeExpr,
    (TypeExpr.movedAll offset lines types).map TypeExpr.bare = types.map TypeExpr.bare
  | [] => rfl
  | type :: rest => by
    simp [TypeExpr.movedAll, type.bare_moved, TypeExpr.bareAll_moved rest]

theorem TypeExpr.bareOption_moved : ∀ type : Option TypeExpr,
    (TypeExpr.movedOption offset lines type).map TypeExpr.bare = type.map TypeExpr.bare
  | none => rfl
  | some type => by simp [TypeExpr.movedOption, type.bare_moved]

theorem Identifier.bare_moved : ∀ id : Identifier, (id.moved offset lines).bare = id.bare
  | ⟨_, _, type⟩ => by simp [Identifier.moved, TypeExpr.bareOption_moved type]

theorem Identifier.bareOption_moved : ∀ id : Option Identifier,
    (Identifier.movedOption offset lines id).map Identifier.bare = id.map Identifier.bare
  | none => rfl
  | some id => by simp [Identifier.movedOption, id.bare_moved]

theorem Identifier.bareAll_moved : ∀ ids : List Identifier,
    (Identifier.movedAll offset lines ids).map Identifier.bare = ids.map Identifier.bare
  | [] => rfl
  | id :: rest => by
    simp [Identifier.movedAll, id.bare_moved, Identifier.bareAll_moved rest]

theorem Identifier.bareAllOption_moved : ∀ ids : Option (List Identifier),
    (Identifier.movedAllOption offset lines ids).map (List.map Identifier.bare) =
      ids.map (List.map Identifier.bare)
  | none => rfl
  | some ids => by
    simp [Identifier.movedAllOption, Identifier.bareAll_moved ids]

end

end Moved

section Conditions

/-- What is never found at a token that begins no part of a type, at signs least of all. -/
structure Token.Takes (condition : Token → Bool) : Prop where
  same : ∀ {t u : Token}, t.Like u → t.kind = u.kind → condition t = condition u
  kinds : ∀ {t : Token}, t.kind ∈ [.endOfProgram, .number, .compoundAssignment] → condition t = false
  operator : ∀ {t : Token}, t.kind = .operator →
    t.operator ∉ [some .less, some .multiply, some .bitwiseOr] → condition t = false

namespace Token.Takes

variable {condition : Token → Bool} {t : Token}

theorem kind {k : TokenKind} (hk : k ∉ [.endOfProgram, .number, .compoundAssignment, .operator]) :
    Takes fun t => t.kind == k := by
  have hne : ∀ {t : Token}, t.kind ∈ [.endOfProgram, .number, .compoundAssignment, .operator] →
      (t.kind == k) = false := by
    intro t ht
    rw [beq_eq_false_iff_ne]
    rintro rfl
    exact hk ht
  refine ⟨fun _ heq => by rw [heq], fun ht => hne ?_, fun ht _ => hne ?_⟩
  · simp only [List.mem_cons, List.not_mem_nil, or_false] at ht ⊢
    tauto
  · simp [ht]

theorem or {other : Token → Bool} (h : Takes condition) (h' : Takes other) :
    Takes fun t => condition t || other t := by
  refine ⟨fun hlike hkind => ?_, fun hkind => ?_, fun hkind hop => ?_⟩
  · rw [h.same hlike hkind, h'.same hlike hkind]
  · rw [h.kinds hkind, h'.kinds hkind, Bool.or_self]
  · rw [h.operator hkind hop, h'.operator hkind hop, Bool.or_self]

theorem isOperator {op : Operator} (hop : some op ∈ [some .less, some .multiply, some .bitwiseOr]) :
    Takes fun t => t.isOperator op := by
  refine ⟨fun h _ => h.isOperator op, fun h => ?_, fun {t} _ h => ?_⟩
  · simp only [List.mem_cons, List.not_mem_nil, or_false] at h
    rcases h with h | h | h <;> simp [Token.isOperator, h]
  · rw [Token.isOperator, Bool.and_eq_false_iff]
    refine Or.inr ?_
    rw [beq_eq_false_iff_ne]
    intro heq
    rw [heq] at h
    exact h hop

theorem isKeyword (word : String) : Takes fun t => t.isKeyword word := by
  refine ⟨fun h _ => h.isKeyword word, fun h => ?_, fun h _ => by simp [Token.isKeyword, h]⟩
  simp only [List.mem_cons, List.not_mem_nil, or_false] at h
  rcases h with h | h | h <;> simp [Token.isKeyword, h]

theorem isContextKeyword (word : String) : Takes fun t => t.isContextKeyword word := by
  refine ⟨fun h _ => h.isContextKeyword word, fun h => ?_, fun h _ => by simp [Token.isContextKeyword, h]⟩
  simp only [List.mem_cons, List.not_mem_nil, or_false] at h
  rcases h with h | h | h <;> simp [Token.isContextKeyword, h]

theorem isWord : Takes Parse.isWord := by
  refine ⟨fun h _ => h.isWord, fun h => ?_, fun h _ => by simp [Parse.isWord, h]⟩
  simp only [List.mem_cons, List.not_mem_nil, or_false] at h
  rcases h with h | h | h <;> simp [Parse.isWord, h]

theorem spent (h : Takes condition) (ht : t.Spent) : condition t = false := by
  rcases ht with hkind | hkind | ⟨hkind, hop⟩
  · exact h.kinds (by simp [hkind])
  · exact h.kinds (by simp [hkind])
  · exact h.operator hkind (by rw [hop]; decide)

/-- A mark of a run of signs begins no part of a type. -/
theorem greater (h : Takes condition) {count : Nat} {equals : Bool} {front : List Char} {s : Scanner}
    (hs : s.OnRun front count equals) : condition s.token = false := by
  have hmark : ∀ count ≤ 3, 1 ≤ count → ∀ equals : Bool,
      (Scan.greaterMark count equals).kind = .compoundAssignment ∨
        ((Scan.greaterMark count equals).kind = .operator ∧ (Scan.greaterMark count equals).operator ∉
          [some .less, some .multiply, some .bitwiseOr]) := by decide
  rw [hs.token]
  rcases hmark count hs.most hs.least equals with hkind | ⟨hkind, hop⟩
  · exact h.kinds (by simp [hkind])
  · exact h.operator hkind hop

end Token.Takes

/-- No part of a type goes on with a mark of a run of signs. -/
theorem Token.Parting.of_run {count : Nat} {equals : Bool} {front : List Char} {s : Scanner}
    (hs : s.OnRun front count equals) : s.token.Parting := by
  have harrow := (Token.Takes.kind (k := .arrow) (by decide)).greater hs
  have hcolon := (Token.Takes.kind (k := .colon) (by decide)).greater hs
  exact ⟨⟨by simpa using harrow, by simpa using hcolon⟩, (Token.Takes.isOperator (by decide)).greater hs⟩

theorem Token.Spent.not_greater {t : Token} (h : t.Spent) :
    t.isOperator .greater = false ∧ Parse.afterGreater? t = none := by
  rcases h with hkind | hkind | ⟨hkind, hop⟩ <;> simp_all [Token.isOperator, Parse.afterGreater?]

theorem Token.Spent.parting {t : Token} (h : t.Spent) : t.Parting := by
  rcases h with hkind | hkind | ⟨hkind, hop⟩ <;> exact ⟨by simp [hkind], by simp_all [Token.isOperator]⟩

end Conditions

/-- Two readings that go together, as far as types can see: which states are near each other, where the
ranges of the first text are in the second, and from which states nothing is told. At a token that no type
takes, the second text may go on with what does not go on with a type. -/
structure Tandem where
  offset : Nat
  lines : Nat
  near : ParserState → ParserState → Prop
  gone : ParserState → Prop
  previous : ∀ {s t}, near s t → t.previous = move offset lines s.previous
  same : ∀ {s t}, near s t → ¬ s.token.Spent → ∀ {condition}, Token.Takes condition →
    condition s.token = condition t.token
  begins : ∀ {s t}, near s t → ¬ s.token.Spent →
    Mark.ofSpan t.token.span = move offset lines (Mark.ofSpan s.token.span)
  parting : ∀ {s t}, near s t → s.token.Spent → t.token.Parting
  next : ∀ {s t u condition}, near s t → Token.Takes condition → condition s.token = true →
    Parse.next s = .ok () u → ¬ gone u → ∃ v, Parse.next t = .ok () v ∧ near u v
  greater : ∀ {s t u}, near s t → expectGreater s = .ok () u → ¬ gone u →
    ∃ v, expectGreater t = .ok () v ∧ near u v
  collect : ∀ {s t p q}, near s t → p.severity = q.severity → near (s.collect p) (t.collect q)
  gone_spent : ∀ {s}, gone s → s.token.Spent
  gone_collect : ∀ {s p}, gone s → gone (s.collect p)

namespace Tandem

variable (P : Tandem)

/-- What the first state shows at a token that no type takes does not change when nothing is taken. -/
structure Stays (s t : ParserState) : Prop where
  token : t.token = s.token
  gone : P.gone s → P.gone t

/-- States near each other in front of a token that may be taken. -/
def Open (s t : ParserState) : Prop := P.near s t ∧ ¬ s.token.Spent

/-- The second reading goes where the first one goes, to the end of the piece at most, unless the first
one is done. At a token that no type takes, the first one takes nothing. -/
structure Tracks {α : Type} [Movable α] (start : ParserState → ParserState → Prop)
    (done : α → ParserState → Prop) (p q : Parse α) : Prop where
  tracks : ∀ {s t a u}, start s t → p s = .ok a u → ¬ P.gone u →
    (∃ v, q t = .ok (move P.offset P.lines a) v ∧ P.near u v) ∨ done a u
  stays : ∀ {s a u}, s.token.Spent → p s = .ok a u → P.Stays s u

/-- No reading is done. -/
def Never {α : Type} (_ : α) (_ : ParserState) : Prop := False

/-- A reading is done where it comes to a token that no type takes. -/
def Late {α : Type} (_ : α) (u : ParserState) : Prop := u.token.Spent

end Tandem

namespace Tandem.Stays

variable {P : Tandem} {s t u : ParserState}

theorem refl (s : ParserState) : P.Stays s s := ⟨rfl, id⟩

theorem trans (hst : P.Stays s t) (htu : P.Stays t u) : P.Stays s u :=
  ⟨htu.token.trans hst.token, fun hs => htu.gone (hst.gone hs)⟩

end Tandem.Stays

/-- What has to take something gives nothing at a token that no type takes. -/
structure Insists {α : Type} (x : Parse α) : Prop where
  empty : ∀ {s a u}, s.token.Spent → x s ≠ .ok a u

namespace Tandem.Tracks

variable {P : Tandem} {start : ParserState → ParserState → Prop} {α β : Type} [Movable α] [Movable β]
  {done : α → ParserState → Prop} {done' : β → ParserState → Prop} {p p' : Parse α} {f f' : α → Parse β}
  {s t u : ParserState}

theorem pure {a a' : α} (h : a' = move P.offset P.lines a) :
    Tracks P P.near done (Pure.pure a) (Pure.pure a') where
  tracks hst hp _ := by
    cases hp
    exact Or.inl ⟨_, h ▸ rfl, hst⟩
  stays _ hp := by
    cases hp
    exact .refl _

theorem exhausted : Tracks P start done (Parse.exhausted : Parse α) p' where
  tracks _ hp _ := by cases hp
  stays _ hp := by cases hp

/-- A reading that has to take something begins in front of a token. -/
theorem insisting (h : Tracks P P.Open done p p') (hp : Insists p) : Tracks P P.near done p p' where
  tracks {s t a u} hst hread hgone := by
    by_cases hspent : s.token.Spent
    · exact absurd hread (hp.empty hspent)
    · exact h.tracks ⟨hst, hspent⟩ hread hgone
  stays := h.stays

/-- A reading that need not be told where it comes to its end. -/
theorem late (h : Tracks P P.Open Late p p') : Tracks P P.near Late p p' where
  tracks {s t a u} hst hread hgone := by
    by_cases hspent : s.token.Spent
    · refine Or.inr ?_
      show u.token.Spent
      rw [(h.stays hspent hread).token]
      exact hspent
    · exact h.tracks ⟨hst, hspent⟩ hread hgone
  stays := h.stays

/-- What may begin anywhere may begin in front of a token. -/
theorem opened (h : Tracks P P.near done p p') : Tracks P P.Open done p p' :=
  ⟨fun hst => h.tracks hst.1, h.stays⟩

/-- A reading that is always done. -/
theorem of_done (h : ∀ {s a u}, p s = .ok a u → done a u) (hp : Insists p) : Tracks P start done p p' :=
  ⟨fun _ hread _ => Or.inr (h hread), fun hs hread => absurd hread (hp.empty hs)⟩

/-- Where the first reading comes to no end from which nothing is told, it has not begun at one. -/
theorem kept {a : α} (h : Tracks P start done p p') (hread : p s = .ok a u) (hgone : ¬ P.gone u) :
    ¬ P.gone s :=
  fun hs => hgone ((h.stays (P.gone_spent hs) hread).gone hs)

/-- What is read on from a reading, and stays where nothing is taken as well. -/
theorem andThen (hp : Tracks P start done p p')
    (hstays : ∀ a {u b v}, u.token.Spent → f a u = .ok b v → P.Stays u v)
    (hdone : ∀ {a u b v}, done a u → f a u = .ok b v → done' b v)
    (hf : ∀ a, Tracks P P.near done' (f a) (f' (move P.offset P.lines a))) :
    Tracks P start done' (p >>= f) (p' >>= f') where
  tracks {s t b v} hst hread hgone := by
    obtain ⟨a, u, hpu, hfv⟩ := bind_ok hread
    have hgone' : ¬ P.gone u := fun hu => hgone ((hstays a (P.gone_spent hu) hfv).gone hu)
    rcases hp.tracks hst hpu hgone' with ⟨u', hpu', hnear⟩ | hover
    · rw [bind_of_ok hpu']
      exact (hf a).tracks hnear hfv hgone
    · exact Or.inr (hdone hover hfv)
  stays {s b v} hs hread := by
    obtain ⟨a, u, hpu, hfv⟩ := bind_ok hread
    have hu := hp.stays hs hpu
    exact hu.trans (hstays a (hu.token ▸ hs) hfv)

theorem bind (hp : Tracks P start done p p')
    (hdone : ∀ {a u b v}, done a u → f a u = .ok b v → done' b v)
    (hf : ∀ a, Tracks P P.near done' (f a) (f' (move P.offset P.lines a))) :
    Tracks P start done' (p >>= f) (p' >>= f') :=
  hp.andThen (fun a => (hf a).stays) hdone hf

/-- A reading that is never done, and what is read on from it. -/
theorem seq (hp : Tracks P start Never p p')
    (hf : ∀ a, Tracks P P.near done' (f a) (f' (move P.offset P.lines a))) :
    Tracks P start done' (p >>= f) (p' >>= f') :=
  hp.bind (fun hnever _ => hnever.elim) hf

/-- Something has to follow what is read. -/
theorem closed (hp : Tracks P start Late p p')
    (hf : ∀ a, Tracks P P.near done' (f a) (f' (move P.offset P.lines a)))
    (hinsists : ∀ a, Insists (f a)) : Tracks P start done' (p >>= f) (p' >>= f') :=
  hp.bind (fun hlate hread => absurd hread ((hinsists _).empty hlate)) hf

/-- Nothing need be told of what is read where both readings may come to an end. -/
theorem lately (hp : Tracks P start Late p p')
    (hf : ∀ a, Tracks P P.near Late (f a) (f' (move P.offset P.lines a))) :
    Tracks P start Late (p >>= f) (p' >>= f') :=
  hp.bind (fun {a u b v} hlate hread => by
    show v.token.Spent
    rw [((hf a).stays hlate hread).token]
    exact hlate) hf

theorem ite {condition : Prop} {_ : Decidable condition} {q q' : Parse α}
    (hp : Tracks P start done p p') (hq : Tracks P start done q q') :
    Tracks P start done (if condition then p else q) (if condition then p' else q') := by
  split
  · exact hp
  · exact hq

end Tandem.Tracks

namespace Insists

variable {α β : Type} {x : Parse α} {f : α → Parse β} {condition : Token → Bool}

theorem seq (hx : Insists x) : Insists (x >>= f) := ⟨fun hs h => by
  obtain ⟨a, t, hxt, -⟩ := bind_ok h
  exact hx.empty hs hxt⟩

theorem exhausted : Insists (Parse.exhausted : Parse α) := ⟨fun _ h => by cases h⟩

theorem consumeIf {f : Bool → Parse β} (hc : Token.Takes condition) (hf : Insists (f false)) :
    Insists (Parse.consumeIf condition >>= f) := ⟨fun hs h => by
  obtain ⟨found, u, hu, hv⟩ := bind_ok h
  rcases consumeIf_inv hu with ⟨-, hyes, -⟩ | ⟨rfl, -, rfl⟩
  · rw [hc.spent hs] at hyes
    cases hyes
  · exact hf.empty hs hv⟩

theorem choice {p q : Parse β} (hc : Token.Takes condition) (hq : Insists q) :
    Insists (Parse.consumeIf condition >>= fun found => if found = true then p else q) :=
  .consumeIf hc (by rwa [if_neg Bool.false_ne_true])

theorem expectIf (hc : Token.Takes condition) : Insists (Parse.expectIf condition) :=
  .consumeIf hc ⟨fun _ h => by cases h⟩

theorem at? {k : TokenKind} {f : Bool → Parse β} (hk : Token.Takes fun t => t.kind == k)
    (hf : Insists (f false)) : Insists (Parse.at? k >>= f) := ⟨fun hs h => by
  rw [at?_bind, hk.spent hs] at h
  exact hf.empty hs h⟩

theorem mark {f : Mark → Parse β} (hf : ∀ m, Insists (f m)) : Insists (Parse.mark >>= f) :=
  ⟨fun hs h => (hf _).empty hs h⟩

theorem identifierOf (hc : Token.Takes condition) : Insists (Parse.identifierOf condition) :=
  .mark fun _ => (expectIf hc).seq

theorem expectGreater : Insists Parse.expectGreater := ⟨fun {s a u} hs h => by
  obtain ⟨hgreater, hafter⟩ := hs.not_greater
  obtain ⟨found, v, hv, hmore⟩ := bind_ok h
  rcases consumeIf_inv hv with ⟨-, hyes, -⟩ | ⟨rfl, -, rfl⟩
  · rw [hgreater] at hyes
    cases hyes
  · rw [if_neg Bool.false_ne_true, token_bind, hafter] at hmore
    cases hmore⟩

end Insists

namespace Tandem

section Elementary

variable {P : Tandem} {start : ParserState → ParserState → Prop} {α β : Type} [Movable α] [Movable β]
  {done : β → ParserState → Prop} {condition : Token → Bool}

/-- A token may be taken, and decides how both readings go on. -/
theorem consumeIf_tracks (hc : Token.Takes condition) (hstart : ∀ {s t}, start s t → P.near s t)
    (hsame : ∀ {s t}, start s t → condition s.token = condition t.token) {p q p' q' : Parse β}
    (hp : Tracks P P.near done p p') (hq : Tracks P start done q q') :
    Tracks P start done (consumeIf condition >>= fun found => if found = true then p else q)
      (consumeIf condition >>= fun found => if found = true then p' else q') where
  tracks {s t b v} hst hread hgone := by
    obtain ⟨found, u, hu, hv⟩ := bind_ok hread
    rcases consumeIf_inv hu with ⟨rfl, hyes, hnext⟩ | ⟨rfl, hno, rfl⟩
    · obtain ⟨t', hnext', hnear⟩ := P.next (hstart hst) hc hyes hnext (hp.kept hv hgone)
      rw [bind_of_ok (consumeIf_yes (hsame hst ▸ hyes) hnext')]
      exact hp.tracks hnear hv hgone
    · rw [bind_of_ok (consumeIf_no (hsame hst ▸ hno))]
      exact hq.tracks hst hv hgone
  stays {s b v} hs hread := by
    obtain ⟨found, u, hu, hv⟩ := bind_ok hread
    rcases consumeIf_inv hu with ⟨-, hyes, -⟩ | ⟨rfl, -, rfl⟩
    · rw [hc.spent hs] at hyes
      cases hyes
    · exact hq.stays hs hv

/-- In front of a token, it is the same token for both. -/
theorem choice_open (hc : Token.Takes condition) {p q p' q' : Parse β} (hp : Tracks P P.near done p p')
    (hq : Tracks P P.Open done q q') :
    Tracks P P.Open done (consumeIf condition >>= fun found => if found = true then p else q)
      (consumeIf condition >>= fun found => if found = true then p' else q') :=
  consumeIf_tracks hc (fun h => h.1) (fun h => P.same h.1 h.2 hc) hp hq

/-- A token that may be taken, where otherwise something has to follow. -/
theorem choice_closed (hc : Token.Takes condition) {p q p' q' : Parse β} (hp : Tracks P P.near done p p')
    (hq : Tracks P P.near done q q') (hinsists : Insists q) :
    Tracks P P.near done (consumeIf condition >>= fun found => if found = true then p else q)
      (consumeIf condition >>= fun found => if found = true then p' else q') :=
  .insisting (choice_open hc hp hq.opened) (.choice hc hinsists)

/-- A token that may be taken, where nothing need be told of the end. -/
theorem choice_late (hc : Token.Takes condition) {p q p' q' : Parse β} (hp : Tracks P P.near Late p p')
    (hq : Tracks P P.near Late q q') :
    Tracks P P.near Late (consumeIf condition >>= fun found => if found = true then p else q)
      (consumeIf condition >>= fun found => if found = true then p' else q') :=
  .late (choice_open hc hp hq.opened)

/-- A token that is not found behind the piece. -/
theorem choice_parting (hc : Token.Takes condition) (hparts : ∀ t : Token, t.Parting → condition t = false)
    {p q p' q' : Parse β} (hp : Tracks P P.near done p p') (hq : Tracks P P.near done q q') :
    Tracks P P.near done (consumeIf condition >>= fun found => if found = true then p else q)
      (consumeIf condition >>= fun found => if found = true then p' else q') := by
  refine consumeIf_tracks hc id (fun {s t} hst => ?_) hp hq
  by_cases hspent : s.token.Spent
  · rw [hc.spent hspent, hparts _ (P.parting hst hspent)]
  · exact P.same hst hspent hc

theorem expectIf_tracks (hc : Token.Takes condition) :
    Tracks P P.near Never (expectIf condition) (expectIf condition) := by
  have hrefused : Tracks P P.Open Never (unexpected : Parse Unit) unexpected := by
    constructor
    · intro _ _ _ _ _ h
      cases h
    · intro _ _ _ _ h
      cases h
  refine .insisting ?_ (.expectIf hc)
  have heq : expectIf condition =
      consumeIf condition >>= fun found => if found = true then pure () else unexpected :=
    congrArg (consumeIf condition >>= ·) (funext fun found => by cases found <;> rfl)
  rw [heq]
  exact choice_open hc (.pure rfl) hrefused

/-- The token that decides is asked where something has to follow. -/
theorem at?_tracks {k : TokenKind} (hk : Token.Takes fun t => t.kind == k) {f f' : Bool → Parse β}
    (hf : ∀ found, Tracks P P.near done (f found) (f' found)) :
    Tracks P P.Open done (at? k >>= f) (at? k >>= f') where
  tracks {s t b v} hst hread hgone := by
    rw [at?_bind] at hread ⊢
    rw [← P.same hst.1 hst.2 hk]
    exact (hf _).tracks hst.1 hread hgone
  stays hs hread := by
    rw [at?_bind] at hread
    exact (hf _).stays hs hread

theorem at?_closed {k : TokenKind} (hk : Token.Takes fun t => t.kind == k) {f f' : Bool → Parse β}
    (hf : ∀ found, Tracks P P.near done (f found) (f' found)) (hinsists : Insists (f false)) :
    Tracks P P.near done (at? k >>= f) (at? k >>= f') :=
  .insisting (at?_tracks hk hf) (.at? hk hinsists)

theorem finish_tracks (m : Mark) {f f' : Span → Parse β}
    (hf : ∀ span, Tracks P P.near done (f span) (f' (span.moved P.offset P.lines))) :
    Tracks P P.near done (finish m >>= f) (finish (move P.offset P.lines m) >>= f') where
  tracks {s t b v} hst hread hgone := by
    rw [finish_bind] at hread ⊢
    rw [P.previous hst]
    exact (hf _).tracks hst hread hgone
  stays hs hread := by
    rw [finish_bind] at hread
    exact (hf _).stays hs hread

theorem finished_tracks (m : Mark) {f f' : Span → β}
    (hf : ∀ span, f' (span.moved P.offset P.lines) = move P.offset P.lines (f span)) :
    Tracks P P.near done (finish m >>= fun span => pure (f span))
      (finish (move P.offset P.lines m) >>= fun span => pure (f' span)) :=
  finish_tracks m fun span => .pure (hf span)

theorem previous_tracks {f f' : Token → Parse β}
    (hf : ∀ token, Tracks P P.near done (f token) (f' (move P.offset P.lines token))) :
    Tracks P P.near done (Parse.previous >>= f) (Parse.previous >>= f') where
  tracks {s t b v} hst hread hgone := by
    rw [previous_bind] at hread ⊢
    rw [P.previous hst]
    exact (hf _).tracks hst hread hgone
  stays hs hread := by
    rw [previous_bind] at hread
    exact (hf _).stays hs hread

theorem mark_tracks {f f' : Mark → Parse β}
    (hf : ∀ m, Tracks P P.Open done (f m) (f' (move P.offset P.lines m))) :
    Tracks P P.Open done (mark >>= f) (mark >>= f') where
  tracks {s t b v} hst hread hgone := by
    rw [mark_bind] at hread ⊢
    rw [P.begins hst.1 hst.2]
    exact (hf _).tracks hst hread hgone
  stays hs hread := by
    rw [mark_bind] at hread
    exact (hf _).stays hs hread

theorem identifierOf_tracks (hc : Token.Takes condition) :
    Tracks P P.near Never (identifierOf condition) (identifierOf condition) := by
  refine .insisting (mark_tracks fun m => .opened ?_) (.identifierOf hc)
  refine .seq (expectIf_tracks hc) fun _ => ?_
  exact finish_tracks m fun span => previous_tracks fun token => .pure rfl

/-- The first of several signs may be taken as well. -/
theorem expectGreater_tracks : Tracks P P.near Never expectGreater expectGreater where
  tracks hst hread hgone := Or.inl (P.greater hst hread hgone)
  stays hs hread := absurd hread (Insists.expectGreater.empty hs)

/-- A problem is found in both. -/
theorem syntaxError_tracks (id : ProblemId) (span span' : Span) :
    Tracks P P.near Never (syntaxError id span) (syntaxError id span') where
  tracks hst hread _ := by
    cases hread
    exact Or.inl ⟨_, rfl, P.collect hst rfl⟩
  stays _ hread := by
    cases hread
    exact ⟨rfl, P.gone_collect⟩

end Elementary

end Tandem

namespace Passage

variable {x : Passage} {s t u : ParserState}

theorem Along.same (h : x.Along s t) {condition : Token → Bool} (hc : Token.Takes condition) :
    condition s.token = condition t.token := by
  have hlike := moved_like (x := x) s.token
  rw [← h.token] at hlike
  exact hc.same hlike h.kind

/-- The first of several signs is taken in the whole as in the piece. -/
theorem Along.greater (h : x.Along s t) (hx : x.Followed) (hread : expectGreater s = .ok () u)
    (hlost : ¬ x.Lost u) : ∃ v, expectGreater t = .ok () v ∧ x.Runs u v := by
  have hlike := moved_like (x := x) s.token
  rw [← h.token] at hlike
  obtain ⟨found, w, hw, hmore⟩ := bind_ok hread
  rcases consumeIf_inv hw with ⟨rfl, hyes, hnext⟩ | ⟨rfl, hno, rfl⟩
  · cases hmore
    obtain ⟨v, hv, hruns⟩ := h.advance hx hnext hlost
    have hconsume : consumeOperator .greater t = .ok true v :=
      consumeIf_yes (hlike.isOperator .greater ▸ hyes) hv
    refine ⟨v, ?_, hruns⟩
    unfold expectGreater
    rw [bind_of_ok hconsume]
    rfl
  · have hskip : consumeOperator .greater t = .ok false t :=
      consumeIf_no (hlike.isOperator .greater ▸ hno)
    rw [if_neg Bool.false_ne_true, token_bind] at hmore
    unfold expectGreater
    rw [bind_of_ok hskip, if_neg Bool.false_ne_true, token_bind]
    have hafter' := hlike.afterGreater? h.kind
    cases hafter : afterGreater? w.token with
    | none =>
      rw [hafter] at hmore
      cases hmore
    | some after =>
      rw [hafter] at hmore hafter'
      cases hmore
      rw [← hafter']
      exact ⟨_, rfl, Or.inl (h.split hafter)⟩

/-- A sign at the end of the piece is taken, and in the whole the first one of a longer mark. -/
theorem Across.greater (h : x.Across s t) (hread : expectGreater s = .ok () u) :
    ∃ v, expectGreater t = .ok () v ∧ x.Runs u v := by
  obtain ⟨front, count, more, equals, hpiece, hs, ht⟩ := h.signs.marks
  obtain ⟨hline, hstart⟩ := h.signs.begins
  have hline : t.token.span.firstLine = s.token.span.firstLine + x.lines := hline
  have hstart : t.token.span.start = s.token.span.start + x.offset := hstart
  have hfirst : firstGreater t.token = x.moved (firstGreater s.token) := by
    simp [firstGreater, moved, Span.moved, Span.onLine, hline, hstart, Nat.add_right_comm]
  obtain ⟨count, rfl⟩ : ∃ n, count = n + 1 := ⟨count - 1, by have := hs.least; omega⟩
  have ht : t.scanner.OnRun (x.before ++ front) (count + more + 2) equals := by
    rwa [show count + more + 2 = count + 1 + (more + 1) by omega]
  obtain ⟨kind, operator, hafter, hsplit⟩ := ParserState.split_onRun ht
  have htread : expectGreater t = .ok () (t.split kind operator) := by
    have hno : t.token.isOperator .greater = false := by
      have htoken : t.token = _ := ht.token
      have hmost := ht.most
      have hless : count + more = 0 ∨ count + more = 1 := by omega
      rw [htoken]
      rcases hless with heq | heq <;> rw [heq] <;> cases equals <;> rfl
    unfold expectGreater
    rw [bind_of_ok (show consumeOperator .greater t = _ from consumeIf_no hno), if_neg Bool.false_ne_true,
      token_bind, hafter]
    rfl
  have hsplits : (t.split kind operator).scanner.OnRun (x.before ++ (front ++ ['>'])) (count + more + 1) equals := by
    rwa [← List.append_assoc]
  refine ⟨_, htread, ?_⟩
  obtain ⟨found, w, hw, hmore⟩ := bind_ok hread
  rcases consumeIf_inv hw with ⟨rfl, hyes, hnext⟩ | ⟨rfl, hno, rfl⟩
  · -- It is the last sign of the piece.
    cases hmore
    have hcount : count = 0 := by
      by_contra hne
      have htoken : s.token = _ := hs.token
      have hmost := hs.most
      have hless : count = 1 ∨ count = 2 := by omega
      rw [htoken] at hyes
      rcases hless with rfl | rfl <;> cases hyes
    subst hcount
    obtain ⟨hscan, rfl⟩ := Parse.next_inv hnext
    have htrivia := Scan.trivia_over (Scan.Stopped.opens (Or.inl rfl) _ h.signs.rest)
    have hlast := Scanner.next_of_lexeme htrivia (Scanner.lexeme_nil h.signs.rest)
    obtain ⟨tail, htail⟩ := List.head?_eq_some_iff.mp h.signs.head
    have hkeeps := Scanner.next_keeps hscan
    have hrun : (t.split kind operator).scanner.OnRun (x.before ++ x.piece) (0 + more + 1) equals := by
      rw [hpiece]
      exact hsplits
    refine Or.inr (Or.inr ⟨⟨?_, ?_, ?_⟩, .signs htail hrun h.signs.whole, ?_, ?_, ?_⟩)
    · exact congrArg (·.2.token.kind) hlast
    · exact (congrArg (·.2.cursor.rest) hlast).trans h.signs.rest
    · exact congrArg (·.2.cursor.passedComments) hlast
    · show firstGreater t.token = x.moved s.token
      have hspan : s.token.span = Lines.spanOf (x.lead ++ front) (Scan.greaterText (0 + 1) false) :=
        congrArg Token.span hs.token
      rw [hfirst, firstGreater_eq hspan]
      exact congrArg x.moved hs.token.symm
    · exact hkeeps.1.trans h.path
    · exact hkeeps.2.2.trans h.valid
  · -- Another one is left.
    cases count with
    | zero =>
      have htoken : w.token = _ := hs.token
      rw [htoken] at hno
      cases hno
    | succ count =>
      obtain ⟨kind', operator', hafter', hsplit'⟩ := ParserState.split_onRun hs
      rw [if_neg Bool.false_ne_true, token_bind, hafter'] at hmore
      cases hmore
      rw [List.append_assoc] at hsplit'
      refine Or.inr (Or.inl ⟨⟨⟨front ++ ['>'], count + 1, more, equals, ?_, hsplit', ?_⟩, h.signs.rest,
        h.signs.whole, hline, ?_⟩, hfirst, h.path, h.valid⟩)
      · rw [hpiece, List.append_assoc]
        rfl
      · rwa [show count + 1 + (more + 1) = count + 1 + more + 1 by omega]
      · show t.token.span.start + 1 = w.token.span.start + 1 + x.offset
        rw [hstart]
        omega

/-- The piece and the whole go together to the end of the piece, where something else may follow that goes
on with no part of a type. -/
def Followed.tandem (hx : x.Followed) : Tandem where
  offset := x.offset
  lines := x.lines
  near := x.Runs
  gone := x.Lost
  previous h := h.elim Along.previous fun h => h.elim Across.previous Past.previous
  same {s t} h hspent _ hc := by
    rcases h with halong | hacross | hpast
    · exact halong.same hc
    · obtain ⟨front, count, more, equals, -, hs, ht⟩ := hacross.signs.marks
      exact (hc.greater hs).trans (hc.greater ht).symm
    · exact absurd (Or.inl hpast.ended.kind) hspent
  begins {s t} h hspent := by
    rcases h with halong | hacross | hpast
    · rw [halong.token]
      rfl
    · obtain ⟨hline, hstart⟩ := hacross.signs.begins
      exact congrArg₂ Mark.mk hline hstart
    · exact absurd (Or.inl hpast.ended.kind) hspent
  parting {s t} h hspent := by
    rcases h with halong | hacross | hpast
    · rw [halong.token]
      exact Token.Spent.parting hspent
    · obtain ⟨front, count, more, equals, -, -, ht⟩ := hacross.signs.marks
      exact .of_run ht
    · exact hx.token hpast.meets
  next {s t u condition} h hc hyes hnext hlost := by
    rcases h with halong | hacross | hpast
    · exact halong.advance hx hnext hlost
    · obtain ⟨front, count, more, equals, -, hs, -⟩ := hacross.signs.marks
      rw [show condition s.token = false from hc.greater hs] at hyes
      cases hyes
    · rw [hc.spent (Or.inl hpast.ended.kind)] at hyes
      cases hyes
  greater {s t u} h hread hlost := by
    rcases h with halong | hacross | hpast
    · exact halong.greater hx hread hlost
    · exact hacross.greater hread
    · exact absurd hread (Insists.expectGreater.empty (Or.inl hpast.ended.kind))
  collect {s t p q} h hpq := by
    rcases h with halong | hacross | hpast
    · exact Or.inl (halong.collect hpq)
    · exact Or.inr (Or.inl (hacross.collect hpq))
    · exact Or.inr (Or.inr (hpast.collect hpq))
  gone_spent h := h.elim (fun hgone => Or.inl hgone.ended.kind) fun hspent => hspent.2.1
  gone_collect h := h.imp_left fun hgone =>
    ⟨hgone.after, ⟨hgone.ended.kind, hgone.ended.rest, hgone.ended.notes⟩, hgone.comment⟩

end Passage

end ActionSyntax
