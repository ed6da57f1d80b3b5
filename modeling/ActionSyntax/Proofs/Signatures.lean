import ActionSyntax.Proofs.Building.Levels
import ActionSyntax.Proofs.Shadows.Insets
import ActionSyntax.Proofs.UnionChains

/-!
Signatures of functions on one line. A type is read there as it is by itself, whatever stands behind it that
no type goes on with, and so are lists of types and of bounds, and clauses one behind the other. In the end
the last token of the signature is that of its last type.
-/

namespace ActionSyntax

set_option autoImplicit false

open Utf8 Scan Parse Rules

/-- There is no line break in the text. -/
def Unbroken (text : List Char) : Prop := ∀ ch ∈ text, CharClass.isLineTerminator ch = false

instance (text : List Char) : Decidable (Unbroken text) := List.decidableBAll _ _

namespace Unbroken

variable {a b : List Char}

theorem append (ha : Unbroken a) (hb : Unbroken b) : Unbroken (a ++ b) := fun ch hch =>
  (List.mem_append.mp hch).elim (ha ch) (hb ch)

/-- A name has no line break in it, not even where a character is escaped. -/
theorem name {hash : Bool} {parts : List NamePart} (h : Named hash parts) : Unbroken (nameText hash parts) := by
  refine append (by cases hash <;> decide) fun ch hch => ?_
  obtain ⟨part, hmem, hpart⟩ := List.mem_flatMap.mp hch
  have hproper := h.proper part hmem
  cases part with
  | plain ch' =>
    obtain rfl : ch = ch' := List.mem_singleton.mp hpart
    exact CharClass.not_lineTerminator_of_part hproper
  | escape p =>
    rcases List.mem_cons.mp hpart with rfl | hpart
    · decide
    · exact (hproper.1.narrow ch hpart).2

theorem ends (h : Unbroken a) (offset : Nat) : Lines.ends offset a = [] :=
  Lines.ends_of_forall_not h offset

/-- A single line that begins with no blank is not indented. -/
theorem margin (h : Unbroken a) (hhead : ∀ ch ∈ a.head?, CharClass.isBlank ch = false) : Lines.margin a = [] := by
  have hlast : Lines.lastLine a = a := by
    unfold Lines.lastLine
    rw [List.rtakeWhile_eq_self_iff]
    intro ch hch
    rw [h ch hch]
    rfl
  unfold Lines.margin
  rw [hlast]
  cases a with
  | nil => rfl
  | cons ch a => exact List.takeWhile_cons_of_neg (by simp [hhead ch rfl])

/-- There is only the first line. -/
theorem line {limit line offset : Nat} (h : Unbroken a) (hat : Lines.At a limit line offset) : line = 1 := by
  obtain ⟨before, after, htext, -, -, -, hline⟩ := hat
  have hbefore : Unbroken before := fun ch hch => h ch (by rw [htext]; exact List.mem_append_left _ hch)
  rw [hline, hbefore.ends]
  rfl

end Unbroken

/-- Behind a blank or in front of a comma, the text begins with a token that goes on with no type. -/
structure Detached (after : List Char) : Prop where
  begins : ∃ ch rest, after = ch :: rest ∧ ch ∈ [' ', ',']
  readable : ∀ front, Scanner.Readable front after
  token : ∀ {front : List Char} {s : ParserState}, s.Faces front after →
    s.token.kind ∈ [.comma, .keyword, .identifier, .number, .string]

/-- No list goes on with the token either. -/
structure Severed (after : List Char) : Prop extends Detached after where
  comma : ∀ {front : List Char} {s : ParserState}, s.Faces front after → s.token.kind ≠ .comma

/-- The parser has read the front of its text, on one line, and the token behind it. The last token of the
front is a brace if so marked. -/
structure ParserState.Arrives (path : String) (front after : List Char) (braced : Bool) (s : ParserState) :
    Prop where
  faces : s.Faces front after
  settled : s.Settled path
  previous : (s.previous.kind == .rightBrace) = braced
  line : s.previous.span.lastLine = 1

/-- Behind a blank and in front of what may follow, the text is read, and its last token is a brace if so
marked. -/
structure ReadsLine {α : Type} (follows : List Char → Prop) (path : String) (p : Parse α) (text : List Char)
    (braced : Bool) (holds : α → Prop) : Prop where
  unbroken : Unbroken text
  read : ∀ {front after : List Char} {w : ParserState}, Unbroken front → follows after →
    w.Behind front ([' '] ++ (text ++ after)) → w.Settled path →
    ∃ t a v, Parse.next w = .ok () t ∧ p t = .ok a v ∧ holds a ∧
      v.Arrives path (front ++ [' '] ++ text) after braced

/-- The text is a type by itself, on one line, and does not end in a comment. -/
structure TypeLine (host : Host) (path text : String) (type : TypeExpr) : Prop where
  accepted : (Parser.ofScript host (Script.ofSource path text)).parseType.1 = some type
  unbroken : Unbroken text.toList
  ended : ¬ EndsInComment host path text

/-- The last token of the type that the text is by itself is a brace. -/
def endsInBrace (host : Host) (path text : String) : Bool :=
  (Parser.ofScript host (Script.ofSource path text)).parseType.2.state.previous.kind == .rightBrace

/-- What stands behind the reading takes nothing. -/
theorem ReadsLine.andThen {α β : Type} {follows : List Char → Prop} {path : String} {p : Parse α}
    {f : α → Parse β} {text : List Char} {braced : Bool} {holds : α → Prop} {holds' : β → Prop}
    (h : ReadsLine follows path p text braced holds)
    (hf : ∀ a v, holds a → ∃ b, f a v = .ok b v ∧ holds' b) :
    ReadsLine follows path (p >>= f) text braced holds' := by
  refine ⟨h.unbroken, fun hfront hafter hw hsettled => ?_⟩
  obtain ⟨t, a, v, hnext, hread, ha, hv⟩ := h.read hfront hafter hw hsettled
  obtain ⟨b, hfound, hb⟩ := hf a v ha
  exact ⟨t, b, v, hnext, (bind_of_ok hread f).trans hfound, hb, hv⟩

namespace Detached

variable {after : List Char}

theorem head (h : Detached after) : ∀ ch ∈ after.head?, ch ∈ partings ∧ ch ≠ '>' ∧ ch ≠ '.' := by
  have hparts : ∀ ch ∈ [' ', ','], ch ∈ partings ∧ ch ≠ '>' ∧ ch ≠ '.' := by decide
  obtain ⟨ch, rest, rfl, hch⟩ := h.begins
  rintro first ⟨⟩
  exact hparts ch hch

theorem followed (h : Detached after) (before piece : List Char) :
    (Passage.bare before piece after).Followed := by
  have hhead := h.head
  obtain ⟨ch, rest, rfl, hch⟩ := h.begins
  refine .of_faces ⟨Or.inr ⟨ch, rest, rfl, (hhead ch rfl).1⟩, ?_⟩ (fun first hfirst => (hhead first hfirst).2)
    (h.readable _) fun hfaces => ?_
  · have hapart : ∀ ch ∈ [' ', ','], ch ≠ '|' ∧ ch ≠ '=' ∧ ch ≠ '\n' := by decide
    obtain ⟨hbar, hequals, hfeed⟩ := hapart ch hch
    intro last _ first hfirst
    cases hfirst
    exact ⟨fun _ => ⟨hbar, hequals⟩, fun _ => hfeed⟩
  · have hkind := h.token hfaces
    simp only [List.mem_cons, List.not_mem_nil, or_false] at hkind
    rcases hkind with hkind | hkind | hkind | hkind | hkind <;>
      exact ⟨by simp [hkind], by simp [Token.isOperator, hkind]⟩

theorem endsType (h : Detached after) {front : List Char} {s : ParserState} (hs : s.Faces front after) :
    s.token.EndsType := by
  have hkind := h.token hs
  simp only [List.mem_cons, List.not_mem_nil, or_false] at hkind
  rcases hkind with hkind | hkind | hkind | hkind | hkind <;>
    exact ⟨by simp [hkind], by simp [Token.isOperator, hkind]⟩

theorem comma (rest : List Char) : Detached (',' :: rest) := by
  have htoken : Tokenizes [] [','] rest { kind := .comma } := tokenizes_comma (List.forall_mem_nil _) rest
  refine ⟨⟨',', rest, rfl, by decide⟩, htoken.scans, fun {front s} hs => ?_⟩
  have hs : s.Faces front ([] ++ ([','] ++ rest)) := hs
  rw [(hs.behind htoken).2]
  simp

end Detached

theorem Severed.keyword {word : String} {rest : List Char}
    (htoken : Tokenizes [' '] word.toList rest { kind := .keyword, text := word }) :
    Severed ([' '] ++ (word.toList ++ rest)) := by
  have hkind : ∀ {front : List Char} {s : ParserState}, s.Faces front ([' '] ++ (word.toList ++ rest)) →
      s.token.kind = .keyword := fun hs => by rw [(hs.behind htoken).2]
  exact ⟨⟨⟨' ', _, rfl, by decide⟩, htoken.scans, fun hs => by simp [hkind hs]⟩, fun hs => by simp [hkind hs]⟩

/-- And no clause begins with it. -/
structure Bodily (after : List Char) : Prop extends Severed after where
  clause : ∀ {front : List Char} {s : ParserState}, s.Faces front after →
    ∀ word ∈ ["throws", "where"], s.token.isKeyword word = false

/-- No name goes on behind a blank. -/
theorem nameEnds_blank (rest : List Char) : NameEnds ([' '] ++ rest) := by
  rintro ch ⟨⟩
  decide

section Types

variable {host : Host} {path text : String} {own : TypeExpr} {n : Nat}

/-- The type is read in its place, and nothing else is changed. -/
theorem TypeLine.reads (h : TypeLine host path text own) (hn : text.toList.length + 4 ≤ n) :
    ReadsLine Detached path (host.level n).typeExpr text.toList (endsInBrace host path text) (Matches own) where
  unbroken := h.unbroken
  read {front after w} hfront hafter hw hsettled := by
    have hsign : after.head? ≠ some '>' := fun hsign => (hafter.head '>' hsign).2.1 rfl
    have hwhole : ¬ Lines.Splits [' '] (text.toList ++ after) := Lines.not_splits_of_last (by decide) [] _
    obtain ⟨hpath, hvalid, hfunctions, hsuper⟩ := hsettled
    obtain ⟨m, rfl⟩ : ∃ m, n = m + 1 := ⟨n - 1, by omega⟩
    obtain ⟨t, v, hnext, hread, hpast, hkeeps⟩ := Parser.parseType_within h.accepted (hafter.followed _ _)
      (fun hmeets => hafter.endsType (hmeets.faces_of_head hsign)) hw (by decide) hwhole hpath hvalid
      (fun hcomment => absurd hcomment h.ended) (Nat.le_of_succ_le_succ hn)
    let s := (Parser.ofScript host (Script.ofSource path text)).parseType.2.state
    have hwalk : Walk (ParserState.ofScript (Script.ofSource path text)) s :=
      Parser.walk_calls host path text [.type]
    have hline := (hwalk.content_eq ▸ h.unbroken : Unbroken s.script.content).line
      (hwalk.sound (.ofSource _ _)).1.previous.2
    refine ⟨t, _, v, hnext, hread, (TypeExpr.bare_moved _ _ own).symm, hpast.meets.faces_of_head hsign,
      ⟨hkeeps.path.trans hpath, hkeeps.valid.trans hvalid, hkeeps.functions.trans hfunctions,
        hkeeps.superFound.trans hsuper⟩, ?_, ?_⟩
    · unfold endsInBrace
      rw [hpast.previous]
      rfl
    · rw [hpast.previous]
      show s.previous.span.lastLine + (Lines.ends 0 (front ++ [' '])).length = 1
      rw [(hfront.append (by decide)).ends, hline]
      rfl

end Types

section Lists

/-- Texts with a comma and a blank between two of them. -/
def listed {ι : Type} (text : ι → List Char) (first : ι) (rest : List ι) : List Char :=
  text first ++ rest.flatMap fun item => [',', ' '] ++ text item

/-- A comma list is read item by item, and ends as its last item does. -/
theorem separated_reads {α ι : Type} {path : String} {p : Parse α} {text : ι → List Char} {braced : ι → Bool}
    {holds : ι → α → Prop} : ∀ {first : ι} {rest : List ι} {fuel : Nat},
    (∀ item ∈ first :: rest, ReadsLine Detached path p (text item) (braced item) (holds item)) →
    rest.length < fuel → ReadsLine Severed path (separated p fuel) (listed text first rest)
      (braced ((first :: rest).getLast (List.cons_ne_nil _ _))) (List.Forall₂ holds (first :: rest))
  | first, [], fuel + 1, h, _ => by
    have hfirst := h first List.mem_cons_self
    have htext : listed text first [] = text first := List.append_nil _
    rw [htext]
    refine ⟨hfirst.unbroken, fun {front after w} hfront hafter hw hsettled => ?_⟩
    obtain ⟨t, a, v, hnext, hread, ha, hv⟩ := hfirst.read hfront hafter.toDetached hw hsettled
    refine ⟨t, [a], v, hnext, ?_, .cons ha .nil, hv⟩
    unfold separated
    rw [bind_of_ok hread, bind_of_ok (consume_no (hafter.comma hv.faces))]
    rfl
  | first, second :: rest, fuel + 1, h, hfuel => by
    have hfirst := h first List.mem_cons_self
    have hrest : ReadsLine Severed path (separated p fuel) (listed text second rest) _ _ :=
      separated_reads (fun item hitem => h item (List.mem_cons_of_mem _ hitem)) (Nat.lt_of_succ_lt_succ hfuel)
    have htext : listed text first (second :: rest) = text first ++ ([','] ++ ([' '] ++ listed text second rest)) := by
      simp [listed]
    rw [htext]
    refine ⟨hfirst.unbroken.append (Unbroken.append (by decide) (.append (by decide) hrest.unbroken)),
      fun {front after w} hfront hafter hw hsettled => ?_⟩
    obtain ⟨t, a, v, hnext, hread, ha, hv⟩ := hfirst.read hfront
      (.comma ([' '] ++ (listed text second rest ++ after))) (by simpa using hw) hsettled
    have hcomma : Tokenizes [] [','] ([' '] ++ (listed text second rest ++ after)) { kind := .comma } :=
      tokenizes_comma (List.forall_mem_nil _) _
    have hfaces : v.Faces (front ++ [' '] ++ text first)
      ([] ++ ([','] ++ ([' '] ++ (listed text second rest ++ after)))) := hv.faces
    obtain ⟨hbehind, htoken⟩ := hfaces.behind hcomma
    have hfront' : Unbroken (front ++ [' '] ++ text first ++ [',']) :=
      ((hfront.append (by decide)).append hfirst.unbroken).append (by decide)
    obtain ⟨t', as, v', hnext', hread', has, hv'⟩ := hrest.read hfront' hafter (by simpa using hbehind)
      hv.settled
    refine ⟨t, a :: as, v', hnext, ?_, .cons ha has, by simpa using hv'⟩
    unfold separated
    rw [bind_of_ok hread, bind_of_ok (consume_yes (by rw [htoken]) hnext'), if_pos rfl, bind_of_ok hread']
    rfl

end Lists

/-- A type as it is written, and what it is. -/
structure WrittenType where
  text : String
  type : TypeExpr

/-- A name, and the type that bounds it. -/
structure WrittenBound where
  name : List NamePart
  type : WrittenType

/-- A clause behind the parameters of a function. -/
inductive WrittenClause where
  | throws (first : WrittenType) (rest : List WrittenType)
  | bounds (first : WrittenBound) (rest : List WrittenBound)

namespace WrittenType

def Proper (host : Host) (path : String) (t : WrittenType) : Prop := TypeLine host path t.text t.type

def braced (host : Host) (path : String) (t : WrittenType) : Bool := endsInBrace host path t.text

/-- Several types that are thrown are their union. -/
def thrown : List WrittenType → TypeExpr
  | [single] => single.type
  | types => .union default (types.map (·.type))

end WrittenType

namespace WrittenBound

def text (b : WrittenBound) : List Char :=
  NamePart.texts b.name ++ ([' '] ++ ("is".toList ++ ([' '] ++ b.type.text.toList)))

def bound (b : WrittenBound) : TypeBound where
  span := default
  id := { span := default, name := String.ofList (NamePart.chars b.name) }
  type := b.type.type

/-- The name is one, and the type is. -/
structure Proper (host : Host) (path : String) (b : WrittenBound) : Prop where
  named : Named false b.name
  free : Keyword.isReserved (String.ofList (NamePart.chars b.name)) = false
  type : b.type.Proper host path

end WrittenBound

namespace WrittenClause

def text : WrittenClause → List Char
  | throws first rest => [' '] ++ ("throws".toList ++ ([' '] ++ listed (·.text.toList) first rest))
  | bounds first rest => [' '] ++ ("where".toList ++ ([' '] ++ listed WrittenBound.text first rest))

def isThrows : WrittenClause → Bool
  | throws .. => true
  | bounds .. => false

/-- The last type of the clause. -/
def last : WrittenClause → WrittenType
  | throws first rest => (first :: rest).getLast (List.cons_ne_nil _ _)
  | bounds first rest => ((first :: rest).getLast (List.cons_ne_nil _ _)).type

def Proper (host : Host) (path : String) : WrittenClause → Prop
  | throws first rest => ∀ type ∈ first :: rest, type.Proper host path
  | bounds first rest => ∀ bound ∈ first :: rest, bound.Proper host path

/-- The clauses with one more. -/
def onto (clauses : Clauses) : WrittenClause → Clauses
  | throws first rest => { clauses with throws := some (WrittenType.thrown (first :: rest)) }
  | bounds first rest =>
    { clauses with generics := some (addBounds clauses.generics ((first :: rest).map WrittenBound.bound)) }

end WrittenClause

section Clauses

variable {host : Host} {path : String} {n : Nat}

theorem length_le_listed {ι : Type} (text : ι → List Char) (first : ι) (rest : List ι) :
    rest.length ≤ (listed text first rest).length ∧
      ∀ item ∈ first :: rest, (text item).length ≤ (listed text first rest).length := by
  induction rest generalizing first with
  | nil => simp [listed]
  | cons second rest ih =>
    obtain ⟨hlength, hitems⟩ := ih second
    have htext : listed text first (second :: rest) =
        text first ++ ([',', ' '] ++ listed text second rest) := by simp [listed]
    rw [htext]
    simp only [List.length_append, List.length_cons, List.length_nil]
    refine ⟨by omega, fun item hitem => ?_⟩
    rcases List.mem_cons.mp hitem with rfl | hitem
    · omega
    · have := hitems item hitem
      omega

/-- Items that match theirs one by one match them all. -/
theorem matches_of_forall₂ {ι α : Type} [Bare α] {own : ι → α} {items : List ι} {found : List α}
    (h : List.Forall₂ (fun item => Matches (own item)) items found) : Matches (items.map own) found := by
  induction h with
  | nil => rfl
  | cons hfirst _ ih =>
    simp only [Matches, bare_list, List.map_cons] at hfirst ih ⊢
    rw [hfirst, ih]

theorem throwsType_reads {first : WrittenType} {rest : List WrittenType}
    (h : ∀ type ∈ first :: rest, type.Proper host path)
    (hn : (listed (·.text.toList) first rest).length + 4 ≤ n) :
    ReadsLine Severed path (host.level n).throwsType (listed (·.text.toList) first rest)
      (((first :: rest).getLast (List.cons_ne_nil _ _)).braced host path)
      (Matches (WrittenType.thrown (first :: rest))) := by
  obtain ⟨hlength, hitems⟩ := length_le_listed (fun type : WrittenType => type.text.toList) first rest
  have hrounds : rest.length < (host.level n).rounds := by
    rw [host.level_rounds]
    omega
  have hlist := separated_reads (fun type hmem =>
    (h type hmem).reads ((Nat.add_le_add_right (hitems type hmem) 4).trans hn)) hrounds
  refine hlist.andThen fun types v htypes => ?_
  have hmatch := matches_of_forall₂ htypes
  cases htypes with
  | cons hfirst hrest =>
    cases hrest with
    | nil => exact ⟨_, rfl, hfirst⟩
    | cons hsecond hrest => exact ⟨_, rfl, by simpa [WrittenType.thrown] using hmatch⟩

/-- A name is taken as an identifier. -/
theorem Parse.identifier_yes {s t : ParserState} (hkind : s.token.kind = .identifier)
    (hnext : Parse.next s = .ok () t) :
    ∃ span, identifier s = .ok { span, name := s.token.text } t := by
  refine ⟨(Mark.ofSpan s.token.span).«to» s.token.span, ?_⟩
  unfold identifier identifierOf
  rw [mark_bind, bind_of_ok (expectIf_yes (by simp [hkind]) hnext), finish_bind, previous_bind,
    (next_inv hnext).2]
  rfl

/-- A name and its bound are read as a bound. -/
theorem WrittenBound.Proper.reads {b : WrittenBound} (h : b.Proper host path) (hn : b.text.length + 4 ≤ n) :
    ReadsLine Detached path (host.level n).typeBound b.text (b.type.braced host path) (Matches b.bound) := by
  have htype := h.type.reads (n := n) (by simp [WrittenBound.text] at hn; omega)
  refine ⟨(Unbroken.name h.named).append (.append (by decide) (.append (by decide)
    (.append (by decide) h.type.unbroken))), fun {front after w} hfront hafter hw hsettled => ?_⟩
  let rest := b.type.text.toList ++ after
  have htext : b.text ++ after = NamePart.texts b.name ++ ([' '] ++ ("is".toList ++ ([' '] ++ rest))) := by
    simp [WrittenBound.text, rest]
  have hname : Tokenizes [' '] (NamePart.texts b.name) ([' '] ++ ("is".toList ++ ([' '] ++ rest)))
      { kind := .identifier, text := String.ofList (NamePart.chars b.name) } :=
    tokenizes_name (by decide) h.named (fun _ => h.free) (nameEnds_blank _)
  have hword : Tokenizes [' '] "is".toList ([' '] ++ rest) { kind := .keyword, text := "is" } :=
    tokenizes_keyword (by decide) (by decide) (nameEnds_blank rest)
  rw [htext] at hw
  obtain ⟨t, hnext, hbehind, htoken, -, hkeeps, -⟩ := hw.next hname
  obtain ⟨t', hnext', hbehind', htoken', -, hkeeps', -⟩ := hbehind.next hword
  have hfront' : Unbroken (front ++ [' '] ++ NamePart.texts b.name ++ [' '] ++ "is".toList) :=
    (((hfront.append (by decide)).append (.name h.named)).append (by decide)).append (by decide)
  obtain ⟨t'', type, v, hnext'', hread, hmatch, hv⟩ :=
    htype.read hfront' hafter hbehind' ((hsettled.keeps hkeeps).keeps hkeeps')
  obtain ⟨span, hid⟩ := identifier_yes (by rw [htoken]) hnext'
  have hkeyword : expectKeyword "is" t' = .ok () t'' := expectIf_yes (by rw [htoken']; rfl) hnext''
  refine ⟨t, ⟨(Mark.ofSpan t.token.span).«to» v.previous.span, { span, name := t.token.text }, type⟩, v, hnext,
    ?_, ?_, by simpa [WrittenBound.text, WrittenType.braced] using hv⟩
  · unfold typeBound
    rw [mark_bind, bind_of_ok hid, bind_of_ok hkeyword, bind_of_ok hread, finish_bind]
    rfl
  · rw [htoken]
    simp_all [WrittenBound.bound]

/-- A word in front of what has still to be read. -/
theorem ParserState.Arrives.keyword {front more : List Char} {word : String} {braced : Bool} {s : ParserState}
    (h : s.Arrives path front ([' '] ++ (word.toList ++ ([' '] ++ more))) braced)
    (hword : Keyword.isReserved word = true) :
    s.Behind (front ++ [' '] ++ word.toList) ([' '] ++ more) ∧
      ∀ other, s.token.isKeyword other = (word == other) := by
  obtain ⟨hbehind, htoken⟩ := h.faces.behind (tokenizes_keyword (by decide) hword (nameEnds_blank more))
  refine ⟨hbehind, fun other => ?_⟩
  rw [htoken]
  rfl

namespace WrittenClause

/-- One clause is read, and the rest of them is left. -/
theorem Proper.reads {clause : WrittenClause} (h : clause.Proper host path) {own found : Clauses}
    (hmatch : Matches own found) (hsingle : clause.isThrows = true → found.throws = none)
    {front after : List Char} {braced : Bool} {s : ParserState} (hfront : Unbroken front)
    (hafter : Severed after) (hs : s.Arrives path front (clause.text ++ after) braced)
    (hn : clause.text.length + 4 ≤ n) :
    Unbroken clause.text ∧ ∃ found' v,
      (∀ fuel, (host.level n).functionClauses (fuel + 1) found s =
        (host.level n).functionClauses fuel found' v) ∧
      Matches (onto own clause) found' ∧
      (found'.throws.isSome = (found.throws.isSome || clause.isThrows)) ∧
      v.Arrives path (front ++ clause.text) after (clause.last.braced host path) := by
  cases clause with
  | throws first rest =>
    have hlist := throwsType_reads h (n := n) (by simp [text] at hn; omega)
    have htext : text (.throws first rest) ++ after =
        [' '] ++ ("throws".toList ++ ([' '] ++ (listed (·.text.toList) first rest ++ after))) := by simp [text]
    rw [htext] at hs
    obtain ⟨hbehind, hword⟩ := hs.keyword (by decide)
    obtain ⟨t, type, v, hnext, hread, htype, hv⟩ := hlist.read
      ((hfront.append (by decide)).append (by decide)) hafter hbehind hs.settled
    have hconsume : consumeKeyword "throws" s = .ok true t := consumeIf_yes (hword _) hnext
    refine ⟨.append (by decide) (.append (by decide) (.append (by decide) hlist.unbroken)),
      { found with throws := some type }, v, fun fuel => ?_, ?_, by simp [isThrows], by simpa [text, last] using hv⟩
    · rw [functionClauses, bind_of_ok hconsume, if_pos rfl, previous_bind, hsingle rfl]
      exact bind_of_ok hread _
    · simp_all [onto]
  | bounds first rest =>
    obtain ⟨hlength, hitems⟩ := length_le_listed WrittenBound.text first rest
    have hn : (listed WrittenBound.text first rest).length + 4 ≤ n := by
      simp [text] at hn
      omega
    have hrounds : rest.length < (host.level n).rounds := by
      rw [host.level_rounds]
      omega
    have hlist := separated_reads (fun bound hmem =>
      (h bound hmem).reads ((Nat.add_le_add_right (hitems bound hmem) 4).trans hn)) hrounds
    have htext : text (.bounds first rest) ++ after =
        [' '] ++ ("where".toList ++ ([' '] ++ (listed WrittenBound.text first rest ++ after))) := by simp [text]
    rw [htext] at hs
    obtain ⟨hbehind, hword⟩ := hs.keyword (by decide)
    obtain ⟨t, bounds, v, hnext, hread, hbounds, hv⟩ := hlist.read
      ((hfront.append (by decide)).append (by decide)) hafter hbehind hs.settled
    have hnone : consumeKeyword "throws" s = .ok false s := consumeKeyword_no (hword _)
    have hclause : (host.level n).boundsClause? found.generics s =
        .ok (some (addBounds found.generics bounds)) v := by
      have hconsume : consumeKeyword "where" s = .ok true t := consumeIf_yes (hword _) hnext
      unfold boundsClause?
      rw [bind_of_ok hconsume, if_pos rfl, bind_of_ok hread]
      rfl
    refine ⟨.append (by decide) (.append (by decide) (.append (by decide) hlist.unbroken)),
      { found with generics := some (addBounds found.generics bounds) }, v, fun fuel => ?_, ?_,
      by simp [isThrows], ?_⟩
    · rw [functionClauses, bind_of_ok hnone, if_neg Bool.false_ne_true, bind_of_ok hclause]
    · have hgenerics : Matches own.generics found.generics := by simp_all
      have hadded := hgenerics.addBounds (matches_of_forall₂ hbounds)
      simp_all [onto]
    · have hlast : ((first :: rest).getLast (List.cons_ne_nil _ _)).type = last (.bounds first rest) := rfl
      rw [← hlast]
      simpa [text] using hv

theorem text_severed (clause : WrittenClause) (after : List Char) : Severed (clause.text ++ after) := by
  have hkeyword : ∀ (word : String) (more : List Char), Keyword.isReserved word = true →
      Severed ([' '] ++ (word.toList ++ ([' '] ++ more))) := fun word more hword =>
    .keyword (tokenizes_keyword (by decide) hword (nameEnds_blank more))
  cases clause with
  | throws first rest =>
    have := hkeyword "throws" (listed (·.text.toList) first rest ++ after) (by decide)
    simpa [text] using this
  | bounds first rest =>
    have := hkeyword "where" (listed WrittenBound.text first rest ++ after) (by decide)
    simpa [text] using this

/-- The clauses as they are written, one behind the other. -/
def texts (clauses : List WrittenClause) : List Char := clauses.flatMap text

theorem texts_severed (clauses : List WrittenClause) {after : List Char} (h : Bodily after) :
    Severed (texts clauses ++ after) := by
  cases clauses with
  | nil => exact h.toSevered
  | cons first rest => simpa [texts] using first.text_severed (texts rest ++ after)

/-- There is something to read for each clause. -/
theorem length_le_texts (clauses : List WrittenClause) : clauses.length ≤ (texts clauses).length := by
  induction clauses with
  | nil => exact Nat.zero_le _
  | cons first rest ih =>
    have hpos : 1 ≤ first.text.length := by cases first <;> simp [text]
    show rest.length + 1 ≤ (first.text ++ texts rest).length
    rw [List.length_append]
    omega

/-- All clauses are read, if types are thrown only once. The last token is that of the last clause. -/
theorem reads_all {clauses : List WrittenClause} {own found : Clauses} {front after : List Char}
    {braced : Bool} {s : ParserState} {fuel : Nat} (h : ∀ clause ∈ clauses, clause.Proper host path)
    (hcount : clauses.countP isThrows + found.throws.isSome.toNat ≤ 1) (hmatch : Matches own found)
    (hfront : Unbroken front) (hafter : Bodily after) (hs : s.Arrives path front (texts clauses ++ after) braced)
    (hfuel : clauses.length < fuel) (hn : (texts clauses).length + 4 ≤ n) :
    Unbroken (texts clauses) ∧ ∃ found' v, (host.level n).functionClauses fuel found s = .ok found' v ∧
      Matches (clauses.foldl onto own) found' ∧ v.Arrives path (front ++ texts clauses) after
        ((clauses.getLast?.map (·.last.braced host path)).getD braced) := by
  induction clauses generalizing own found front braced s fuel with
  | nil =>
    obtain ⟨fuel, rfl⟩ : ∃ more, fuel = more + 1 := ⟨fuel - 1, by omega⟩
    have hplain := hafter.clause hs.faces
    have hthrows : consumeKeyword "throws" s = .ok false s := consumeKeyword_no (hplain _ (by decide))
    have hwhere : consumeKeyword "where" s = .ok false s := consumeKeyword_no (hplain _ (by decide))
    have hbounds : (host.level n).boundsClause? found.generics s = .ok none s := by
      unfold boundsClause?
      rw [bind_of_ok hwhere]
      rfl
    refine ⟨nofun, found, s, ?_, hmatch, by simpa [texts] using hs⟩
    rw [functionClauses, bind_of_ok hthrows, if_neg Bool.false_ne_true, bind_of_ok hbounds]
    rfl
  | cons clause rest ih =>
    obtain ⟨fuel, rfl⟩ : ∃ more, fuel = more + 1 := ⟨fuel - 1, by omega⟩
    have htext : texts (clause :: rest) = clause.text ++ texts rest := rfl
    rw [htext, List.length_append] at hn
    have hsevered := texts_severed rest hafter
    have hsingle : clause.isThrows = true → found.throws = none := by
      intro hthrows
      rw [List.countP_cons_of_pos hthrows] at hcount
      cases hfound : found.throws with
      | none => rfl
      | some _ => simp [hfound] at hcount
    obtain ⟨hunbroken, found', v, hread, hmatch', hthrows, hv⟩ :=
      (h clause List.mem_cons_self).reads hmatch hsingle hfront hsevered
        (by simpa [texts] using hs) (n := n) (by omega)
    have hcount' : rest.countP isThrows + found'.throws.isSome.toNat ≤ 1 := by
      rw [hthrows]
      rw [List.countP_cons] at hcount
      cases hclause : clause.isThrows <;> cases hfound : found.throws.isSome <;>
        simp [hclause, hfound] at hcount ⊢ <;> omega
    obtain ⟨hunbroken', found'', v', hread', hmatch'', hv'⟩ :=
      ih (fun c hmem => h c (List.mem_cons_of_mem _ hmem)) hcount' hmatch' (hfront.append hunbroken) hv
        (Nat.lt_of_succ_lt_succ hfuel) (by omega)
    refine ⟨hunbroken.append hunbroken', found'', v', (hread fuel).trans hread', hmatch'', ?_⟩
    rw [htext, ← List.append_assoc, List.getLast?_cons]
    cases hlast : rest.getLast? <;> simpa [hlast] using hv'

end WrittenClause

end Clauses

/-- What stands behind the parameters of a function in front of its body. -/
structure WrittenSignature where
  result : Option WrittenType
  clauses : List WrittenClause

namespace WrittenSignature

/-- The result behind its colon. -/
def resultText : Option WrittenType → List Char
  | none => []
  | some type => [':'] ++ ([' '] ++ type.text.toList)

def text (signature : WrittenSignature) : List Char :=
  resultText signature.result ++ WrittenClause.texts signature.clauses

/-- All types are read by themselves, and types are thrown only once. -/
structure Proper (host : Host) (path : String) (signature : WrittenSignature) : Prop where
  result : ∀ type ∈ signature.result, type.Proper host path
  clauses : ∀ clause ∈ signature.clauses, clause.Proper host path
  single : signature.clauses.countP WrittenClause.isThrows ≤ 1

/-- The type with which the signature ends. -/
def last? (signature : WrittenSignature) : Option WrittenType :=
  (signature.clauses.getLast?.map (·.last)).or signature.result

def braced (host : Host) (path : String) (signature : WrittenSignature) : Bool :=
  signature.last?.any (·.braced host path)

/-- What the clauses amount to. -/
def found (signature : WrittenSignature) : Clauses := signature.clauses.foldl WrittenClause.onto {}

section Reading

variable {host : Host} {path : String} {signature : WrittenSignature} {before after : List Char} {n : Nat}
  {s : ParserState}

/-- A result is read behind the closing parenthesis, if there is one. -/
theorem result_reads {result : Option WrittenType} (h : ∀ type ∈ result, type.Proper host path)
    (hfront : Unbroken (before ++ [')'])) (hafter : Detached after)
    (hs : s.Behind (before ++ [')']) (resultText result ++ after)) (hsettled : s.Settled path)
    (htoken : s.token = { kind := .rightParen, span := Lines.spanOf before [')'] })
    (hn : (resultText result).length + 4 ≤ n) :
    Unbroken (resultText result) ∧ ∃ t found u, Parse.next s = .ok () t ∧
      Rules.optAnnotation (host.level n) t = .ok found u ∧ Matches (result.map (·.type)) found ∧
      u.Arrives path (before ++ [')'] ++ resultText result) after (result.any (·.braced host path)) := by
  cases result with
  | none =>
    obtain ⟨t, hnext, hfaces, hprevious, hkeeps⟩ := hs.faces (hafter.readable _)
    have hcolon : t.token.kind ≠ .colon := by
      intro heq
      have := hafter.token hfaces
      simp [heq] at this
    refine ⟨nofun, t, none, t, hnext, ?_, rfl, ?_⟩
    · unfold optAnnotation
      rw [bind_of_ok (consume_no hcolon)]
      rfl
    · have hline : (Lines.ends 0 (before ++ [')'])).length + 1 = 1 := by rw [hfront.ends]; rfl
      rw [show before ++ [')'] ++ resultText none = before ++ [')'] from List.append_nil _]
      refine ⟨hfaces, hsettled.keeps hkeeps, ?_, ?_⟩
      · rw [hprevious, htoken]
        rfl
      · rw [hprevious, htoken]
        exact hline
  | some type =>
    have htype := (h type rfl).reads (n := n) (by simp [resultText] at hn; omega)
    have hcolon : Tokenizes [] [':'] ([' '] ++ (type.text.toList ++ after)) { kind := .colon } :=
      tokenizes_sole (show (':', TokenKind.colon) ∈ soleMarks by decide) (List.forall_mem_nil _) _
    have hs : s.Behind (before ++ [')']) ([] ++ ([':'] ++ ([' '] ++ (type.text.toList ++ after)))) := by
      simpa [resultText] using hs
    obtain ⟨t, hnext, hbehind, hkind, -, hkeeps, -⟩ := hs.next hcolon
    obtain ⟨t', found, v, hnext', hread, hmatch, hv⟩ := htype.read
      ((hfront.append (List.forall_mem_nil _)).append (by decide)) hafter hbehind (hsettled.keeps hkeeps)
    refine ⟨.append (by decide) (.append (by decide) htype.unbroken), t, some found, v, hnext, ?_,
      congrArg some hmatch, by simpa [resultText, WrittenType.braced] using hv⟩
    unfold optAnnotation
    rw [bind_of_ok (consume_yes (by rw [hkind]) hnext'), if_pos rfl, bind_of_ok hread]
    rfl

/-- Behind the closing parenthesis, the result and the clauses are read. -/
theorem Proper.reads (h : signature.Proper host path) (hfront : Unbroken (before ++ [')']))
    (hafter : Bodily after) (hs : s.Behind (before ++ [')']) (signature.text ++ after)) (hsettled : s.Settled path)
    (htoken : s.token = { kind := .rightParen, span := Lines.spanOf before [')'] })
    (hn : signature.text.length + 4 ≤ n) :
    Unbroken signature.text ∧ ∃ t result u clauses v, Parse.next s = .ok () t ∧
      Rules.optAnnotation (host.level n) t = .ok result u ∧
      (host.level n).functionClauses (host.level n).rounds {} u = .ok clauses v ∧
      Matches (signature.result.map (·.type)) result ∧ Matches signature.found clauses ∧
      v.Arrives path (before ++ [')'] ++ signature.text) after (signature.braced host path) := by
  have hlength := WrittenClause.length_le_texts signature.clauses
  rw [text, List.length_append] at hn
  have hrounds : signature.clauses.length < (host.level n).rounds := by
    rw [host.level_rounds]
    omega
  rw [text, List.append_assoc] at hs
  obtain ⟨hresult, t, result, u, hnext, hannotation, hmatch, hu⟩ := result_reads (n := n) h.result hfront
    (WrittenClause.texts_severed signature.clauses hafter).toDetached hs hsettled htoken (by omega)
  obtain ⟨hclauses, clauses, v, hread, hmatch', hv⟩ := WrittenClause.reads_all (n := n) h.clauses
    (by simpa using h.single) (.refl {}) (hfront.append hresult) hafter hu hrounds (by omega)
  refine ⟨hresult.append hclauses, t, result, u, clauses, v, hnext, hannotation, hread, hmatch, hmatch', ?_⟩
  have hbraced : signature.braced host path = ((signature.clauses.getLast?.map
      (·.last.braced host path)).getD (signature.result.any (·.braced host path))) := by
    unfold braced last?
    cases signature.clauses.getLast? <;> simp
  rw [hbraced, text, ← List.append_assoc]
  exact hv

end Reading

end WrittenSignature

end ActionSyntax
