import ActionSyntax.Grammar.Words
import ActionSyntax.Proofs.Literals.Blames
import ActionSyntax.Proofs.Literals.Strings

/-!
Names and reserved words as they are spelled. A name is the longest run of its characters and escapes.
What it is taken for depends on its spelling alone, although spellings are told apart by lengths: every
escape takes more bytes than the character it stands for.
-/

namespace ActionSyntax

set_option autoImplicit false

open Scan Cursor

namespace Scan

section Lengths

theorem utf8Size_le_three {ch : Char} (h : ch.toNat < 0x10000) : ch.utf8Size ≤ 3 := by
  have hval : ch.val.toNat < 0x10000 := h
  unfold Char.utf8Size
  dsimp only
  have hbound : ch.val ≤ 0xFFFF := by
    rw [UInt32.le_iff_toNat_le]
    exact Nat.le_of_lt_succ hval
  split
  · decide
  split
  · decide
  · exact Nat.le_of_eq (if_pos hbound)

theorem hexValueFrom_lt {digits : List Char} {value bound : Nat} (h : value < bound) :
    CharClass.hexValueFrom value digits < bound <<< (4 * digits.length) := by
  induction digits generalizing value bound with
  | nil => exact h
  | cons digit digits ih =>
    have hdigit := CharClass.hexDigitValue_lt digit
    have hnext : value * 16 + (CharClass.hexDigitValue? digit).getD 0 < bound <<< 4 := by
      rw [Nat.shiftLeft_eq]
      omega
    rw [CharClass.hexValueFrom_cons, List.length_cons, Nat.mul_succ 4, Nat.add_comm (4 * _),
      Nat.shiftLeft_add]
    exact ih hnext

/-- A code point is spelled with more bytes than its character takes, even without its backslash. -/
theorem CodePoint.Proper.size_lt {p : CodePoint} (h : p.Proper) :
    p.char.utf8Size < Utf8.byteLength ('\\' :: p.text) := by
  have hfour := p.char.utf8Size_le_four
  have hpos : 0 < p.digits.length := List.length_pos_iff.mpr h.nonempty
  have hnarrow : Utf8.byteLength ('\\' :: p.text) = p.body.length + 2 := by
    rw [Utf8.byteLength_cons, byteLength_narrow h.narrow, CodePoint.text, List.length_cons]
    show 1 + _ = _
    omega
  rw [hnarrow]
  unfold CodePoint.body
  cases hbraced : p.braced with
  | true =>
    simp only [if_true, List.length_cons, List.length_append, List.length_nil]
    omega
  | false =>
    simp only [Bool.false_eq_true, if_false]
    have hwidth := h.width hbraced
    rcases h.letter with hletter | hletter
    · rw [hletter] at hwidth
      have htwo : p.digits.length = 2 := hwidth
      have hvalue : CharClass.hexValue p.digits < 256 := by
        have hlt : CharClass.hexValueFrom 0 p.digits < 1 <<< (4 * p.digits.length) :=
          hexValueFrom_lt Nat.one_pos
        rw [htwo] at hlt
        exact hlt
      have hchar : p.char.utf8Size ≤ 3 := by
        refine utf8Size_le_three ?_
        unfold CodePoint.char charOfValue
        split
        · rename_i hvalid
          have hnat : (Char.ofNat (CharClass.hexValue p.digits)).toNat =
              CharClass.hexValue p.digits := by
            unfold Char.ofNat
            rw [dif_pos hvalid]
            rfl
          omega
        · decide
      omega
    · rw [hletter] at hwidth
      have hfour : p.digits.length = 4 := hwidth
      omega

end Lengths

/-- A part of a name: a character, or a code point in its place. -/
inductive NamePart where
  | plain (ch : Char)
  | escape (p : CodePoint)

namespace NamePart

def text : NamePart → List Char
  | plain ch => [ch]
  | escape p => '\\' :: p.text

def char : NamePart → Char
  | plain ch => ch
  | escape p => p.char

def isPlain : NamePart → Bool
  | plain _ => true
  | escape _ => false

/-- The part stands for a character of the class. -/
def Proper (allowed : Char → Bool) : NamePart → Prop
  | plain ch => allowed ch = true
  | escape p => p.Proper ∧ allowed p.char = true

/-- A part as it is read: a character of names, or a code point of the class. -/
def Legible (allowed : Char → Bool) : NamePart → Prop
  | plain ch => CharClass.isIdentifierPart ch = true
  | escape p => p.Proper ∧ allowed p.char = true

theorem proper_iff_legible {part : NamePart} :
    part.Proper CharClass.isIdentifierPart ↔ part.Legible CharClass.isIdentifierPart := by
  cases part <;> rfl

def texts (parts : List NamePart) : List Char := parts.flatMap text

def chars (parts : List NamePart) : List Char := parts.map char

@[simp] theorem texts_nil : texts [] = [] := rfl

@[simp] theorem texts_cons (part : NamePart) (parts : List NamePart) :
    texts (part :: parts) = part.text ++ texts parts := rfl

@[simp] theorem chars_nil : chars [] = [] := rfl

@[simp] theorem chars_cons (part : NamePart) (parts : List NamePart) :
    chars (part :: parts) = part.char :: chars parts := rfl

theorem texts_of_plain {parts : List NamePart} (h : ∀ part ∈ parts, part.isPlain = true) :
    texts parts = chars parts := by
  induction parts with
  | nil => rfl
  | cons part parts ih =>
    obtain ⟨hpart, hparts⟩ := List.forall_mem_cons.mp h
    rw [texts_cons, chars_cons, ih hparts]
    cases part with
    | plain => rfl
    | escape => cases hpart

theorem Proper.size_le {allowed : Char → Bool} {part : NamePart} (h : part.Proper allowed) :
    part.char.utf8Size ≤ Utf8.byteLength part.text := by
  cases part with
  | plain ch => simp [char, text]
  | escape p => exact Nat.le_of_lt h.1.size_lt

/-- Only a name without escapes is spelled with as many bytes as it has. -/
theorem byteLength_texts {parts : List NamePart}
    (h : ∀ part ∈ parts, part.Proper CharClass.isIdentifierPart) :
    Utf8.byteLength (chars parts) ≤ Utf8.byteLength (texts parts) ∧
      (Utf8.byteLength (chars parts) = Utf8.byteLength (texts parts) ↔
        ∀ part ∈ parts, part.isPlain = true) := by
  induction parts with
  | nil => simp
  | cons part parts ih =>
    obtain ⟨hpart, hparts⟩ := List.forall_mem_cons.mp h
    obtain ⟨hle, hiff⟩ := ih hparts
    have hsize := hpart.size_le
    rw [chars_cons, texts_cons, Utf8.byteLength_cons, Utf8.byteLength_append, List.forall_mem_cons,
      ← hiff]
    refine ⟨by omega, ?_⟩
    cases part with
    | plain ch =>
      simp only [char, text, isPlain, Utf8.byteLength_cons, Utf8.byteLength_nil, true_and]
      omega
    | escape p =>
      have hlt : (escape p).char.utf8Size < Utf8.byteLength (escape p).text := hpart.1.size_lt
      simp only [isPlain, Bool.false_eq_true, false_and, iff_false]
      omega

end NamePart

open NamePart

section Readings

variable {c d : Cursor} {ch : Char} {following rest : List Char} {parts : List NamePart}
  {allowed : Char → Bool}

/-- A name does not go on with what follows. -/
def NameEnds (following : List Char) : Prop := ∀ ch ∈ following.head?, isNamePart ch = false

theorem nameEscape_ok_iff (hrest : c.rest = '\\' :: rest) :
    nameEscape allowed c = .ok (ch, d) ↔
      ∃ p, (escape p).Proper allowed ∧ p.char = ch ∧ c.Passes (escape p).text [] d := by
  have hmark : AllNarrow ['\\'] := by decide
  have hbackslash : c.Passes ['\\'] [] (c.skip 1) := passes_skip hrest hmark
  unfold nameEscape
  constructor
  · intro h
    obtain ⟨⟨read, e⟩, hread, hpure⟩ := ok_of_bind h
    obtain ⟨p, hp, ⟨more, hbegin⟩, rfl, rfl⟩ := escapedChar_ok_iff.mp hread
    dsimp only at hpure
    split at hpure
    · rename_i hallowed
      cases hpure
      exact ⟨p, ⟨hp, hallowed⟩, rfl, hbackslash.trans (passes_skip hbegin.symm hp.narrow)⟩
    · cases hpure
  · rintro ⟨p, ⟨hp, hallowed⟩, rfl, hpasses⟩
    have hinside : (c.skip 1).rest = p.text ++ d.rest :=
      List.append_cancel_left (hbackslash.rest.symm.trans hpasses.rest)
    obtain rfl := hpasses.unique (hbackslash.trans (passes_skip hinside hp.narrow))
    rw [escapedChar_ok_iff.mpr ⟨p, hp, ⟨_, hinside.symm⟩, rfl, rfl⟩]
    exact if_pos hallowed

/-- The parts of a name are read one by one, as far as they go. -/
theorem nameChars_of_parts {fuel : Nat} {read : List Char}
    (hparts : ∀ part ∈ parts, part.Legible allowed)
    (hrest : c.rest = texts parts ++ following) (hends : NameEnds following)
    (hfuel : c.rest.length < fuel) :
    ∃ d, nameChars allowed fuel read c =
      .ok ((chars parts).reverse ++ read, d) ∧ c.Passes (texts parts) [] d := by
  obtain ⟨fuel, rfl⟩ : ∃ n, fuel = n + 1 := ⟨fuel - 1, by omega⟩
  induction parts generalizing fuel read c with
  | nil =>
    refine ⟨c, ?_, .refl c⟩
    unfold nameChars
    have hrest : c.rest = following := hrest
    rw [hrest]
    cases following with
    | nil => rfl
    | cons ch following =>
      have hstop := hends ch rfl
      unfold isNamePart at hstop
      rw [Bool.or_eq_false_iff] at hstop
      simp [hstop]
  | cons part parts ih =>
    obtain ⟨hpart, hparts⟩ := List.forall_mem_cons.mp hparts
    have step : ∀ {e : Cursor}, c.Passes part.text [] e →
        nameChars allowed (fuel + 1) read c =
          nameChars allowed fuel (part.char :: read) e →
        ∃ d, nameChars allowed (fuel + 1) read c =
          .ok ((chars (part :: parts)).reverse ++ read, d) ∧
          c.Passes (texts (part :: parts)) [] d := by
      intro e hpasses heq
      have he : e.rest = texts parts ++ following := by
        refine List.append_cancel_left (hpasses.rest.symm.trans ?_)
        rw [hrest, texts_cons, List.append_assoc]
      have hpos : 0 < part.text.length := by cases part <;> exact Nat.succ_pos _
      have hshorter : e.rest.length < fuel := by
        rw [hpasses.rest, List.length_append] at hfuel
        omega
      obtain ⟨fuel, rfl⟩ : ∃ n, fuel = n + 1 := ⟨fuel - 1, by omega⟩
      obtain ⟨d, hread, hpasses'⟩ := ih hparts he fuel hshorter
      refine ⟨d, ?_, hpasses.trans hpasses'⟩
      rw [heq, hread, chars_cons, List.reverse_cons, List.append_assoc, List.singleton_append]
    cases part with
    | plain ch =>
      have hcons : c.rest = ch :: (texts parts ++ following) := hrest
      refine step (passes_advance hcons (CharClass.not_lineTerminator_of_part hpart)) ?_
      rw [nameChars]
      simp only [hcons]
      exact if_pos hpart
    | escape p =>
      obtain ⟨hp, hallowed⟩ := hpart
      have hcons : c.rest = '\\' :: (p.text ++ (texts parts ++ following)) := by
        rw [hrest, texts_cons, List.append_assoc]
        rfl
      have hmark : AllNarrow ['\\'] := by decide
      have hbackslash : c.Passes ['\\'] [] (c.skip 1) := passes_skip hcons hmark
      have hinside : (c.skip 1).rest = p.text ++ (texts parts ++ following) := by
        simp [skip, hcons]
      have hpasses := hbackslash.trans (passes_skip hinside hp.narrow)
      refine step hpasses ?_
      have hread : nameEscape allowed c =
          .ok (p.char, (c.skip 1).skip p.text.length) :=
        (nameEscape_ok_iff hcons).mpr ⟨p, ⟨hp, hallowed⟩, rfl, hpasses⟩
      rw [nameChars]
      simp only [hcons]
      rw [if_neg (by decide), if_pos (by decide), hread]
      rfl

/-- Whatever is read of a name are parts of it, and nothing goes on with it. -/
theorem parts_of_nameChars {fuel : Nat} {read out : List Char} (hfuel : c.rest.length < fuel)
    (h : nameChars allowed fuel read c = .ok (out, d)) :
    ∃ parts, (∀ part ∈ parts, part.Legible allowed) ∧
      c.Passes (texts parts) [] d ∧ NameEnds d.rest := by
  induction fuel generalizing read c with
  | zero => omega
  | succ fuel ih =>
    have step : ∀ {part : NamePart} {read : List Char} {e : Cursor},
        part.Legible allowed → c.Passes part.text [] e →
        nameChars allowed fuel read e = .ok (out, d) →
        ∃ parts, (∀ part ∈ parts, part.Legible allowed) ∧
          c.Passes (texts parts) [] d ∧ NameEnds d.rest := by
      intro part read e hpart hpasses h
      have hpos : 0 < part.text.length := by cases part <;> exact Nat.succ_pos _
      have hshorter : e.rest.length < fuel := by
        rw [hpasses.rest, List.length_append] at hfuel
        omega
      obtain ⟨parts, hparts, hpasses', hends⟩ := ih hshorter h
      exact ⟨part :: parts, List.forall_mem_cons.mpr ⟨hpart, hparts⟩, hpasses.trans hpasses', hends⟩
    unfold nameChars at h
    cases hrest : c.rest with
    | nil =>
      simp only [hrest] at h
      cases h
      exact ⟨[], List.forall_mem_nil _, .refl _, by simp [NameEnds, hrest]⟩
    | cons ch rest =>
      simp only [hrest] at h
      split at h
      · rename_i hpart
        exact @step (.plain ch) _ _ hpart
          (passes_advance hrest (CharClass.not_lineTerminator_of_part hpart)) h
      rename_i hpart
      split at h
      · rename_i hslash
        rw [eq_of_beq hslash] at hrest
        obtain ⟨⟨escaped, e⟩, hescape, hmore⟩ := ok_of_bind h
        obtain ⟨p, hp, -, hpasses⟩ := (nameEscape_ok_iff hrest).mp hescape
        exact @step (.escape p) _ _ hp hpasses hmore
      · rename_i hslash
        cases h
        refine ⟨[], List.forall_mem_nil _, .refl _, ?_⟩
        rintro ch' hch'
        rw [hrest] at hch'
        cases hch'
        simp [isNamePart, hpart, hslash]

end Readings

section Lexemes

variable {c d : Cursor} {hash : Bool} {following : List Char} {parts : List NamePart}

/-- What is made of a name: it may be reserved, and then it must be spelled plainly. -/
def nameVerdict (reserving plain : Bool) (name : String) (d : Cursor) :
    Except Failure (Lexeme × Cursor) :=
  if reserving && Keyword.isReserved name then
    if plain then .ok ({ kind := .keyword, text := name }, d)
    else .error (.at d .keywordMustNotContainEscapes d.place)
  else .ok ({ kind := .identifier, text := name }, d)

theorem utf8ByteSize_ofList (text : List Char) :
    (String.ofList text).utf8ByteSize = Utf8.byteLength text := by
  induction text with
  | nil => rfl
  | cons ch text ih =>
    rw [Utf8.byteLength_cons, ← ih]
    simp [String.ofList_cons]

theorem nameFrom_of_parts {start : Cursor} {read : List Char} {reserving : Bool}
    (hparts : ∀ part ∈ parts, part.Proper CharClass.isIdentifierPart)
    (hrest : c.rest = texts parts ++ following) (hends : NameEnds following) :
    ∃ d, c.Passes (texts parts) [] d ∧ nameFrom start read reserving c =
      nameVerdict reserving (d.index - start.index == Utf8.byteLength (read.reverse ++ chars parts))
        (String.ofList (read.reverse ++ chars parts)) d := by
  obtain ⟨d, hread, hpasses⟩ : ∃ d, nameChars CharClass.isIdentifierPart (c.rest.length + 1) read c =
      .ok ((chars parts).reverse ++ read, d) ∧ c.Passes (texts parts) [] d :=
    nameChars_of_parts (fun part hmem => proper_iff_legible.mp (hparts part hmem)) hrest hends
      (Nat.lt_succ_self _)
  refine ⟨d, hpasses, ?_⟩
  unfold nameFrom
  rw [hread]
  show (if _ then if d.index - start.index == (String.ofList _).utf8ByteSize then _ else _ else _) = _
  rw [utf8ByteSize_ofList, List.reverse_append, List.reverse_reverse]
  rfl

/-- A name as it is spelled, behind a hash or not. -/
structure Named (hash : Bool) (parts : List NamePart) : Prop where
  proper : ∀ part ∈ parts, part.Proper CharClass.isIdentifierPart
  nonempty : parts ≠ []
  begins : hash = false → ∀ part ∈ parts.head?, part.Proper CharClass.isIdentifierStart

def nameText (hash : Bool) (parts : List NamePart) : List Char :=
  (if hash then ['#'] else []) ++ texts parts

/-- A lexeme that begins with a backslash is a name, or none. -/
theorem lexeme_backslash {rest : List Char} (hrest : c.rest = '\\' :: rest) :
    lexeme c = escapedName c := by
  have hnone : punctuation? c = none := punctuation?_none hrest (by decide +kernel)
  unfold lexeme otherLexeme
  simp only [hrest, hnone]
  rfl

theorem lexeme_hash {rest : List Char} (hrest : c.rest = '#' :: rest) :
    lexeme c = unreservedName c := by
  have hnone : punctuation? c = none := punctuation?_none hrest (by decide +kernel)
  unfold lexeme otherLexeme
  simp only [hrest, hnone]
  rfl

theorem isNamePart_head (h : Named hash parts) :
    ∃ ch rest, texts parts = ch :: rest ∧ isNamePart ch = true := by
  obtain ⟨part, others, rfl⟩ := List.exists_cons_of_ne_nil h.nonempty
  have hpart := h.proper part List.mem_cons_self
  cases part with
  | plain ch =>
    have hpart : CharClass.isIdentifierPart ch = true := hpart
    exact ⟨ch, _, rfl, by simp [isNamePart, hpart]⟩
  | escape p => exact ⟨'\\', _, rfl, by decide⟩

/-- A name is read as far as it goes, and its spelling decides what it is. -/
theorem lexeme_of_parts (h : Named hash parts) (hrest : c.rest = nameText hash parts ++ following)
    (hends : NameEnds following) :
    ∃ d, c.Passes (nameText hash parts) [] d ∧ lexeme c =
      nameVerdict (!hash) (parts.all isPlain) (String.ofList (chars parts)) d := by
  have hplain : ∀ d : Cursor, c.Passes (texts parts) [] d →
      (d.index - c.index == Utf8.byteLength (chars parts)) = parts.all isPlain := by
    intro d hpasses
    rw [hpasses.index, Nat.add_sub_cancel_left, Bool.eq_iff_iff, beq_iff_eq, eq_comm,
      (byteLength_texts h.proper).2, List.all_eq_true]
  cases hash with
  | true =>
    have hrest : c.rest = ['#'] ++ (texts parts ++ following) := hrest
    have hmark : AllNarrow ['#'] := by decide
    have hhash : c.Passes ['#'] [] (c.skip 1) := passes_skip hrest hmark
    obtain ⟨ch, rest, htext, hch⟩ := isNamePart_head h
    obtain ⟨d, hpasses, hread⟩ : ∃ d, (c.skip 1).Passes (texts parts) [] d ∧
        nameFrom c [] false (c.skip 1) = nameVerdict false
          (d.index - c.index == Utf8.byteLength (chars parts)) (String.ofList (chars parts)) d :=
      nameFrom_of_parts h.proper (rest_skip hrest) hends
    refine ⟨d, hhash.trans hpasses, ?_⟩
    rw [lexeme_hash hrest, unreservedName]
    have hinside : (c.skip 1).rest = ch :: (rest ++ following) := by
      rw [show (c.skip 1).rest = texts parts ++ following from rest_skip hrest, htext,
        List.cons_append]
    simp only [hinside, hch, if_true]
    exact hread
  | false =>
    have hrest : c.rest = texts parts ++ following := hrest
    obtain ⟨part, others, rfl⟩ := List.exists_cons_of_ne_nil h.nonempty
    have hbegins := h.begins rfl part rfl
    cases part with
    | plain ch =>
      have hbegins : CharClass.isIdentifierStart ch = true := hbegins
      obtain ⟨d, hpasses, hread⟩ : ∃ d, c.Passes (texts (plain ch :: others)) [] d ∧
          nameFrom c [] true c = nameVerdict true
            (d.index - c.index == Utf8.byteLength (chars (plain ch :: others)))
            (String.ofList (chars (plain ch :: others))) d :=
        nameFrom_of_parts h.proper hrest hends
      refine ⟨d, hpasses, ?_⟩
      have hcons : c.rest = ch :: (texts others ++ following) := hrest
      unfold lexeme
      simp only [hcons, hbegins, if_true]
      rw [hread, hplain d hpasses]
      rfl
    | escape p =>
      have hcons : c.rest = '\\' :: (p.text ++ (texts others ++ following)) := by
        rw [hrest, texts_cons, List.append_assoc]
        rfl
      have hmark : AllNarrow ['\\'] := by decide
      have hinside : (c.skip 1).rest = p.text ++ (texts others ++ following) := by
        simp [skip, hcons]
      have hpasses : c.Passes (escape p).text [] ((c.skip 1).skip p.text.length) :=
        (passes_skip hcons hmark).trans (passes_skip hinside hbegins.1.narrow)
      have hread : nameEscape CharClass.isIdentifierStart c =
          .ok (p.char, (c.skip 1).skip p.text.length) :=
        (nameEscape_ok_iff hcons).mpr ⟨p, hbegins, rfl, hpasses⟩
      have hbehind : ((c.skip 1).skip p.text.length).rest = texts others ++ following := by
        refine List.append_cancel_left (hpasses.rest.symm.trans ?_)
        rw [hrest, texts_cons, List.append_assoc]
      obtain ⟨d, hpasses', hmore⟩ : ∃ d, ((c.skip 1).skip p.text.length).Passes (texts others) [] d ∧
          nameFrom c [p.char] true ((c.skip 1).skip p.text.length) = nameVerdict true
            (d.index - c.index == Utf8.byteLength (chars (escape p :: others)))
            (String.ofList (chars (escape p :: others))) d :=
        nameFrom_of_parts (fun part hmem => h.proper part (List.mem_cons_of_mem _ hmem)) hbehind hends
      refine ⟨d, hpasses.trans hpasses', ?_⟩
      rw [lexeme_backslash hcons, escapedName, hread]
      show nameFrom c [p.char] true _ = _
      rw [hmore, hplain d (hpasses.trans hpasses')]
      rfl

end Lexemes

end Scan

end ActionSyntax
