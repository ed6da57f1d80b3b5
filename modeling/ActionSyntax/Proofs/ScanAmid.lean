import Mathlib.Data.List.Chain
import ActionSyntax.Proofs.ScanSuffix

/-!
A name, a number or a mark reads the same by itself and amid other text, as long as a blank, a mark
that closes, a bar or the end of the text follows it.
-/

namespace ActionSyntax

set_option autoImplicit false

/-- A piece of text amid another one: where the places of the piece are in the whole, the bytes before
it and the text behind it. Passing characters of the piece passes them in the whole. -/
structure Surroundings where
  place : Cursor → Cursor
  offset : Nat
  tail : List Char
  rest : ∀ c, (place c).rest = c.rest ++ tail
  index : ∀ c, (place c).index = c.index + offset
  skip : ∀ {c n}, n ≤ c.rest.length → (place c).skip n = place (c.skip n)
  advance : ∀ {c}, c.rest ≠ [] → (place c).advance = place c.advance

/-- Characters that no lexeme goes on with, except that bars, closing signs and dots go on with some marks,
and dots with numbers. -/
def partings : List Char :=
  [' ', '\t', '\x0b', '\x0c', '\u00a0', '\n', '\r', '\u2028', '\u2029', ';', ')', ',', ']',
    ':', '|', '>', '.']

/-- The piece ends at such a character or with the text. -/
def Surroundings.Parted (a : Surroundings) : Prop :=
  a.tail = [] ∨ ∃ ch rest, a.tail = ch :: rest ∧ ch ∈ partings

theorem Utf8.takeBytes_append_of_le : ∀ {text more : List Char} {n : Nat}, n ≤ byteLength text →
    takeBytes (text ++ more) n = takeBytes text n
  | [], more, n, h => by
    obtain rfl : n = 0 := by simpa using h
    cases more with
    | nil => rfl
    | cons ch more =>
      have hsize : ¬ ch.utf8Size ≤ 0 := by have := ch.utf8Size_pos; omega
      simp [takeBytes, hsize]
  | ch :: text, more, n, h => by
    simp only [List.cons_append, takeBytes]
    split
    · rw [takeBytes_append_of_le]
      simp only [byteLength_cons] at h
      omega
    · rfl

namespace Cursor

/-- The place in the whole text of a place in the piece. -/
def amid (c : Cursor) (a : Surroundings) : Cursor := a.place c

/-- Where the text ends. -/
def final (c : Cursor) : Nat := c.index + Utf8.byteLength c.rest

variable {c d : Cursor} {a : Surroundings}

@[simp] theorem amid_rest (c : Cursor) (a : Surroundings) :
    (c.amid a).rest = c.rest ++ a.tail := a.rest c

theorem amid_index (c : Cursor) (a : Surroundings) :
    (c.amid a).index = c.index + a.offset := a.index c

theorem skip_amid {n : Nat} (h : n ≤ c.rest.length) : (c.amid a).skip n = (c.skip n).amid a :=
  a.skip h

theorem advance_amid (h : c.rest ≠ []) : (c.amid a).advance = c.advance.amid a := a.advance h

theorem final_skip {n : Nat} (h : n ≤ c.rest.length) : (c.skip n).final ≤ c.final := by
  have hsum : ∀ (text : List Char) (n : Nat), n ≤ text.length →
      n + Utf8.byteLength (text.drop n) ≤ Utf8.byteLength text := by
    intro text
    induction text with
    | nil => simp
    | cons ch text ih =>
      intro n hn
      cases n with
      | zero => simp
      | succ n =>
        have hstep := ih n (by simpa using hn)
        have hsize := ch.utf8Size_pos
        simp only [List.drop_succ_cons, Utf8.byteLength_cons]
        omega
  have := hsum c.rest n h
  unfold final skip
  dsimp only
  omega

/-- A mark stands here or does not, whatever follows the piece, if it is not one that begins with the
rest of the piece and goes on with what follows. -/
theorem startsWith_amid_of_ne {text : List Char}
    (ht : ∀ ch more, a.tail = ch :: more → ∀ back, text ≠ c.rest ++ ch :: back) :
    (c.amid a).startsWith text = c.startsWith text := by
  unfold startsWith
  rw [amid_rest, Bool.eq_iff_iff, List.isPrefixOf_iff_prefix, List.isPrefixOf_iff_prefix]
  constructor
  · intro hwhole
    rcases List.prefix_or_prefix_of_prefix hwhole (List.prefix_append c.rest a.tail) with hin | ⟨more, hout⟩
    · exact hin
    · cases more with
      | nil =>
        obtain rfl : c.rest = text := (List.append_nil c.rest).symm.trans hout
        exact List.prefix_rfl
      | cons ch back =>
        obtain ⟨after, hafter⟩ := hwhole
        rw [← hout, List.append_assoc, List.append_cancel_left_eq] at hafter
        exact absurd hout.symm (ht ch _ hafter.symm back)
  · intro hin
    exact hin.trans (List.prefix_append _ _)

/-- A mark without characters that part, wherever in the piece. -/
theorem startsWith_amid_of_not_mem (ha : a.Parted) {text : List Char}
    (ht : ∀ ch ∈ partings, ch ∉ text) : (c.amid a).startsWith text = c.startsWith text := by
  apply startsWith_amid_of_ne
  intro ch more htail back heq
  obtain hnil | ⟨first, rest, hcons, hfirst⟩ := ha
  · rw [hnil] at htail
    cases htail
  · rw [hcons] at htail
    cases htail
    exact ht ch hfirst (heq ▸ List.mem_append_right _ List.mem_cons_self)

/-- The text between two places of the piece. -/
theorem textTo_amid (h : d.index ≤ c.final) : (c.amid a).textTo (d.amid a) = c.textTo d := by
  unfold textTo
  rw [show (d.amid a).index - (c.amid a).index = d.index - c.index by
    rw [amid_index, amid_index]; omega, amid_rest]
  refine Utf8.takeBytes_append_of_le ?_
  unfold final at h
  omega

end Cursor

/-- No mark that begins with a bar, and no line break, is put together of what ends the one text and
begins the other. -/
def Scan.Apart (front back : List Char) : Prop :=
  ∀ last ∈ front.getLast?, ∀ ch ∈ back.head?, (last = '|' → ch ≠ '|' ∧ ch ≠ '=') ∧ (last = '\r' → ch ≠ '\n')

/-- What is left of the piece and what follows it are apart. -/
def Surroundings.Apart (a : Surroundings) (c : Cursor) : Prop := Scan.Apart c.rest a.tail

theorem Surroundings.Apart.leads {a : Surroundings} {c d : Cursor} (h : a.Apart c) (hcd : c.Leads d) :
    a.Apart d := by
  intro last hlast
  obtain ⟨front, hfront⟩ := hcd
  apply h last
  rw [← hfront, List.getLast?_append_of_ne_nil]
  · exact hlast
  · rintro hnil
    rw [hnil] at hlast
    cases hlast

/-- What may be left of a piece that ends within a mark, if a closing sign or a dot follows. -/
def Scan.openMarks : Char → List (List Char)
  | '>' => [['-'], ['>'], ['>', '>']]
  | '.' => [['?'], ['.'], ['.', '.']]
  | _ => []

/-- No mark that is left of the piece goes on with a closing sign or a dot behind it, and no number with a
dot. -/
structure Surroundings.Clear (a : Surroundings) (c : Cursor) : Prop where
  mark : ∀ ch ∈ a.tail.head?, c.rest ∉ Scan.openMarks ch
  number : a.tail.head? = some '.' → ∀ {l : Lexeme} {d : Cursor}, Scan.lexeme c = .ok (l, d) →
    l.kind ≠ .number

theorem Surroundings.Clear.of_head {a : Surroundings} (h : ∀ ch ∈ a.tail.head?, ch ≠ '>' ∧ ch ≠ '.')
    (c : Cursor) : a.Clear c := by
  refine ⟨fun ch hch => ?_, fun hdot => absurd rfl (h '.' hdot).2⟩
  obtain ⟨hsign, hdot⟩ := h ch hch
  unfold Scan.openMarks
  split
  · exact absurd rfl hsign
  · exact absurd rfl hdot
  · exact List.not_mem_nil

namespace Scan

open Cursor

variable {a : Surroundings}

section Escapes

theorem hexDigit_amid {c d : Cursor} {v : Nat} (h : hexDigit c = .ok (v, d)) :
    hexDigit (c.amid a) = .ok (v, d.amid a) := by
  unfold hexDigit at h ⊢
  split at h
  · cases h
  · rename_i ch rest hc
    have hskip : (c.amid a).skip 1 = (c.skip 1).amid a := skip_amid (by simp [hc])
    split at h
    · rename_i value hv
      cases h
      simp only [amid_rest, hc, List.cons_append, hv, hskip]
    · cases h

theorem fixedDigits_amid : ∀ {count value v : Nat} {c d : Cursor},
    fixedDigits count value c = .ok (v, d) →
      fixedDigits count value (c.amid a) = .ok (v, d.amid a)
  | 0, _, _, _, _, h => by
    cases h
    rfl
  | _ + 1, _, _, _, _, h => by
    obtain ⟨⟨digit, e⟩, hx, hf⟩ := ok_of_bind h
    unfold fixedDigits
    rw [hexDigit_amid hx]
    exact fixedDigits_amid hf

theorem bracedDigits_amid (ha : a.Parted) : ∀ {fuel more value v : Nat} {c d : Cursor},
    bracedDigits fuel value c = .ok (v, d) →
      bracedDigits (fuel + more) value (c.amid a) = .ok (v, d.amid a)
  | 0, _, _, _, _, _, h => by cases h
  | fuel + 1, more, _, _, c, d, h => by
    rw [show fuel + 1 + more = fuel + more + 1 by omega]
    unfold bracedDigits at h ⊢
    rw [startsWith_amid_of_not_mem ha (by decide)]
    split at h
    · rename_i hs
      cases h
      have hlength : 1 ≤ c.rest.length := (List.isPrefixOf_iff_prefix.mp hs).length_le
      rw [if_pos hs, skip_amid hlength]
    · rename_i hs
      rw [if_neg hs]
      obtain ⟨⟨digit, e⟩, hx, hf⟩ := ok_of_bind h
      rw [hexDigit_amid hx]
      dsimp only [bind, Except.bind] at hf ⊢
      split at hf
      · cases hf
      · rename_i hv
        rw [if_neg hv]
        exact bracedDigits_amid ha hf

theorem escapeValue_amid (ha : a.Parted) {count v : Nat} {c d : Cursor}
    (h : escapeValue count c = .ok (v, d)) :
    escapeValue count (c.amid a) = .ok (v, d.amid a) := by
  unfold escapeValue at h ⊢
  rw [startsWith_amid_of_not_mem ha (by decide)]
  split at h
  · rename_i hs
    have hlength : 1 ≤ c.rest.length := (List.isPrefixOf_iff_prefix.mp hs).length_le
    rw [if_pos hs]
    obtain ⟨⟨digit, e⟩, hx, hf⟩ := ok_of_bind h
    unfold bracedValue
    rw [skip_amid hlength, hexDigit_amid hx]
    have hmore : (e.amid a).rest.length + 1 = e.rest.length + 1 + a.tail.length := by
      rw [amid_rest, List.length_append]
      omega
    dsimp only [bind, Except.bind] at hf ⊢
    rw [hmore]
    exact bracedDigits_amid ha hf
  · rename_i hs
    rw [if_neg hs]
    exact fixedDigits_amid h

theorem escapedChar_amid (ha : a.Parted) {ch : Char} {c d : Cursor}
    (h : escapedChar c = .ok (ch, d)) : escapedChar (c.amid a) = .ok (ch, d.amid a) := by
  have value : ∀ {count : Nat}, c.rest ≠ [] →
      (escapeValue count (c.skip 1) >>= fun x => pure (charOfValue x.1, x.2)) =
        Except.ok (ε := Failure) (ch, d) →
      (escapeValue count ((c.amid a).skip 1) >>= fun x => pure (charOfValue x.1, x.2)) =
        Except.ok (ε := Failure) (ch, d.amid a) := by
    intro count hne hf
    obtain ⟨⟨v, e⟩, hx, hp⟩ := ok_of_bind hf
    cases hp
    rw [skip_amid (List.length_pos_iff.mpr hne), escapeValue_amid ha hx]
    rfl
  unfold escapedChar at h ⊢
  dsimp only at h ⊢
  split at h
  · rename_i rest hc
    rw [amid_rest, hc]
    exact value (by simp [hc]) h
  · rename_i rest hc
    rw [amid_rest, hc]
    exact value (by simp [hc]) h
  · cases h

end Escapes

section Names

variable {allowed : Char → Bool}

theorem nameEscape_amid (ha : a.Parted) {ch : Char} {c d : Cursor} (hne : c.rest ≠ [])
    (h : nameEscape allowed c = .ok (ch, d)) :
    nameEscape allowed (c.amid a) = .ok (ch, d.amid a) := by
  obtain ⟨⟨read, e⟩, hx, hf⟩ := ok_of_bind h
  unfold nameEscape
  rw [skip_amid (List.length_pos_iff.mpr hne), escapedChar_amid ha hx]
  dsimp only [bind, Except.bind] at hf ⊢
  split at hf
  · rename_i hallowed
    cases hf
    rw [if_pos hallowed]
    rfl
  · cases hf

theorem parting_ends : ∀ ch ∈ partings,
    CharClass.isIdentifierPart ch = false ∧ (ch == '\\') = false := by decide +kernel

/-- The rounds only have to be enough. -/
theorem nameChars_amid (ha : a.Parted) : ∀ {fuel more : Nat} {read out : List Char} {c d : Cursor},
    c.rest.length < fuel → nameChars allowed fuel read c = .ok (out, d) →
      nameChars allowed (fuel + more) read (c.amid a) = .ok (out, d.amid a)
  | 0, _, _, _, _, _, hfuel, _ => by omega
  | fuel + 1, more, read, out, c, d, hfuel, h => by
    rw [show fuel + 1 + more = fuel + more + 1 by omega]
    unfold nameChars at h ⊢
    rw [amid_rest]
    split at h
    · rename_i hc
      cases h
      rw [hc, List.nil_append]
      obtain htail | ⟨first, rest, htail, hfirst⟩ := ha
      · rw [htail]
      · obtain ⟨hpart, hslash⟩ := parting_ends first hfirst
        rw [htail]
        dsimp only
        rw [hpart, hslash]
        rfl
    · rename_i ch rest hc
      have hne : c.rest ≠ [] := by simp [hc]
      rw [hc, List.length_cons] at hfuel
      simp only [hc, List.cons_append]
      split at h
      · rename_i hpart
        have hadvance : c.advance.rest = rest := by simp [advance, hc]
        rw [if_pos hpart, advance_amid hne]
        exact nameChars_amid ha (by rw [hadvance]; omega) h
      · rename_i hpart
        rw [if_neg hpart]
        split at h
        · rename_i hslash
          rw [if_pos hslash]
          obtain ⟨⟨escaped, e⟩, hx, hf⟩ := ok_of_bind h
          rw [nameEscape_amid ha hne hx]
          have hlength := (nameEscape_leads hx).length_le
          simp only [Cursor.skip, hc, List.drop_succ_cons, List.drop_zero] at hlength
          exact nameChars_amid ha (by omega) hf
        · rename_i hslash
          rw [if_neg hslash]
          cases h
          rfl

theorem nameFrom_amid (ha : a.Parted) {read : List Char} {reserving : Bool} {l : Lexeme}
    {start c d : Cursor} (h : nameFrom start read reserving c = .ok (l, d)) :
    nameFrom (start.amid a) read reserving (c.amid a) = .ok (l, d.amid a) := by
  obtain ⟨⟨out, e⟩, hx, hf⟩ := ok_of_bind h
  have hmore : (c.amid a).rest.length + 1 = c.rest.length + 1 + a.tail.length := by
    rw [amid_rest, List.length_append]
    omega
  have hwidth : (e.amid a).index - (start.amid a).index = e.index - start.index := by
    rw [amid_index, amid_index]
    omega
  unfold nameFrom
  rw [hmore, nameChars_amid ha (by omega) hx]
  dsimp only [bind, Except.bind] at hf ⊢
  rw [hwidth]
  split at hf
  · rename_i hreserved
    rw [if_pos hreserved]
    split at hf
    · rename_i hplain
      cases hf
      rw [if_pos hplain]
      rfl
    · cases hf
  · rename_i hreserved
    cases hf
    rw [if_neg hreserved]
    rfl

theorem escapedName_amid (ha : a.Parted) {l : Lexeme} {c d : Cursor} (hne : c.rest ≠ [])
    (h : escapedName c = .ok (l, d)) : escapedName (c.amid a) = .ok (l, d.amid a) := by
  obtain ⟨⟨ch, e⟩, hx, hf⟩ := ok_of_bind h
  unfold escapedName
  rw [nameEscape_amid ha hne hx]
  exact nameFrom_amid ha hf

theorem unreservedName_amid (ha : a.Parted) {l : Lexeme} {c d : Cursor} (hne : c.rest ≠ [])
    (h : unreservedName c = .ok (l, d)) : unreservedName (c.amid a) = .ok (l, d.amid a) := by
  unfold unreservedName at h ⊢
  dsimp only at h ⊢
  rw [skip_amid (List.length_pos_iff.mpr hne), amid_rest]
  split at h
  · rename_i ch rest hc
    rw [hc, List.cons_append]
    dsimp only
    split at h
    · rename_i hpart
      rw [if_pos hpart]
      exact nameFrom_amid ha h
    · cases h
  · cases h

end Names

section Numerals

variable {isDigit : Char → Bool} {l : Lexeme}

theorem digitRun_cons {ch : Char} (h : ch ≠ '_') (rest : List Char) :
    digitRun isDigit (ch :: rest) =
      if isDigit ch then ((digitRun isDigit rest).1 + 1, (digitRun isDigit rest).2)
      else (0, true) := by
  rw [digitRun.eq_def]
  split <;> simp_all

theorem digitRun_amid (ha : a.Parted) (hparts : ∀ ch ∈ partings, isDigit ch = false) :
    ∀ text : List Char, digitRun isDigit (text ++ a.tail) = digitRun isDigit text
  | [] => by
    obtain htail | ⟨first, rest, htail, hfirst⟩ := ha
    · rw [htail]
      rfl
    · have hne : first ≠ '_' := by
        rintro rfl
        exact absurd hfirst (by decide)
      rw [htail, List.nil_append, digitRun_cons hne, hparts first hfirst]
      rfl
  | ch :: text => by
    by_cases hch : ch = '_'
    · subst hch
      cases text with
      | nil =>
        obtain htail | ⟨first, rest, htail, hfirst⟩ := ha
        · rw [htail]
          rfl
        · simp [htail, digitRun, hparts first hfirst]
      | cons next text =>
        have := digitRun_amid ha hparts text
        simp only [List.cons_append, digitRun, this]
    · have := digitRun_amid ha hparts text
      rw [List.cons_append, digitRun_cons hch, digitRun_cons hch, this]

theorem digitRun_le : ∀ text : List Char, (digitRun isDigit text).1 ≤ text.length
  | [] => Nat.le_refl 0
  | ch :: text => by
    by_cases hch : ch = '_'
    · subst hch
      cases text with
      | nil => exact Nat.le_refl 1
      | cons next text =>
        have := digitRun_le text
        simp only [digitRun, List.length_cons]
        split
        · dsimp only
          omega
        · dsimp only
          omega
    · have := digitRun_le text
      rw [digitRun_cons hch, List.length_cons]
      split
      · dsimp only
        omega
      · dsimp only
        omega

theorem digits_amid (ha : a.Parted) (hparts : ∀ ch ∈ partings, isDigit ch = false) {c d : Cursor}
    (h : digits isDigit c = .ok d) :
    digits isDigit (c.amid a) = .ok (d.amid a) ∧ d.final ≤ c.final := by
  have hle : (digitRun isDigit c.rest).1 ≤ c.rest.length := digitRun_le c.rest
  unfold digits at h ⊢
  rw [amid_rest, digitRun_amid ha hparts]
  dsimp only at h ⊢
  split at h
  · rename_i hgood
    cases h
    rw [if_pos hgood, skip_amid hle]
    exact ⟨rfl, final_skip hle⟩
  · cases h

theorem nextIs_amid (ha : a.Parted) {p : Char → Bool} (hparts : ∀ ch ∈ partings, p ch = false)
    (c : Cursor) : nextIs p (c.amid a) = nextIs p c := by
  unfold nextIs
  rw [amid_rest]
  cases hc : c.rest with
  | nil =>
    obtain htail | ⟨first, rest, htail, hfirst⟩ := ha
    · rw [htail]
      rfl
    · simp [htail, hparts first hfirst]
  | cons ch rest => rfl

theorem nextIs_length {p : Char → Bool} {c : Cursor} (h : nextIs p c = true) :
    1 ≤ c.rest.length := by
  cases hc : c.rest with
  | nil => simp [nextIs, hc] at h
  | cons ch rest => simp

theorem index_le_final {c d : Cursor} (h : d.final ≤ c.final) : d.index ≤ c.final := by
  unfold final at h ⊢
  omega

theorem exponentPart_amid (ha : a.Parted) {c d : Cursor} (h : exponentPart c = .ok d) :
    exponentPart (c.amid a) = .ok (d.amid a) ∧ d.final ≤ c.final := by
  unfold exponentPart at h ⊢
  rw [nextIs_amid ha (by decide)]
  split at h
  · rename_i hmark
    have hone := nextIs_length hmark
    rw [if_pos hmark, skip_amid hone]
    dsimp only at h ⊢
    rw [nextIs_amid ha (by decide)]
    -- With a sign or without one, the digits begin at a place of the piece.
    obtain ⟨signed, hsigned, hfinal, hrest⟩ : ∃ signed : Cursor,
        (if nextIs (fun ch => ch == '+' || ch == '-') (c.skip 1) then
          ((c.skip 1).amid a).skip 1 else (c.skip 1).amid a) = signed.amid a ∧
        signed.final ≤ c.final ∧
        (if nextIs (fun ch => ch == '+' || ch == '-') (c.skip 1) then
          (c.skip 1).skip 1 else c.skip 1) = signed := by
      split
      · rename_i hsign
        have htwo := nextIs_length hsign
        exact ⟨_, skip_amid htwo, Nat.le_trans (final_skip htwo) (final_skip hone), rfl⟩
      · exact ⟨_, rfl, final_skip hone, rfl⟩
    rw [hrest] at h
    rw [hsigned, nextIs_amid ha (by decide)]
    split at h
    · rename_i hdigit
      obtain ⟨hread, hd⟩ := digits_amid ha (by decide) h
      rw [if_pos hdigit]
      exact ⟨hread, Nat.le_trans hd hfinal⟩
    · cases h
  · rename_i hmark
    cases h
    rw [if_neg hmark]
    exact ⟨rfl, Nat.le_refl _⟩

theorem fractionPart_amid (ha : a.Parted) (hdot : a.tail.head? ≠ some '.') {c d : Cursor}
    (h : fractionPart c = .ok d) : fractionPart (c.amid a) = .ok (d.amid a) ∧ d.final ≤ c.final := by
  have hsame : nextIs (· == '.') (c.amid a) = nextIs (· == '.') c := by
    unfold nextIs
    rw [amid_rest]
    cases hc : c.rest with
    | nil =>
      cases htail : a.tail with
      | nil => rfl
      | cons first rest =>
        rw [htail] at hdot
        have hne : first ≠ '.' := fun heq => hdot (congrArg some heq)
        simpa using hne
    | cons ch rest => rfl
  unfold fractionPart at h ⊢
  rw [hsame]
  split at h
  · rename_i hpoint
    have hone := nextIs_length hpoint
    obtain ⟨hread, hd⟩ := digits_amid ha (by decide) h
    rw [if_pos hpoint, skip_amid hone]
    exact ⟨hread, Nat.le_trans hd (final_skip hone)⟩
  · rename_i hpoint
    cases h
    rw [if_neg hpoint]
    exact ⟨rfl, Nat.le_refl _⟩

theorem decimalFrom_amid (ha : a.Parted) (hdot : a.tail.head? ≠ some '.') {start c d : Cursor} (hc : c.final ≤ start.final)
    (h : decimalFrom start c = .ok (l, d)) :
    decimalFrom (start.amid a) (c.amid a) = .ok (l, d.amid a) := by
  obtain ⟨e, hx, hf⟩ := ok_of_bind h
  obtain ⟨g, hy, hg⟩ := ok_of_bind hf
  cases hg
  obtain ⟨hfraction, he⟩ := fractionPart_amid ha hdot hx
  obtain ⟨hexponent, hd⟩ := exponentPart_amid ha hy
  unfold decimalFrom
  rw [hfraction]
  dsimp only [bind, Except.bind]
  rw [hexponent]
  dsimp only
  rw [textTo_amid (index_le_final (Nat.le_trans hd (Nat.le_trans he hc)))]
  rfl

theorem radixLiteral_amid (ha : a.Parted) (hparts : ∀ ch ∈ partings, isDigit ch = false)
    {radix : Nat} {c d : Cursor} (hc : 1 ≤ c.rest.length) (h : radixLiteral radix isDigit c = .ok (l, d)) :
    radixLiteral radix isDigit (c.amid a) = .ok (l, d.amid a) := by
  unfold radixLiteral at h ⊢
  dsimp only at h ⊢
  rw [skip_amid hc, nextIs_amid ha hparts]
  split at h
  · cases h
  · rename_i hdigit
    obtain ⟨e, hx, hf⟩ := ok_of_bind h
    cases hf
    obtain ⟨hread, hd⟩ := digits_amid ha hparts hx
    rw [if_neg hdigit, hread]
    dsimp only [bind, Except.bind]
    rw [textTo_amid (index_le_final hd)]
    rfl

theorem numberLiteral_amid (ha : a.Parted) (hdot : a.tail.head? ≠ some '.') {c d : Cursor}
    (hc : 1 ≤ c.rest.length) (h : numberLiteral c = .ok (l, d)) : numberLiteral (c.amid a) = .ok (l, d.amid a) := by
  have decimal : (digits CharClass.isDecimalDigit (c.skip 1) >>= decimalFrom c) = .ok (l, d) →
      (digits CharClass.isDecimalDigit ((c.skip 1).amid a) >>= decimalFrom (c.amid a)) =
        .ok (l, d.amid a) := by
    intro h
    obtain ⟨e, hx, hf⟩ := ok_of_bind h
    obtain ⟨hread, hd⟩ := digits_amid ha (by decide) hx
    rw [hread]
    exact decimalFrom_amid ha hdot (Nat.le_trans hd (final_skip hc)) hf
  unfold numberLiteral at h ⊢
  dsimp only at h ⊢
  rw [skip_amid hc, nextIs_amid ha (by decide), nextIs_amid ha (by decide),
    nextIs_amid ha (by decide), nextIs_amid ha (by decide)]
  split at h
  · rename_i hzero
    rw [if_pos hzero]
    split at h
    · rename_i hhex
      rw [if_pos hhex]
      exact radixLiteral_amid ha (by decide) (nextIs_length hhex) h
    · rename_i hhex
      rw [if_neg hhex]
      split at h
      · rename_i hbinary
        rw [if_pos hbinary]
        exact radixLiteral_amid ha (by decide) (nextIs_length hbinary) h
      · rename_i hbinary
        rw [if_neg hbinary]
        split at h
        · cases h
        · rename_i hdigit
          rw [if_neg hdigit]
          exact decimal h
  · rename_i hzero
    rw [if_neg hzero]
    exact decimal h

theorem fractionLiteral_amid (ha : a.Parted) {c d : Cursor} (hc : 2 ≤ c.rest.length)
    (h : fractionLiteral c = .ok (l, d)) : fractionLiteral (c.amid a) = .ok (l, d.amid a) := by
  obtain ⟨e, hx, hf⟩ := ok_of_bind h
  obtain ⟨g, hy, hg⟩ := ok_of_bind hf
  cases hg
  obtain ⟨hdigits, he⟩ := digits_amid ha (by decide) hx
  obtain ⟨hexponent, hd⟩ := exponentPart_amid ha hy
  unfold fractionLiteral
  rw [skip_amid hc, hdigits]
  dsimp only [bind, Except.bind]
  rw [hexponent]
  dsimp only
  rw [textTo_amid (index_le_final (Nat.le_trans hd (Nat.le_trans he (final_skip hc))))]
  rfl

end Numerals

section Marks

/-- In no mark does a character that parts follow another one, but for a bar behind a bar, a closing sign
and a dot. -/
theorem spelled_parted : ∀ entry ∈ spelledChars,
    entry.1.IsChain fun ch next => next ∈ partings → next ∉ ['>', '.'] → ch = '|' ∧ next = '|' := by
  decide +kernel

/-- What stands in front of a closing sign or a dot in a mark. -/
theorem spelled_open : ∀ entry ∈ spelledChars, ∀ n < entry.1.length, ∀ ch ∈ ['>', '.'],
    entry.1[n]? = some ch → entry.1.take n = [] ∨ entry.1.take n ∈ openMarks ch := by
  decide +kernel

theorem punctuation?_amid (ha : a.Parted) {c : Cursor} (hapart : a.Apart c) (hclear : a.Clear c)
    (hne : c.rest ≠ []) :
    punctuation? (c.amid a) = (punctuation? c).map fun reading => (reading.1, reading.2.amid a) := by
  have heach : ∀ entry ∈ spelledChars, (c.amid a).startsWith entry.1 = c.startsWith entry.1 := by
    intro entry hentry
    apply startsWith_amid_of_ne
    intro ch more htail back heq
    have hparts : ch ∈ partings := by
      obtain hnil | ⟨first, rest, hcons, hfirst⟩ := ha
      · rw [hnil] at htail
        cases htail
      · rw [hcons] at htail
        cases htail
        exact hfirst
    have hhead : ch ∈ a.tail.head? := by rw [htail]; rfl
    have hsign : ch ∉ ['>', '.'] := by
      intro hmem
      have hopen := spelled_open entry hentry c.rest.length (by simp [heq]) ch hmem (by simp [heq])
      rw [heq, List.take_left] at hopen
      exact hclear.mark ch hhead (hopen.resolve_left hne)
    have hchain := spelled_parted entry hentry
    rw [heq, List.isChain_append] at hchain
    obtain ⟨hlast, hbarred⟩ := hchain.2.2 (c.rest.getLast hne) (List.getLast?_eq_some_getLast hne) ch rfl
      hparts hsign
    have hfinal : c.rest.getLast hne ∈ c.rest.getLast? := List.getLast?_eq_some_getLast hne
    exact ((hapart _ hfinal ch hhead).1 hlast).1 hbarred
  have hfind : ∀ entries : List (List Char × Lexeme), entries ⊆ spelledChars →
      (entries.find? fun entry => (c.amid a).startsWith entry.1) =
        entries.find? fun entry => c.startsWith entry.1 := by
    intro entries
    induction entries with
    | nil => exact fun _ => rfl
    | cons entry entries ih =>
      intro hsub
      rw [List.find?_cons, List.find?_cons, heach entry (hsub List.mem_cons_self),
        ih fun other hother => hsub (List.mem_cons_of_mem _ hother)]
  unfold punctuation?
  rw [hfind _ (List.Subset.refl _), Option.map_map]
  cases hentry : spelledChars.find? fun entry => c.startsWith entry.1 with
  | none => rfl
  | some entry =>
    have hstart := List.find?_some hentry
    have hlength := (List.isPrefixOf_iff_prefix.mp hstart).length_le
    simp only [Option.map_some, Function.comp_apply, skip_amid hlength]

variable {l : Lexeme} {c d : Cursor}

theorem otherLexeme_amid (ha : a.Parted) {ch : Char} (hne : c.rest ≠ [])
    (hstring : ∀ quote ∉ partings, stringLiteral quote c = .ok (l, d) →
      stringLiteral quote (c.amid a) = .ok (l, d.amid a))
    (h : otherLexeme ch c = .ok (l, d)) : otherLexeme ch (c.amid a) = .ok (l, d.amid a) := by
  have hone : 1 ≤ c.rest.length := List.length_pos_iff.mpr hne
  unfold otherLexeme at h ⊢
  rw [skip_amid hone, nextIs_amid ha (by decide)]
  split at h
  · rename_i hpoint
    rw [if_pos hpoint]
    split at h
    · rename_i hdigit
      have hlength := nextIs_length hdigit
      simp only [Cursor.skip, List.length_drop] at hlength
      rw [if_pos hdigit]
      exact fractionLiteral_amid ha (by omega) h
    · rename_i hdigit
      cases h
      rw [if_neg hdigit]
  · rename_i hpoint
    rw [if_neg hpoint]
    split at h
    · rename_i hquote
      have hparts : ch ∉ partings := by
        rcases Bool.or_eq_true_iff.mp hquote with hch | hch <;> rw [eq_of_beq hch] <;> decide
      rw [if_pos hquote]
      exact hstring ch hparts h
    · rename_i hquote
      rw [if_neg hquote]
      split at h
      · rename_i hhash
        rw [if_pos hhash]
        exact unreservedName_amid ha hne h
      · rename_i hhash
        rw [if_neg hhash]
        split at h
        · rename_i hslash
          rw [if_pos hslash]
          exact escapedName_amid ha hne h
        · cases h

/-- A lexeme reads the same amid other text, if strings do. -/
theorem lexeme_amid (ha : a.Parted) (hapart : a.Apart c) (hclear : a.Clear c)
    (hend : l.kind ≠ .endOfProgram)
    (hstring : ∀ quote ∉ partings, stringLiteral quote c = .ok (l, d) →
      stringLiteral quote (c.amid a) = .ok (l, d.amid a))
    (h : lexeme c = .ok (l, d)) : lexeme (c.amid a) = .ok (l, d.amid a) := by
  have hread := h
  unfold lexeme at h ⊢
  rw [amid_rest]
  split at h
  · cases h
    exact absurd rfl hend
  · rename_i ch rest hc
    have hne : c.rest ≠ [] := by simp [hc]
    have hone : 1 ≤ c.rest.length := List.length_pos_iff.mpr hne
    rw [hc, List.cons_append]
    dsimp only
    split at h
    · rename_i hstart
      rw [if_pos hstart]
      exact nameFrom_amid ha h
    · rename_i hstart
      rw [if_neg hstart]
      split at h
      · rename_i hdigit
        have hdot : a.tail.head? ≠ some '.' := fun hhead =>
          hclear.number hhead hread (numberLiteral_leads h).1
        rw [if_pos hdigit]
        exact numberLiteral_amid ha hdot hone h
      · rename_i hdigit
        rw [if_neg hdigit, punctuation?_amid ha hapart hclear hne]
        split at h
        · rename_i reading hreading
          cases h
          rw [hreading]
          rfl
        · rename_i hreading
          rw [hreading]
          exact otherLexeme_amid ha hne hstring h

end Marks

/-- No comment begins within a piece of text unless it begins there by itself. -/
theorem comment?_none_amid (ha : a.Parted) {c : Cursor} (h : comment? c = .ok none) :
    comment? (c.amid a) = .ok none := by
  rw [comment?_eq_none] at h ⊢
  rwa [startsWith_amid_of_not_mem ha (by decide), startsWith_amid_of_not_mem ha (by decide),
    startsWith_amid_of_not_mem ha (by decide)]

end Scan

end ActionSyntax
