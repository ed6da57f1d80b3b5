import ActionSyntax.Proofs.Places.Slices

/-!
The search for the end of a line by leaps. A round leaps to the next byte that may begin a line
terminator, one of three values, and looks at two more only behind a lead byte `E2`. It finds what
the search from byte to byte finds, which is the first line terminator of the text.
-/

namespace ActionSyntax.LineSearch

set_option autoImplicit false

open CharClass Utf8

/-- Whether a line terminator can begin with the byte. -/
def mayBegin (b : UInt8) : Bool := b == 0x0A || b == 0x0D || b == 0xE2

/-- The search from an offset on in at most so many rounds, and nothing if they do not suffice. -/
def leaps (bs : List UInt8) : Nat → Nat → Option Nat
  | 0, _ => none
  | rounds + 1, offset =>
    match (bs.drop offset).findIdx? mayBegin with
    | none => some bs.length
    | some found =>
      let here := offset + found
      if bs[here]? != some 0xE2 || completesSeparator (bs.drop (here + 1)) then some here
      else leaps bs rounds (here + 1)

section Bytes

variable {b : UInt8} {bs more : List UInt8}

theorem mayBegin_of_starts (h : startsTerminator (b :: more) = true) : mayBegin b = true := by
  simp only [startsTerminator, Bool.or_eq_true, Bool.and_eq_true] at h
  simp only [mayBegin, Bool.or_eq_true]
  exact h.imp id And.left

/-- Where a terminator may begin, only a lead byte leaves it open whether one does. -/
theorem startsTerminator_of_mayBegin (h : mayBegin b = true) :
    startsTerminator (b :: more) = (b != 0xE2 || completesSeparator more) := by
  simp only [mayBegin, Bool.or_eq_true, beq_iff_eq] at h
  rcases h with (rfl | rfl) | rfl <;> rfl

/-- A leap passes no beginning of a terminator. -/
theorem distance_leap : ∀ {front : List UInt8} {passed : Nat},
    (∀ b ∈ front, mayBegin b = false) →
      distance passed (front ++ more) = distance (passed + front.length) more
  | [], _, _ => rfl
  | b :: front, passed, h => by
    have hpass : ¬ startsTerminator (b :: (front ++ more)) = true := by
      intro hstarts
      have hnot := h b (by simp)
      rw [mayBegin_of_starts hstarts] at hnot
      cases hnot
    rw [List.cons_append, distance_pass hpass, distance_leap fun c hc => h c (by simp [hc]),
      List.length_cons]
    congr 1
    omega

/-- The bytes that a leap passes, and the one where it ends. -/
theorem leap_lands {found : Nat} (h : bs.findIdx? mayBegin = some found) : ∃ front b more,
    bs = front ++ b :: more ∧ front.length = found ∧ (∀ c ∈ front, mayBegin c = false) ∧
      mayBegin b = true := by
  obtain ⟨hlt, hlands, hbefore⟩ := List.findIdx?_eq_some_iff_getElem.mp h
  refine ⟨bs.take found, bs[found], bs.drop (found + 1), by simp, ?_, ?_, hlands⟩
  · rw [List.length_take]
    omega
  · intro c hc
    obtain ⟨j, hj, rfl⟩ := List.mem_take_iff_getElem.mp hc
    simpa using hbefore j (by omega)

/-- Each round of the search stands further on, so it ends, and where the search from byte to byte
does. -/
theorem leaps_eq_distance : ∀ {rounds offset : Nat}, bs.length < offset + rounds →
    offset ≤ bs.length → leaps bs rounds offset = some (distance offset (bs.drop offset))
  | 0, offset, hrounds, hle => by omega
  | rounds + 1, offset, hrounds, hle => by
    unfold leaps
    split
    · rename_i hnone
      have hall := List.findIdx?_eq_none_iff.mp hnone
      have hdistance : distance offset (bs.drop offset ++ []) =
          distance (offset + (bs.drop offset).length) [] := distance_leap hall
      rw [List.append_nil] at hdistance
      rw [hdistance, distance, List.length_drop]
      congr 1
      omega
    · rename_i found hfound
      obtain ⟨front, b, more, hdrop, hlength, hfront, hb⟩ := leap_lands hfound
      have hhere : bs.drop (offset + found) = b :: more := by
        rw [← List.drop_drop, hdrop, ← hlength, List.drop_left]
      have hmore : bs.drop (offset + found + 1) = more := by
        rw [← List.drop_drop, hhere]
        rfl
      have hget : bs[offset + found]? = some b := by
        rw [← List.head?_drop, hhere]
        rfl
      have hinside : offset + found < bs.length := (List.getElem?_eq_some_iff.mp hget).1
      have hstarts : (bs[offset + found]? != some 0xE2 ||
          completesSeparator (bs.drop (offset + found + 1))) = startsTerminator (b :: more) := by
        rw [startsTerminator_of_mayBegin hb, hget, hmore]
        rfl
      rw [hdrop, distance_leap hfront, hlength]
      simp only [hstarts]
      split
      · rename_i hstop
        rw [distance, if_pos hstop]
      · rename_i hpass
        rw [distance_pass hpass, leaps_eq_distance (by omega) (by omega), hmore]

end Bytes

section Text

variable {text rest : List Char} {start : Nat}

@[simp] theorem bytes_append (front back : List Char) :
    bytes (front ++ back) = bytes front ++ bytes back := List.flatMap_append

@[simp] theorem length_bytes : ∀ text : List Char, (bytes text).length = byteLength text
  | [] => rfl
  | ch :: text => by
    rw [byteLength_cons, ← length_bytes text, ← String.length_utf8EncodeChar]
    exact List.length_append

/-- From a place between two characters on, the bytes are those of the characters behind it. -/
theorem drop_bytes (h : dropBytes? text start = some rest) :
    (bytes text).drop start = bytes rest := by
  obtain ⟨front, rfl, rfl⟩ := dropBytes?_eq_some h
  rw [bytes_append, ← length_bytes front, List.drop_left]

/-- The search by leaps from a place between two characters ends, and at the first line terminator
behind it, or at the end of the text. That is again a place between two characters. -/
theorem leaps_firstTerminator (hstart : dropBytes? text start = some rest) :
    ∃ passed after, rest = passed ++ after ∧
      (∀ ch ∈ passed, isLineTerminator ch = false) ∧
      (∀ ch ∈ after.head?, isLineTerminator ch = true) ∧
      lineEnd text start = start + byteLength passed ∧
      dropBytes? text (lineEnd text start) = some after ∧
      (after = [] ↔ lineEnd text start = byteLength text) ∧
      ∀ rounds, byteLength text < start + rounds →
        leaps (bytes text) rounds start = some (lineEnd text start) := by
  obtain ⟨front, rfl, rfl⟩ := dropBytes?_eq_some hstart
  generalize hpassed : rest.takeWhile (!isLineTerminator ·) = passed
  generalize hafter : rest.dropWhile (!isLineTerminator ·) = after
  have hsplit : rest = passed ++ after := by
    rw [← hpassed, ← hafter, List.takeWhile_append_dropWhile]
  have hend : lineEnd (front ++ rest) (byteLength front) = byteLength front + byteLength passed := by
    rw [lineEnd, drop_bytes hstart, distance_bytes, hpassed]
  refine ⟨passed, after, hsplit, ?_, ?_, hend, ?_, ?_, ?_⟩
  · rw [← hpassed]
    exact fun ch hch => by simpa using List.mem_takeWhile_imp hch
  · intro ch hch
    have hnot := List.head?_dropWhile_not (!isLineTerminator ·) rest
    rw [hafter, Option.mem_def.mp hch] at hnot
    simpa using hnot
  · rw [hend, hsplit, ← byteLength_append, ← List.append_assoc, dropBytes?_append]
  · rw [hend, hsplit, byteLength_append, byteLength_append]
    constructor
    · rintro rfl
      rfl
    · intro h
      exact Lines.byteLength_eq_zero (by omega)
  · intro rounds hrounds
    have hle : byteLength front ≤ (bytes (front ++ rest)).length := by simp
    rw [lineEnd, leaps_eq_distance (by simpa using hrounds) hle]

/-- The lead byte of the second character is that of a separator, and so is the lead byte of the last;
the search leaps over the former. -/
theorem leaps_passing_euro :
    dropBytes? ['a', '€', '\u2028', '‐'] 1 = some ['€', '\u2028', '‐'] ∧
      leaps (bytes ['a', '€', '\u2028', '‐']) 11 1 = some 4 := by
  have hstart : dropBytes? ['a', '€', '\u2028', '‐'] 1 = some ['€', '\u2028', '‐'] := by decide
  obtain ⟨passed, after, -, -, -, -, -, -, hleaps⟩ := leaps_firstTerminator hstart
  refine ⟨hstart, (hleaps 11 (by decide)).trans ?_⟩
  decide +kernel

end Text

end ActionSyntax.LineSearch

namespace ActionSyntax.Scan

open Utf8 Cursor

variable {front : List Char} {c : Cursor}

/-- A comment to the end of its line ends where the search over the whole text does. -/
theorem lineComment_index (hc : c.index = byteLength front)
    (hopened : c.startsWith ['/', '/'] = true) :
    (lineComment c).index = LineSearch.lineEnd (front ++ c.rest) (c.index + 2) := by
  obtain ⟨rest, hrest⟩ := startsWith_iff.mp hopened
  have hplace : dropBytes? (front ++ c.rest) (c.index + 2) = some rest := by
    have hlength : c.index + 2 = byteLength (front ++ ['/', '/']) := by
      rw [byteLength_append, hc]
      rfl
    rw [hlength, ← hrest, ← List.append_assoc, dropBytes?_append]
  rw [LineSearch.lineEnd, LineSearch.drop_bytes hplace, LineSearch.distance_bytes]
  have hinside : (c.skip 2).rest = rest := by rw [Cursor.skip, ← hrest]; rfl
  show (c.skip 2).index + LineSearch.distance 0 (LineSearch.bytes (c.skip 2).rest) = _
  rw [hinside, LineSearch.distance_bytes, Nat.zero_add]
  rfl

end ActionSyntax.Scan
