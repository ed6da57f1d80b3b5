import ActionSyntax.Grammar.Words
import ActionSyntax.Proofs.Literals.Blames
import ActionSyntax.Proofs.Literals.Names

/-!
What words are taken for. A token that has been read from a name answers every question the grammar asks
about words by the spelling of that name, whatever it stands for. A name that stands for a reserved word
without being spelled like it is no token at all.
-/

namespace ActionSyntax

set_option autoImplicit false

open Scan Cursor NamePart

section Spelling

/-- How a token is spelled: it is a reserved word, or a name of plain characters, or a name that is spelled
with some other character, and then not with as many bytes as it has. -/
inductive Token.SpelledAs (t : Token) (s : String) : Prop
  | reserved (kind : t.kind = .keyword) (text : t.text = s) (word : s ∈ Keyword.reserved)
  | plain (kind : t.kind = .identifier) (text : t.text = s) (length : t.rawLength = s.utf8ByteSize)
    (word : s ∉ Keyword.reserved) (chars : s.toList.all CharClass.isIdentifierPart = true)
  | other (kind : t.kind = .identifier) (length : t.rawLength ≠ t.text.utf8ByteSize)
    (chars : s.toList.all CharClass.isIdentifierPart = false)

/-- The answers of a token that is spelled like this. -/
structure Token.Tells (t : Token) (s : String) : Prop where
  keyword : t.kind = .keyword ↔ s ∈ Keyword.reserved
  isKeyword : ∀ word, t.isKeyword word = true ↔ s = word ∧ word ∈ Keyword.reserved
  isContextKeyword : ∀ word, t.isContextKeyword word = true ↔
    s = word ∧ word ∉ Keyword.reserved ∧ word.toList.all CharClass.isIdentifierPart = true
  isSoftDefinition : Words.isSoftDefinition t = ["enum", "namespace", "type"].contains s
  isStrictDefinition : Words.isStrictDefinition t = Words.strictDefinitions.contains s
  modifier? : Words.modifier? t = Modifier.ofWord? s
  access? : Words.access? t = Access.ofWord? s

theorem Keyword.reserved_plain {s : String} (h : s ∈ reserved) :
    s.toList.all CharClass.isIdentifierPart = true := by
  have hall : (reserved.all fun word => word.toList.all CharClass.isIdentifierPart) = true := by
    decide +kernel
  exact List.all_eq_true.mp hall s h

theorem Modifier.ofWord?_some {s : String} {m : Modifier} (h : ofWord? s = some m) :
    s ∉ Keyword.reserved ∧ s.toList.all CharClass.isIdentifierPart = true := by
  have hword := List.find?_some h
  obtain rfl : m.word = s := eq_of_beq hword
  cases m <;> decide +kernel

theorem Access.ofWord?_some {s : String} {a : Access} (h : ofWord? s = some a) :
    s ∈ Keyword.reserved := by
  have hword := List.find?_some h
  obtain rfl : a.word = s := eq_of_beq hword
  cases a <;> decide +kernel

namespace Token.SpelledAs

variable {t : Token} {s : String}

theorem keyword (h : t.SpelledAs s) : t.kind = .keyword ↔ s ∈ Keyword.reserved := by
  cases h with
  | reserved kind text word => simp [kind, word]
  | plain kind text length word chars => simp [kind, word]
  | other kind length chars =>
    refine ⟨fun hk => by simp [kind] at hk, fun hs => ?_⟩
    rw [Keyword.reserved_plain hs] at chars
    cases chars

theorem isKeyword (h : t.SpelledAs s) (word : String) :
    t.isKeyword word = true ↔ s = word ∧ word ∈ Keyword.reserved := by
  have hkeyword := h.keyword
  unfold Token.isKeyword
  rw [Bool.and_eq_true, beq_iff_eq, beq_iff_eq, hkeyword]
  constructor
  · rintro ⟨hs, rfl⟩
    cases h with
    | reserved kind text => exact ⟨text.symm, text ▸ hs⟩
    | plain kind text length hnot => exact absurd hs hnot
    | other kind => simp [kind] at hkeyword; exact absurd hs hkeyword
  · rintro ⟨rfl, hs⟩
    cases h with
    | reserved kind text => exact ⟨hs, text⟩
    | plain kind text => exact ⟨hs, text⟩
    | other kind => simp [kind] at hkeyword; exact absurd hs hkeyword

theorem isContextKeyword (h : t.SpelledAs s) (word : String) : t.isContextKeyword word = true ↔
    s = word ∧ word ∉ Keyword.reserved ∧ word.toList.all CharClass.isIdentifierPart = true := by
  unfold Token.isContextKeyword
  rw [Bool.and_eq_true, Bool.and_eq_true, beq_iff_eq, beq_iff_eq, beq_iff_eq]
  cases h with
  | reserved kind text hs =>
    refine ⟨fun hk => by simp [kind] at hk, ?_⟩
    rintro ⟨rfl, hnot, -⟩
    exact absurd hs hnot
  | plain kind text length hs chars =>
    constructor
    · rintro ⟨⟨-, rfl⟩, -⟩
      exact ⟨text.symm, text ▸ hs, text ▸ chars⟩
    · rintro ⟨rfl, -, -⟩
      exact ⟨⟨kind, text⟩, length⟩
  | other kind length chars =>
    constructor
    · rintro ⟨⟨-, rfl⟩, heq⟩
      exact absurd heq length
    · rintro ⟨rfl, -, hchars⟩
      rw [hchars] at chars
      cases chars

theorem tells (h : t.SpelledAs s) : t.Tells s where
  keyword := h.keyword
  isKeyword := h.isKeyword
  isContextKeyword := h.isContextKeyword
  isSoftDefinition := by
    have hwords : ∀ word ∈ ["enum", "namespace", "type"],
        word ∉ Keyword.reserved ∧ word.toList.all CharClass.isIdentifierPart = true := by
      decide +kernel
    rw [Bool.eq_iff_iff, List.contains_iff_mem]
    unfold Words.isSoftDefinition
    rw [Bool.or_eq_true, Bool.or_eq_true, h.isContextKeyword, h.isContextKeyword, h.isContextKeyword]
    constructor
    · rintro ((⟨rfl, -⟩ | ⟨rfl, -⟩) | ⟨rfl, -⟩) <;> simp
    · intro hs
      have hword := hwords s hs
      simp only [List.mem_cons, List.not_mem_nil, or_false] at hs
      rcases hs with rfl | rfl | rfl
      · exact Or.inl (Or.inl ⟨rfl, hword⟩)
      · exact Or.inl (Or.inr ⟨rfl, hword⟩)
      · exact Or.inr ⟨rfl, hword⟩
  isStrictDefinition := by
    have hwords : ∀ word ∈ Words.strictDefinitions, word ∈ Keyword.reserved := by decide +kernel
    rw [Bool.eq_iff_iff, List.contains_iff_mem]
    unfold Words.isStrictDefinition
    rw [Bool.and_eq_true, List.contains_iff_mem, beq_iff_eq]
    constructor
    · rintro ⟨hkind, htext⟩
      cases h with
      | reserved kind text => exact text ▸ htext
      | plain kind => simp [kind] at hkind
      | other kind => simp [kind] at hkind
    · intro hs
      have hkind := h.keyword.mpr (hwords s hs)
      cases h with
      | reserved kind text => exact ⟨kind, text ▸ hs⟩
      | plain kind => simp [kind] at hkind
      | other kind => simp [kind] at hkind
  modifier? := by
    unfold Words.modifier?
    cases h with
    | reserved kind text hs =>
      have hnone : Modifier.ofWord? s = none :=
        Option.eq_none_iff_forall_not_mem.mpr fun m hm => (Modifier.ofWord?_some hm).1 hs
      simp [kind, hnone]
    | plain kind text length => simp [kind, text, length]
    | other kind length chars =>
      have hnone : Modifier.ofWord? s = none := by
        refine Option.eq_none_iff_forall_not_mem.mpr fun m hm => ?_
        rw [(Modifier.ofWord?_some hm).2] at chars
        cases chars
      simp [kind, length, hnone]
  access? := by
    have hnone : s ∉ Keyword.reserved → Access.ofWord? s = none := fun hs =>
      Option.eq_none_iff_forall_not_mem.mpr fun a ha => hs (Access.ofWord?_some ha)
    have hkeyword := h.keyword
    unfold Words.access?
    cases h with
    | reserved kind text => simp [kind, text]
    | plain kind text length hs => simp [kind, hnone hs]
    | other kind =>
      simp only [kind, reduceCtorEq, false_iff] at hkeyword
      simp [kind, hnone hkeyword]

end Token.SpelledAs

end Spelling

namespace Scan

variable {c d : Cursor} {hash : Bool} {parts : List NamePart}

/-- A name stands between the cursors, as long as it can be. -/
structure NameBetween (hash : Bool) (parts : List NamePart) (c d : Cursor) : Prop extends
    Named hash parts where
  passes : c.Passes (nameText hash parts) [] d
  ends : NameEnds d.rest

theorem NameBetween.lexeme_eq (h : NameBetween hash parts c d) : lexeme c =
    nameVerdict (!hash) (parts.all isPlain) (String.ofList (chars parts)) d := by
  obtain ⟨d', hpasses, hread⟩ := lexeme_of_parts h.toNamed h.passes.rest h.ends
  rwa [h.passes.unique hpasses]

theorem nameFrom_cases (start : Cursor) (read : List Char) (reserving : Bool) (c : Cursor) :
    (∃ parts d, (∀ part ∈ parts, part.Proper CharClass.isIdentifierPart) ∧
      c.Passes (texts parts) [] d ∧ NameEnds d.rest) ∨
    ∃ f, nameFrom start read reserving c = .error f ∧ f.id ∈ unexpectedIds := by
  cases hread : nameChars CharClass.isIdentifierPart (c.rest.length + 1) read c with
  | error f =>
    refine Or.inr ⟨f, ?_, nameChars_blames _ _ _ _ f hread⟩
    unfold nameFrom
    rw [hread]
    rfl
  | ok found =>
    obtain ⟨out, d⟩ := found
    obtain ⟨parts, hparts, hpasses, hends⟩ := parts_of_nameChars (Nat.lt_succ_self _) hread
    exact Or.inl ⟨parts, d, fun part hmem => proper_iff_legible.mpr (hparts part hmem), hpasses, hends⟩

theorem parts_ne_nil {ch : Char} {rest : List Char} (hrest : c.rest = ch :: rest)
    (hch : isNamePart ch = true) (hpasses : c.Passes (texts parts) [] d) (hends : NameEnds d.rest) :
    parts ≠ [] := by
  rintro rfl
  have hsame : c.rest = d.rest := hpasses.rest
  rw [← hsame, hrest] at hends
  rw [hends ch rfl] at hch
  cases hch

theorem nameText_false : nameText false parts = texts parts := rfl

theorem spelled_kind_ne : ∀ entry ∈ spelledChars,
    entry.2.kind ≠ .identifier ∧ entry.2.kind ≠ .keyword := by
  decide +kernel

/-- What is read where no name stands is none, and is not blamed for how names are spelled. -/
structure NoName (x : Except Failure (Lexeme × Cursor)) : Prop where
  kind : ∀ l d, x = .ok (l, d) → l.kind ≠ .identifier ∧ l.kind ≠ .keyword
  blames : ∀ f, x = .error f → f.id ≠ .keywordMustNotContainEscapes

namespace NoName

variable {x : Except Failure (Lexeme × Cursor)}

theorem of_error {f : Failure} (hx : x = .error f) (hf : f.id ∈ unexpectedIds) : NoName x := by
  subst hx
  refine ⟨fun l d h => ?_, ?_⟩
  · cases h
  rintro _ ⟨⟩ heq
  rw [heq] at hf
  exact absurd hf (by decide)

theorem unexpected {c : Cursor} (hx : x = .error (.unexpected c)) : NoName x :=
  of_error hx (unexpected_id c)

theorem of_kind {k : TokenKind} {ids : List ProblemId} (hx : ∀ l d, x = .ok (l, d) → l.kind = k)
    (hk : k ≠ .identifier ∧ k ≠ .keyword) (hids : Blames ids x)
    (hnot : .keywordMustNotContainEscapes ∉ ids) : NoName x :=
  ⟨fun l d h => hx l d h ▸ hk, fun f h heq => hnot (heq ▸ hids f h)⟩

end NoName

/-- A name stands here, or no lexeme from here is one. -/
theorem nameBetween_or (c : Cursor) :
    (∃ hash parts d, NameBetween hash parts c d) ∨ NoName (lexeme c) := by
  cases hrest : c.rest with
  | nil =>
    right
    unfold lexeme
    rw [hrest]
    exact ⟨by rintro _ _ ⟨⟩; decide, by rintro _ ⟨⟩⟩
  | cons ch rest =>
    by_cases hhash : ch = '#'
    · subst hhash
      have hmark : AllNarrow ['#'] := by decide
      have hpassed : c.Passes ['#'] [] (c.skip 1) := passes_skip hrest hmark
      rw [lexeme_hash hrest, unreservedName]
      cases hinside : (c.skip 1).rest with
      | nil => exact Or.inr (.unexpected rfl)
      | cons ch rest =>
        dsimp only
        cases hch : isNamePart ch with
        | false => exact Or.inr (.unexpected rfl)
        | true =>
          rw [if_pos rfl]
          rcases nameFrom_cases c [] false (c.skip 1) with ⟨parts, d, hparts, hpasses, hends⟩ |
            ⟨f, hread, hf⟩
          · have hne := parts_ne_nil hinside hch hpasses hends
            exact Or.inl ⟨true, parts, d, ⟨hparts, hne, by rintro ⟨⟩⟩, hpassed.trans hpasses, hends⟩
          · exact Or.inr (.of_error hread hf)
    by_cases hslash : ch = '\\'
    · subst hslash
      rw [lexeme_backslash hrest, escapedName]
      cases hescape : nameEscape CharClass.isIdentifierStart c with
      | error f => exact Or.inr (.of_error rfl (nameEscape_blames _ _ f hescape))
      | ok found =>
        obtain ⟨escaped, e⟩ := found
        obtain ⟨p, hp, -, hpassed⟩ := (nameEscape_ok_iff hrest).mp hescape
        rcases nameFrom_cases c [escaped] true e with ⟨parts, d, hparts, hpasses, hends⟩ |
          ⟨f, hread, hf⟩
        · have hpart : (escape p).Proper CharClass.isIdentifierPart :=
            ⟨hp.1, CharClass.isIdentifierPart_of_start hp.2⟩
          refine Or.inl ⟨false, escape p :: parts, d,
            ⟨List.forall_mem_cons.mpr ⟨hpart, hparts⟩, List.cons_ne_nil _ _, ?_⟩,
            hpassed.trans hpasses, hends⟩
          rintro - part ⟨⟩
          exact hp
        · exact Or.inr (.of_error hread hf)
    unfold lexeme
    simp only [hrest]
    by_cases hstart : CharClass.isIdentifierStart ch = true
    · rw [if_pos hstart]
      have hch : isNamePart ch = true := by
        simp [isNamePart, CharClass.isIdentifierPart_of_start hstart]
      rcases nameFrom_cases c [] true c with ⟨parts, d, hparts, hpasses, hends⟩ | ⟨f, hread, hf⟩
      · have hne := parts_ne_nil hrest hch hpasses hends
        refine Or.inl ⟨false, parts, d, ⟨hparts, hne, ?_⟩, hpasses, hends⟩
        obtain ⟨part, others, rfl⟩ := List.exists_cons_of_ne_nil hne
        rintro - _ ⟨⟩
        have htext := hpasses.rest
        rw [hrest] at htext
        cases part with
        | plain =>
          cases htext
          exact hstart
        | escape =>
          cases htext
          exact absurd rfl hslash
      · exact Or.inr (.of_error hread hf)
    right
    rw [if_neg hstart]
    split
    · exact .of_kind (fun l d h => (numberLiteral_leads h).1) (by decide) (numberLiteral_blames c)
        (by decide)
    split
    · rename_i reading hmark
      refine ⟨?_, by rintro _ ⟨⟩⟩
      rintro l d ⟨⟩
      unfold punctuation? at hmark
      obtain ⟨entry, hfind, heq⟩ := Option.map_eq_some_iff.mp hmark
      cases heq
      exact spelled_kind_ne entry (List.mem_of_find?_eq_some hfind)
    unfold otherLexeme
    split
    · split
      · exact .of_kind (fun l d h => (fractionLiteral_leads h).1) (by decide)
          (fractionLiteral_blames c) (by decide)
      · exact ⟨by rintro _ _ ⟨⟩; decide, by rintro _ ⟨⟩⟩
    split
    · exact .of_kind (fun l d h => (stringLiteral_leads h).1) (by decide) (stringLiteral_blames ch c)
        (by decide)
    rw [if_neg (by simpa using hhash), if_neg (by simpa using hslash)]
    exact .unexpected rfl

/-- The name is spelled letter by letter just when its spelling has no other characters than it. -/
theorem Named.plain_iff (h : Named hash parts) :
    (hash = false ∧ parts.all isPlain = true) ↔
      (nameText hash parts).all CharClass.isIdentifierPart = true := by
  cases hash with
  | true => simp [nameText, show CharClass.isIdentifierPart '#' = false by decide]
  | false =>
    rw [nameText_false, List.all_eq_true, List.all_eq_true]
    constructor
    · rintro ⟨-, hplain⟩ ch hmem
      rw [texts_of_plain hplain] at hmem
      obtain ⟨part, hpart, rfl⟩ := List.mem_map.mp hmem
      have hproper := h.proper part hpart
      cases part with
      | plain => exact hproper
      | escape => cases hplain _ hpart
    · refine fun hall => ⟨rfl, fun part hpart => ?_⟩
      cases part with
      | plain => rfl
      | escape p =>
        have hmem : '\\' ∈ texts parts := List.mem_flatMap.mpr ⟨_, hpart, List.mem_cons_self⟩
        exact absurd (hall _ hmem) (by decide)

/-- Only a name that is spelled letter by letter takes as many bytes as it has. -/
theorem Named.length_iff (h : Named hash parts) :
    Utf8.byteLength (nameText hash parts) = Utf8.byteLength (chars parts) ↔
      hash = false ∧ parts.all isPlain = true := by
  obtain ⟨hle, hiff⟩ := byteLength_texts h.proper
  rw [List.all_eq_true, ← hiff]
  cases hash with
  | true =>
    have hone : Utf8.byteLength (nameText true parts) = 1 + Utf8.byteLength (texts parts) := rfl
    simp only [hone, reduceCtorEq, false_and, iff_false]
    omega
  | false =>
    rw [nameText_false]
    exact ⟨fun heq => ⟨rfl, heq.symm⟩, fun heq => heq.2.symm⟩

/-- A name that stands for a reserved word without being spelled like it. -/
theorem NameBetween.verdict_error (h : NameBetween hash parts c d) :
    (∃ f, lexeme c = .error f ∧ f.id = .keywordMustNotContainEscapes) ↔
      hash = false ∧ String.ofList (chars parts) ∈ Keyword.reserved ∧ chars parts ≠ texts parts := by
  have hplain : parts.all isPlain = true ↔ chars parts = texts parts := by
    rw [List.all_eq_true]
    refine ⟨fun hall => (texts_of_plain hall).symm, fun heq => ?_⟩
    exact (byteLength_texts h.proper).2.mp (congrArg Utf8.byteLength heq)
  rw [h.lexeme_eq, nameVerdict, ne_eq, ← hplain]
  cases hash with
  | true => simp
  | false =>
    by_cases hreserved : String.ofList (chars parts) ∈ Keyword.reserved
    · rw [if_pos (by simpa [Keyword.isReserved_iff] using hreserved)]
      cases parts.all isPlain with
      | true => simp
      | false => exact ⟨fun _ => ⟨rfl, hreserved, nofun⟩, fun _ => ⟨_, rfl, rfl⟩⟩
    · rw [if_neg (by simpa [Keyword.isReserved_iff] using hreserved)]
      simp [hreserved]

theorem NameBetween.lexeme_ok (h : NameBetween hash parts c d) {l : Lexeme} {e : Cursor}
    (hl : lexeme c = .ok (l, e)) : e = d ∧ l.text = String.ofList (chars parts) ∧
      Token.SpelledAs { l with span := c.spanTo d } (String.ofList (nameText hash parts)) := by
  have hlength : (c.spanTo d).length = Utf8.byteLength (nameText hash parts) := by
    show d.index - c.index = _
    rw [h.passes.index, Nat.add_sub_cancel_left]
  rw [h.lexeme_eq, nameVerdict] at hl
  split at hl
  · rename_i hreserved
    rw [Bool.and_eq_true, Bool.not_eq_true', Keyword.isReserved_iff] at hreserved
    obtain ⟨rfl, hreserved⟩ := hreserved
    split at hl
    · rename_i hplain
      cases hl
      have htexts := texts_of_plain (List.all_eq_true.mp hplain)
      refine ⟨rfl, rfl, .reserved rfl ?_ ?_⟩
      · rw [nameText_false, htexts]
      · rwa [nameText_false, htexts]
    · cases hl
  · rename_i hreserved
    cases hl
    refine ⟨rfl, rfl, ?_⟩
    by_cases hplain : hash = false ∧ parts.all isPlain = true
    · obtain ⟨rfl, hall⟩ := hplain
      have htexts := texts_of_plain (List.all_eq_true.mp hall)
      have hchars := h.plain_iff.mp ⟨rfl, hall⟩
      rw [Bool.not_false, Bool.true_and, Keyword.isReserved_iff] at hreserved
      refine .plain rfl ?_ ?_ ?_ ?_
      · rw [nameText_false, htexts]
      · rw [utf8ByteSize_ofList]
        exact hlength
      · rwa [nameText_false, htexts]
      · rwa [String.toList_ofList]
    · refine .other rfl ?_ ?_
      · show (c.spanTo d).length ≠ (String.ofList (chars parts)).utf8ByteSize
        rw [hlength, utf8ByteSize_ofList]
        exact mt h.length_iff.mp hplain
      · rw [String.toList_ofList, Bool.eq_false_iff]
        exact mt h.plain_iff.mpr hplain

end Scan

namespace Scanner

theorem next_keeps_name {s t : Scanner} (hnext : s.next = (.ok (), t))
    (hkind : t.token.kind = .identifier ∨ t.token.kind = .keyword) :
    ∃ hash parts start stop, trivia s.cursor = .ok start ∧ NameBetween hash parts start stop ∧
      t.cursor.rest = stop.rest ∧ t.token.span = start.spanTo stop ∧
      t.token.text = String.ofList (chars parts) ∧
      t.token.SpelledAs (String.ofList (nameText hash parts)) := by
  cases hstart : trivia s.cursor with
  | error failure =>
    unfold next at hnext
    rw [hstart] at hnext
    cases hnext
  | ok start =>
    rw [next_of_start hstart] at hnext
    cases hread : lexeme start with
    | error failure =>
      rw [hread] at hnext
      cases hnext
    | ok found =>
      obtain ⟨l, stop⟩ := found
      rw [hread] at hnext
      cases hnext
      rcases nameBetween_or start with ⟨hash, parts, d, h⟩ | hnone
      · obtain ⟨rfl, htext, hspelled⟩ := h.lexeme_ok hread
        exact ⟨hash, parts, start, stop, rfl, h, rfl, rfl, htext, hspelled⟩
      · obtain ⟨hidentifier, hkeyword⟩ := hnone.kind l stop hread
        exact (hkind.elim hidentifier hkeyword).elim

theorem next_refuses_name (s : Scanner) :
    (∃ p, s.next.1 = .error p ∧ p.id = .keywordMustNotContainEscapes) ↔
      ∃ parts start stop, trivia s.cursor = .ok start ∧ NameBetween false parts start stop ∧
        String.ofList (chars parts) ∈ Keyword.reserved ∧ chars parts ≠ texts parts := by
  have hlexeme : ∀ {start : Cursor}, trivia s.cursor = .ok start →
      ((∃ p, s.next.1 = .error p ∧ p.id = .keywordMustNotContainEscapes) ↔
        ∃ f, lexeme start = .error f ∧ f.id = .keywordMustNotContainEscapes) := by
    intro start hstart
    rw [next_of_start hstart]
    cases lexeme start with
    | ok found => simp
    | error failure => simp [Failure.problem]
  constructor
  · intro h
    cases hstart : trivia s.cursor with
    | error failure =>
      obtain ⟨p, hp, hid⟩ := h
      have hids := trivia_blames s.cursor failure hstart
      unfold next at hp
      rw [hstart] at hp
      cases hp
      have hid : failure.id = .keywordMustNotContainEscapes := hid
      rw [hid] at hids
      exact absurd hids (by decide)
    | ok start =>
      obtain ⟨f, hf, hid⟩ := (hlexeme hstart).mp h
      rcases nameBetween_or start with ⟨hash, parts, stop, hname⟩ | hnone
      · obtain ⟨rfl, hreserved, hne⟩ := hname.verdict_error.mp ⟨f, hf, hid⟩
        exact ⟨parts, start, stop, rfl, hname, hreserved, hne⟩
      · exact absurd hid (hnone.blames f hf)
  · rintro ⟨parts, start, stop, hstart, hname, hreserved, hne⟩
    exact (hlexeme hstart).mpr (hname.verdict_error.mpr ⟨rfl, hreserved, hne⟩)

/-- A token that is a name or a reserved word has been read from the longest name there is, and answers by
its spelling, wherever it stands: without a hash and without escapes it is the word that it is asked for,
and behind a hash it is never reserved. A name is refused for its escapes just when it stands for a
reserved word, without a hash, and is not spelled like it. -/
theorem next_name :
    (∀ s t : Scanner, s.next = (.ok (), t) →
      t.token.kind = .identifier ∨ t.token.kind = .keyword →
      ∃ hash parts start stop, trivia s.cursor = .ok start ∧ NameBetween hash parts start stop ∧
        t.cursor.rest = stop.rest ∧ t.token.span = start.spanTo stop ∧
        t.token.text = String.ofList (chars parts) ∧
        t.token.Tells (String.ofList (nameText hash parts)) ∧
        (hash = false → (∀ part ∈ parts, part.isPlain = true) →
          t.token.isKeyword (String.ofList (nameText hash parts)) = true ∨
          t.token.isContextKeyword (String.ofList (nameText hash parts)) = true) ∧
        (hash = true → t.token.kind = .identifier)) ∧
    ∀ s : Scanner, (∃ p, s.next.1 = .error p ∧ p.id = .keywordMustNotContainEscapes) ↔
      ∃ parts start stop, trivia s.cursor = .ok start ∧ NameBetween false parts start stop ∧
        String.ofList (chars parts) ∈ Keyword.reserved ∧ chars parts ≠ texts parts := by
  refine ⟨fun s t hnext hkind => ?_, next_refuses_name⟩
  obtain ⟨hash, parts, start, stop, hstart, hname, hrest, hspan, htext, hspelled⟩ :=
    next_keeps_name hnext hkind
  refine ⟨hash, parts, start, stop, hstart, hname, hrest, hspan, htext, hspelled.tells, ?_, ?_⟩
  · rintro rfl hplain
    have hchars := hname.plain_iff.mp ⟨rfl, List.all_eq_true.mpr hplain⟩
    rw [hspelled.isKeyword, hspelled.isContextKeyword, String.toList_ofList]
    by_cases hreserved : String.ofList (nameText false parts) ∈ Keyword.reserved
    · exact Or.inl ⟨rfl, hreserved⟩
    · exact Or.inr ⟨rfl, hreserved, hchars⟩
  · rintro rfl
    refine hkind.resolve_right fun hkeyword => ?_
    have hchars := Keyword.reserved_plain (hspelled.keyword.mp hkeyword)
    rw [String.toList_ofList] at hchars
    exact absurd (hname.plain_iff.mpr hchars).1 (by decide)

/-- The name `get`, spelled with an escape, is no word of that name. -/
theorem next_name_escaped : ∃ t, (Scanner.ofScript (Script.ofSource "/a.es" "\\x67et x")).next =
    (.ok (), t) ∧ t.token.text = "get" ∧ t.token.Tells "\\x67et" := by
  let s := Scanner.ofScript (Script.ofSource "/a.es" "\\x67et x")
  have hnext : s.next = (.ok (), s.next.2) := Prod.ext (by rfl) rfl
  obtain ⟨hash, parts, start, stop, hstart, hname, hrest, -, -, htells, -⟩ :=
    next_name.1 s _ hnext (Or.inl (by rfl))
  have htrivia : trivia s.cursor = .ok s.cursor := rfl
  cases htrivia.symm.trans hstart
  have htext : nameText hash parts = "\\x67et".toList := by
    refine List.append_cancel_right (hname.passes.rest.symm.trans ?_)
    rw [← hrest]
    rfl
  rw [htext] at htells
  exact ⟨_, hnext, rfl, htells⟩

end Scanner

end ActionSyntax
