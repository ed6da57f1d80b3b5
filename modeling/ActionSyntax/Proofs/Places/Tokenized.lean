import ActionSyntax.Proofs.Places.Steps

/-!
The tokens of a text. A scan that reaches the end without a problem has taken the text apart, into
tokens one behind the other and the gaps between them.
-/

namespace ActionSyntax

set_option autoImplicit false

open Utf8

/-- Behind `before`, a text is taken apart into tokens, with gaps before, between and behind them.
The comments are those of the gaps. -/
inductive Tiled : List Char → List Token → List Comment → List Char → Prop
  | last {before gap : List Char} {notes : List Comment} {token : Token}
      (crossed : Gap before gap notes []) (kind : token.kind = .endOfProgram)
      (span : token.span = Lines.spanOf (before ++ gap) []) : Tiled before [token] notes gap
  | token {before gap text after : List Char} {notes comments : List Comment} {token : Token}
      {tokens : List Token} (crossed : Gap before gap notes (text ++ after))
      (kind : token.kind ≠ .endOfProgram) (nonempty : text ≠ [])
      (span : token.span = Lines.spanOf (before ++ gap) text)
      (behind : Tiled (before ++ gap ++ text) tokens comments after) :
      Tiled before (token :: tokens) (notes ++ comments) (gap ++ text ++ after)

namespace Tiled

variable {before text : List Char} {tokens : List Token} {comments : List Comment}

theorem byteLength_pos {text : List Char} (h : text ≠ []) : 0 < byteLength text :=
  Nat.pos_of_ne_zero fun hz => h (Lines.byteLength_eq_zero hz)

/-- No token begins before the text does, and none but the end of the text begins at its end. -/
theorem token_span (h : Tiled before tokens comments text) : ∀ token ∈ tokens,
    byteLength before ≤ token.span.start ∧ token.span.start ≤ token.span.stop ∧
      token.span.stop ≤ byteLength (before ++ text) ∧
      (token.kind = .endOfProgram ↔ token.span.start = byteLength (before ++ text)) ∧
      (token.kind ≠ .endOfProgram → token.span.start < token.span.stop) := by
  induction h with
  | last _ hkind hspan =>
    intro token hmem
    obtain rfl := List.mem_singleton.mp hmem
    simp [hkind, hspan, Lines.spanOf]
  | @token before gap text after _ _ token tokens _ hkind hne hspan _ ih =>
    intro t hmem
    have hpos := byteLength_pos hne
    rcases List.mem_cons.mp hmem with rfl | hmem
    · simp only [hspan, Lines.spanOf, byteLength_append, hkind, false_iff]
      omega
    · obtain ⟨hstart, hle, hstop, hrest⟩ := ih t hmem
      have hend : byteLength (before ++ (gap ++ text ++ after)) =
          byteLength (before ++ gap ++ text ++ after) := by simp
      rw [hend]
      refine ⟨?_, hle, hstop, hrest⟩
      simp only [byteLength_append] at hstart
      omega

/-- Tokens follow each other without overlapping. -/
theorem pairwise (h : Tiled before tokens comments text) :
    tokens.Pairwise fun a b => a.span.start < b.span.start ∧ a.span.stop ≤ b.span.start := by
  induction h with
  | last => exact List.pairwise_singleton _ _
  | @token before gap text after _ _ token tokens _ hkind hne hspan hbehind ih =>
    refine List.pairwise_cons.mpr ⟨fun t hmem => ?_, ih⟩
    have hpos := byteLength_pos hne
    have hstart := (hbehind.token_span t hmem).1
    simp only [hspan, Lines.spanOf, byteLength_append] at hstart ⊢
    omega

theorem length_le (h : Tiled before tokens comments text) :
    tokens.length ≤ byteLength text + 1 := by
  induction h with
  | last => simp
  | @token before gap text after _ _ token tokens _ _ hne _ _ ih =>
    have hpos := byteLength_pos hne
    simp only [List.length_cons, byteLength_append]
    omega

end Tiled

namespace Scanner

/-- Steps that read tokens up to the end of the text, without a problem. -/
inductive Scans : Scanner → List Token → Scanner → Prop
  | last {s t : Scanner} (read : s.next = (.ok (), t)) (kind : t.token.kind = .endOfProgram) :
      Scans s [t.token] t
  | token {s t u : Scanner} {tokens : List Token} (read : s.next = (.ok (), t))
      (kind : t.token.kind ≠ .endOfProgram) (more : Scans t tokens u) : Scans s (t.token :: tokens) u

/-- Steps that read tokens, and then one that fails. -/
inductive Fails : Scanner → List Token → Problem → Scanner → Prop
  | here {s t : Scanner} {problem : Problem} (read : s.next = (.error problem, t)) :
      Fails s [] problem t
  | token {s t u : Scanner} {tokens : List Token} {problem : Problem} (read : s.next = (.ok (), t))
      (kind : t.token.kind ≠ .endOfProgram) (more : Fails t tokens problem u) :
      Fails s (t.token :: tokens) problem u

/-- What a step takes is the first part of what is left. -/
theorem Takes.content {before gap text : List Char} {notes : List Comment} {s t : Scanner}
    (hs : s.Scanned before) (hcontent : t.script.content = s.script.content)
    (h : Takes before gap notes text s t) : s.cursor.rest = gap ++ text ++ t.cursor.rest := by
  have heq := h.scanned.content
  rw [hcontent, hs.content] at heq
  simpa using heq

/-- The tokens of a scan, and the comments it notes, tile what is left of the text. -/
theorem Scans.tiled {s t : Scanner} {tokens : List Token} (h : s.Scans tokens t) :
    ∀ {before : List Char}, s.Scanned before → ∃ comments,
      t.script.comments.toList = s.script.comments.toList ++ comments ∧
        Tiled before tokens comments s.cursor.rest := by
  induction h with
  | @last s t hread hkind =>
    intro before hs
    obtain ⟨gap, notes, text, htakes⟩ := next_takes hs (congrArg Prod.fst hread)
    rw [hread] at htakes
    have hcontent := htakes.content hs (by rw [← s.next_content, hread])
    obtain ⟨rfl, hnil⟩ := List.append_eq_nil_iff.mp (htakes.atEnd.mp hkind)
    change t.cursor.rest = [] at hnil
    have hgap : Gap before gap notes [] := by simpa [hnil] using htakes.crossed
    refine ⟨notes, htakes.comments, ?_⟩
    rw [hcontent, hnil, List.append_nil, List.append_nil]
    exact .last hgap hkind htakes.span
  | @token s t u tokens hread hkind _ ih =>
    intro before hs
    obtain ⟨gap, notes, text, htakes⟩ := next_takes hs (congrArg Prod.fst hread)
    rw [hread] at htakes
    have hcontent := htakes.content hs (by rw [← s.next_content, hread])
    obtain ⟨comments, hcomments, htiled⟩ := ih htakes.scanned
    refine ⟨notes ++ comments, by rw [hcomments, htakes.comments, List.append_assoc], ?_⟩
    rw [hcontent]
    exact .token htakes.crossed hkind (htakes.nonempty hkind) htakes.span htiled

/-- A scan ends, since every token but the last takes a part of the text. -/
theorem scan_ends : ∀ (n : Nat) {before : List Char} {s : Scanner}, s.Scanned before →
    byteLength s.cursor.rest ≤ n → ∃ tokens t, tokens.length ≤ n + 1 ∧
      (s.Scans tokens t ∨ ∃ problem, s.Fails tokens problem t) := by
  intro n
  induction n using Nat.strongRecOn with
  | ind n ih =>
    intro before s hs hle
    cases hread : s.next with
    | mk result t =>
    cases result with
    | error problem => exact ⟨[], t, by simp, Or.inr ⟨problem, .here hread⟩⟩
    | ok u =>
      by_cases hkind : t.token.kind = .endOfProgram
      · exact ⟨[t.token], t, by simp, Or.inl (.last hread hkind)⟩
      · obtain ⟨gap, notes, text, htakes⟩ := next_takes hs (congrArg Prod.fst hread)
        rw [hread] at htakes
        have hcontent := htakes.content hs (by rw [← s.next_content, hread])
        have hpos := Tiled.byteLength_pos (htakes.nonempty hkind)
        rw [hcontent] at hle
        simp only [byteLength_append] at hle
        obtain ⟨tokens, v, hlength, hend⟩ := ih (n - 1) (by omega) htakes.scanned
          (show byteLength t.cursor.rest ≤ n - 1 by omega)
        refine ⟨t.token :: tokens, v, by simp only [List.length_cons]; omega, ?_⟩
        exact hend.imp (.token hread hkind) fun ⟨p, hp⟩ => ⟨p, .token hread hkind hp⟩

/-- A scan ends after at most as many tokens as the text has bytes, and one more. One that meets no
problem takes the whole text apart: the end of the text is the token at its end, every other token
takes a part of the text, one behind the other, and between them stand only blanks, line terminators
and the comments that are noted. -/
theorem scan_source (path source : String) :
    (∃ tokens t, tokens.length ≤ byteLength source.toList + 1 ∧
      (Scans (Scanner.ofScript (Script.ofSource path source)) tokens t ∨
        ∃ problem, Fails (Scanner.ofScript (Script.ofSource path source)) tokens problem t)) ∧
    ∀ tokens t, Scans (Scanner.ofScript (Script.ofSource path source)) tokens t →
      tokens.length ≤ byteLength source.toList + 1 ∧
      (∀ token ∈ tokens,
        (token.kind = .endOfProgram ↔ token.span.start = byteLength source.toList) ∧
        (token.kind ≠ .endOfProgram → token.span.start < token.span.stop)) ∧
      (tokens.Pairwise fun a b => a.span.start < b.span.start ∧ a.span.stop ≤ b.span.start) ∧
      Tiled [] tokens t.script.comments.toList source.toList := by
  have hs := Scanned.ofSource path source
  refine ⟨scan_ends _ hs (Nat.le_refl _), fun tokens t h => ?_⟩
  obtain ⟨comments, hcomments, htiled⟩ := h.tiled hs
  have hall : t.script.comments.toList = comments := hcomments
  have htiled : Tiled [] tokens comments source.toList := htiled
  rw [hall]
  refine ⟨htiled.length_le, fun token hmem => ?_, htiled.pairwise, htiled⟩
  obtain ⟨-, -, -, hend, hnonempty⟩ := htiled.token_span token hmem
  exact ⟨hend, hnonempty⟩

/-- In front of a name, with a comment of either kind behind it. -/
def commented : Scanner := Scanner.ofScript (Script.ofSource "main.es" "a/*b*/ //c")

theorem scan_source_commented :
    ∃ tokens t, commented.Scans tokens t ∧
      tokens.map (·.span) = [⟨1, 1, 0, 1⟩, ⟨1, 1, 10, 10⟩] ∧
      t.script.comments.toList = [⟨true, "b", ⟨1, 1, 1, 6⟩⟩, ⟨false, "c", ⟨1, 1, 7, 10⟩⟩] ∧
      tokens.length ≤ 11 ∧ Tiled [] tokens t.script.comments.toList "a/*b*/ //c".toList := by
  have hscan : commented.Scans [commented.next.2.token, commented.next.2.next.2.token]
      commented.next.2.next.2 :=
    .token (Prod.ext (by decide +kernel) rfl) (by decide +kernel)
      (.last (Prod.ext (by decide +kernel) rfl) (by decide +kernel))
  obtain ⟨hlength, -, -, htiled⟩ :=
    (scan_source "main.es" "a/*b*/ //c").2 _ _ hscan
  exact ⟨_, _, hscan, by decide +kernel, by decide +kernel, hlength, htiled⟩

end Scanner

end ActionSyntax
