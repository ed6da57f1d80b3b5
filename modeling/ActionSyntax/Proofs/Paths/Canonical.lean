import ActionSyntax.Proofs.Paths.Segments

/-!
The canonical form of a path: a root, if it has one, and segments between single slashes, of which only
the first may be `..`, and only without a root; or a single dot. Normalizing a path gives its canonical
form, and a path in canonical form stays as it is. The path of an included file is canonical as well,
although its extension is added last.
-/

namespace ActionSyntax.Path

set_option autoImplicit false

/-- The canonical form of a path, rooted or not. -/
inductive Canonical (rooted : Bool) : List Char → Prop
  | dot (relative : rooted = false) : Canonical rooted ['.']
  | segments {root : List Char} {ups : Nat} {names : List (List Char)} (isRoot : isRoot root = true)
      (hasRoot : root.isEmpty = !rooted) (relative : rooted = true → ups = 0)
      (named : ∀ segment ∈ names, IsName segment) (visible : root ≠ [] ∨ ups ≠ 0 ∨ names ≠ []) :
      Canonical rooted (root ++ joinSegments (List.replicate ups parent ++ names))

section Normalizing

variable {rooted : Bool} {root path : List Char} {ups : Nat} {names : List (List Char)}

/-- What is kept of the segments of a path behind its root, the newest first. -/
def keptSegments (path : List Char) : List (List Char) :=
  (segments (path.drop (rootLength path))).foldl (resolveSegment (0 < rootLength path)) []

/-- A path whose separators are slashes, with the segments that are kept. -/
def resolvedText (path : List Char) : List Char :=
  path.take (rootLength path) ++ joinSegments (keptSegments path).reverse

theorem isEmpty_take_rootLength (path : List Char) :
    (path.take (rootLength path)).isEmpty = !decide (0 < rootLength path) := by
  have hle := rootLength_le path
  rw [Bool.eq_iff_iff]
  simp only [List.isEmpty_iff, List.take_eq_nil_iff, Bool.not_eq_true', decide_eq_false_iff_not]
  rw [← List.length_eq_zero_iff]
  omega

theorem normalizeChars_eq (path : List Char) :
    normalizeChars path =
      if resolvedText (slashed path) = [] then ['.'] else resolvedText (slashed path) := by
  simp only [normalizeChars, isEmpty_take_rootLength, Bool.not_not, List.isEmpty_iff]
  rfl

theorem kept_keptSegments (hbackslash : '\\' ∉ path) :
    Kept (0 < rootLength path) (keptSegments path) := by
  apply (Kept.bottom 0 (fun _ => rfl)).resolve
  intro part hpart
  obtain ⟨hslash, hsub⟩ := mem_segments hpart
  exact ⟨hslash, fun hmem => hbackslash (List.mem_of_mem_drop (hsub _ hmem))⟩

theorem normalizeChars_canonical (path : List Char) :
    Canonical (0 < rootLength (slashed path)) (normalizeChars path) := by
  rw [normalizeChars_eq]
  have hslashed : '\\' ∉ slashed path := not_mem_slashed
  obtain ⟨ups, names, hreverse, relative, named⟩ := (kept_keptSegments hslashed).reverse
  have hempty := isEmpty_take_rootLength (slashed path)
  unfold resolvedText
  rw [hreverse]
  split
  · next hnil =>
    have hroot : (slashed path).take (rootLength (slashed path)) = [] := (List.append_eq_nil_iff.mp hnil).1
    rw [hroot] at hempty
    exact .dot (by simpa using hempty)
  · next hne =>
    refine .segments (isRoot_take _) hempty relative named ?_
    by_cases hroot : (slashed path).take (rootLength (slashed path)) = []
    · right
      by_cases hups : ups = 0
      · right
        rintro rfl
        exact hne (by rw [hroot, hups]; rfl)
      · exact Or.inl hups
    · exact Or.inl hroot

/-- The segments of a relative path, each of them visible. -/
theorem resolved_parts (named : ∀ segment ∈ names, IsName segment) :
    ∀ part ∈ List.replicate ups parent ++ names, part ≠ [] ∧ '/' ∉ part ∧ '\\' ∉ part := by
  intro part hpart
  rcases List.mem_append.mp hpart with hpart | hpart
  · rw [List.eq_of_mem_replicate hpart]
    decide
  · exact ⟨(named part hpart).ne_nil, (named part hpart).slash, (named part hpart).backslash⟩

/-- Segments that are joined are resolved as they stand. -/
theorem resolve_segments_joinSegments {parts kept : List (List Char)}
    (hslash : ∀ part ∈ parts, '/' ∉ part) :
    (segments (joinSegments parts)).foldl (resolveSegment rooted) kept =
      parts.foldl (resolveSegment rooted) kept := by
  by_cases hnil : parts = []
  · subst hnil
    rfl
  · rw [segments_joinSegments hslash hnil]

theorem joinSegments_ne_nil {parts : List (List Char)} (hparts : ∀ part ∈ parts, part ≠ [])
    (hne : parts ≠ []) : joinSegments parts ≠ [] := by
  fun_cases joinSegments parts with
  | case1 => exact absurd rfl hne
  | case2 part => exact hparts part (by simp)
  | case3 part rest => simp

theorem backslash_not_mem_segments (hroot : isRoot root = true)
    (named : ∀ segment ∈ names, IsName segment) :
    '\\' ∉ root ++ joinSegments (List.replicate ups parent ++ names) := by
  intro hmem
  rcases List.mem_append.mp hmem with hmem | hmem
  · exact backslash_not_mem_root hroot hmem
  rcases mem_joinSegments hmem with hmem | ⟨part, hpart, hmem⟩
  · cases hmem
  · exact (resolved_parts named part hpart).2.2 hmem

theorem Canonical.slashed_eq (h : Canonical rooted path) : slashed path = path := by
  apply slashed_of_not_mem
  cases h with
  | dot => decide
  | segments isRoot _ _ named _ => exact backslash_not_mem_segments isRoot named

/-- Where the root is read as it was written, resolved segments behind it stay as they are. -/
theorem normalizeChars_segments (hroot : isRoot root = true) (relative : root ≠ [] → ups = 0)
    (named : ∀ segment ∈ names, IsName segment) (visible : root ≠ [] ∨ ups ≠ 0 ∨ names ≠ [])
    (hread : rootLength (root ++ joinSegments (List.replicate ups parent ++ names)) = root.length) :
    normalizeChars (root ++ joinSegments (List.replicate ups parent ++ names)) =
      root ++ joinSegments (List.replicate ups parent ++ names) := by
  have hparts : ∀ part ∈ List.replicate ups parent ++ names, _ := resolved_parts named
  have hbackslash : '\\' ∉ root ++ joinSegments (List.replicate ups parent ++ names) :=
    backslash_not_mem_segments hroot named
  generalize hall : List.replicate ups parent ++ names = parts at *
  have hrelative : decide (0 < root.length) = true → ups = 0 := by
    intro hpos
    exact relative (List.length_pos_iff.mp (by simpa using hpos))
  have hkept : (keptSegments (root ++ joinSegments parts)).reverse = parts := by
    unfold keptSegments
    rw [hread, List.drop_left, resolve_segments_joinSegments (fun part hpart => (hparts part hpart).2.1),
      ← hall, resolve_resolved hrelative named, List.reverse_reverse]
  have htext : resolvedText (root ++ joinSegments parts) = root ++ joinSegments parts := by
    unfold resolvedText
    rw [hkept, hread, List.take_left]
  have hne : root ++ joinSegments parts ≠ [] := by
    intro hnil
    obtain ⟨hrootNil, hjoin⟩ := List.append_eq_nil_iff.mp hnil
    refine joinSegments_ne_nil (fun part hpart => (hparts part hpart).1) ?_ hjoin
    rintro rfl
    obtain ⟨hups, hnames⟩ := List.append_eq_nil_iff.mp hall
    rcases visible with h | h | h
    · exact h hrootNil
    · exact h (by simpa using hups)
    · exact h hnames
  rw [normalizeChars_eq, slashed_of_not_mem hbackslash, htext, if_neg hne]

/-- Segments that open with a drive are names. -/
theorem ups_of_opensDrive (h : opensDrive (List.replicate ups parent ++ names) = true) : ups = 0 := by
  cases ups with
  | zero => rfl
  | succ ups =>
    obtain ⟨letter, second, others, -, heq⟩ := opensDrive_eq h
    rw [List.replicate_succ, List.cons_append, parent, List.cons.injEq] at heq
    exact absurd heq.1 (by simp)

/-- A canonical path is what normalization makes of it. A relative one that opens with a drive is read
as rooted, with the same segments behind. -/
theorem Canonical.normalizeChars_eq (h : Canonical rooted path) : normalizeChars path = path := by
  cases h with
  | dot => decide
  | @segments root ups names isRoot hasRoot relative named visible =>
    have hparts : ∀ part ∈ List.replicate ups parent ++ names, part ≠ [] ∧ '/' ∉ part :=
      fun part hpart => ⟨(resolved_parts named part hpart).1, (resolved_parts named part hpart).2.1⟩
    have hrelative : root ≠ [] → ups = 0 := by
      intro hne
      apply relative
      rw [← Bool.not_eq_false', ← hasRoot]
      simpa using hne
    by_cases hne : root = []
    · subst hne
      by_cases hdrive : opensDrive (List.replicate ups parent ++ names) = true
      · obtain rfl := ups_of_opensDrive hdrive
        obtain ⟨letter, second, others, hletter, rfl⟩ := opensDrive_eq hdrive
        have hbehind : ∀ segment ∈ second :: others, IsName segment :=
          fun segment hsegment => named segment (List.mem_cons_of_mem _ hsegment)
        have hothers : ∀ part ∈ second :: others, part ≠ [] ∧ '/' ∉ part :=
          fun part hpart => hparts part (List.mem_cons_of_mem _ hpart)
        have hhead := head?_joinSegments hothers
        have hroot : Path.isRoot [letter, ':', '/'] = true := hletter
        rw [List.replicate_zero, List.nil_append, List.nil_append, joinSegments_cons_cons]
        have hall : List.replicate 0 parent ++ second :: others = second :: others := List.nil_append _
        rw [← hall] at hhead
        have hstays := normalizeChars_segments hroot (fun _ => rfl) hbehind (Or.inl (by simp))
          (rootLength_root hroot (by simp) hhead)
        exact hstays
      · apply normalizeChars_segments isRoot hrelative named visible
        rw [List.nil_append, rootLength_joinSegments hparts, if_neg hdrive]
        rfl
    · exact normalizeChars_segments isRoot hrelative named visible
        (rootLength_root isRoot hne (head?_joinSegments hparts))

theorem normalize_normalize (path : String) : normalize (normalize path) = normalize path := by
  unfold normalize
  rw [String.toList_ofList, (normalizeChars_canonical path.toList).normalizeChars_eq]

end Normalizing

section Inclusion

variable {rooted : Bool} {path : List Char}

/-- A segment with an extension is a name, whatever it was before. -/
theorem isName_extended {segment : List Char} (hslash : '/' ∉ segment) (hbackslash : '\\' ∉ segment) :
    IsName (segment ++ sourceExtension.toList) := by
  have hlength : 3 ≤ (segment ++ sourceExtension.toList).length := by
    rw [List.length_append]
    exact Nat.le_add_left _ _
  refine ⟨?_, ?_, ?_, ?_, ?_⟩
  · intro heq
    simp [heq] at hlength
  · intro heq
    simp [heq] at hlength
  · intro heq
    simp [heq, parent] at hlength
  · simp [hslash, sourceExtension]
  · simp [hbackslash, sourceExtension]

/-- Segments that end in one with an extension, behind a root or none. -/
theorem canonical_extended {root : List Char} {ups : Nat} {front : List (List Char)} {last : List Char}
    (isRoot : isRoot root = true) (hasRoot : root.isEmpty = !rooted) (relative : rooted = true → ups = 0)
    (named : ∀ segment ∈ front, IsName segment) (hslash : '/' ∉ last) (hbackslash : '\\' ∉ last) :
    Canonical rooted (root ++ joinSegments (List.replicate ups parent ++ front ++ [last]) ++
      sourceExtension.toList) := by
  have hnames : ∀ segment ∈ front ++ [last ++ sourceExtension.toList], IsName segment := by
    intro segment hsegment
    rcases List.mem_append.mp hsegment with hsegment | hsegment
    · exact named segment hsegment
    · rw [List.mem_singleton.mp hsegment]
      exact isName_extended hslash hbackslash
  have htext : root ++ joinSegments (List.replicate ups parent ++ front ++ [last]) ++
      sourceExtension.toList =
      root ++ joinSegments (List.replicate ups parent ++ (front ++ [last ++ sourceExtension.toList])) := by
    rw [← List.append_assoc (List.replicate ups parent), joinSegments_concat, List.append_assoc root]
  rw [htext]
  exact .segments isRoot hasRoot relative hnames (Or.inr (Or.inr (by simp)))

/-- A canonical path with an extension is canonical. The extension belongs to the last segment, or to an
empty one behind the root. -/
theorem Canonical.extended (h : Canonical rooted path) :
    Canonical rooted (path ++ sourceExtension.toList) := by
  cases h with
  | dot relative =>
    have hdot : Canonical rooted ([] ++ joinSegments (List.replicate 0 parent ++ [] ++ [['.']]) ++
        sourceExtension.toList) :=
      canonical_extended rfl (by rw [relative]; rfl) (fun _ => rfl) (by simp) (by decide) (by decide)
    exact hdot
  | @segments root ups names isRoot hasRoot relative named visible =>
    rcases List.eq_nil_or_concat names with rfl | ⟨front, last, rfl⟩
    · cases ups with
      | zero =>
        have hempty : Canonical rooted (root ++ joinSegments (List.replicate 0 parent ++ [] ++ [[]]) ++
            sourceExtension.toList) :=
          canonical_extended isRoot hasRoot relative (by simp) (by simp) (by simp)
        exact hempty
      | succ ups =>
        have hrooted : rooted ≠ true := fun h => absurd (relative h) (by simp)
        rw [List.append_nil, List.replicate_succ', ← List.append_nil (List.replicate ups parent)]
        exact canonical_extended isRoot hasRoot (fun h => absurd h hrooted) (by simp) (by decide) (by decide)
    · have hlast : IsName last := named last (by simp)
      rw [List.concat_eq_append] at named ⊢
      rw [← List.append_assoc]
      exact canonical_extended isRoot hasRoot relative
        (fun segment hsegment => named segment (List.mem_append_left _ hsegment)) hlast.slash hlast.backslash

theorem resolveInclude_toList (file source : String) :
    ∃ rooted, Canonical rooted (resolveInclude file source).toList := by
  unfold resolveInclude normalize
  have hcanonical := normalizeChars_canonical (combine (directory file) source).toList
  simp only
  split
  · exact ⟨_, by rw [String.toList_ofList]; exact hcanonical⟩
  · exact ⟨_, by rw [String.toList_append, String.toList_ofList]; exact hcanonical.extended⟩

theorem resolveInclude_extension (file source : String) :
    sourceExtension.toList <:+ (resolveInclude file source).toList := by
  unfold resolveInclude
  simp only
  split
  · next h => exact List.isSuffixOf_iff_suffix.mp h
  · rw [String.toList_append]
    exact List.suffix_append _ _

end Inclusion

/-- Normalizing gives the canonical form of every path, with a root just when the path has one, and
changes nothing in that form. Every path of an included file has the extension and is in that form. -/
theorem normalize_canonical :
    (∀ path : String, Canonical (isRooted path) (normalize path).toList ∧
      normalize (normalize path) = normalize path) ∧
    ∀ file source : String, sourceExtension.toList <:+ (resolveInclude file source).toList ∧
      normalize (resolveInclude file source) = resolveInclude file source := by
  refine ⟨fun path => ⟨?_, normalize_normalize path⟩, fun file source =>
    ⟨resolveInclude_extension file source, ?_⟩⟩
  · unfold normalize
    rw [String.toList_ofList]
    exact normalizeChars_canonical path.toList
  · obtain ⟨rooted, hcanonical⟩ := resolveInclude_toList file source
    unfold normalize
    rw [hcanonical.normalizeChars_eq, String.ofList_toList]

/-- What the canonical form keeps of dots, and what it adds to them. -/
example : normalize "a/./b/..\\../../c" = "../c" ∧ resolveInclude "main.es" "x/.." = "..es" := by
  decide +kernel

end ActionSyntax.Path
