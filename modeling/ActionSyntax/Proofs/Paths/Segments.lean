import ActionSyntax.Path

/-!
Segments of a path and what is kept of them. Segments between slashes are found again when they are
joined, as long as they do not look like a root. What is kept are names, below them only `..`, and behind
a root nothing but names.
-/

namespace ActionSyntax.Path

set_option autoImplicit false

/-- The segment that leads out of a directory. -/
def parent : List Char := ['.', '.']

/-- A segment that stands for a file or a directory by name. -/
structure IsName (segment : List Char) : Prop where
  ne_nil : segment ≠ []
  ne_dot : segment ≠ ['.']
  ne_parent : segment ≠ parent
  slash : '/' ∉ segment
  backslash : '\\' ∉ segment

/-- A root, or nothing in its place. -/
def isRoot : List Char → Bool
  | [letter, ':', '/'] => isDriveLetter letter
  | root => [[], ['/'], ['/', '/']].contains root

section Slashes

variable {path : List Char}

theorem not_mem_slashed : '\\' ∉ slashed path := by
  intro hmem
  obtain ⟨ch, -, hch⟩ := List.mem_map.mp hmem
  split at hch
  · cases hch
  · next hne => exact hne (by simp [hch])

theorem slashed_of_not_mem (h : '\\' ∉ path) : slashed path = path := by
  have hid : ∀ ch ∈ path, (if ch == '\\' then '/' else ch) = id ch := by
    intro ch hch
    have hne : ch ≠ '\\' := fun heq => h (heq ▸ hch)
    simp [hne]
  unfold slashed
  rw [List.map_congr_left hid, List.map_id]

theorem slashed_append (left right : List Char) :
    slashed (left ++ right) = slashed left ++ slashed right := List.map_append

end Slashes

section Segments

variable {path : List Char} {parts : List (List Char)}

theorem segments_eq_splitOn (path : List Char) : segments path = path.splitOn '/' := by
  induction path with
  | nil => rfl
  | cons ch rest ih =>
    rw [List.splitOn_cons_eq_if_modifyHead]
    by_cases hslash : ch = '/'
    · subst hslash
      rw [segments, ih]
      rfl
    · rw [segments.eq_3 _ _ (by simpa using hslash), ih]
      simp only [beq_iff_eq, hslash, if_false]
      cases hrest : rest.splitOn '/' with
      | nil => exact absurd hrest (List.splitOn_ne_nil '/' rest)
      | cons => rfl

theorem joinSegments_eq_intercalate (parts : List (List Char)) :
    joinSegments parts = ['/'].intercalate parts := by
  induction parts with
  | nil => rfl
  | cons first rest ih =>
    cases rest with
    | nil => simp [joinSegments]
    | cons second others =>
      rw [joinSegments, ih]
      · simp
      · simp

/-- Segments without slashes are found again when they are joined. -/
theorem segments_joinSegments (hslash : ∀ part ∈ parts, '/' ∉ part) (hne : parts ≠ []) :
    segments (joinSegments parts) = parts := by
  rw [segments_eq_splitOn, joinSegments_eq_intercalate]
  exact List.splitOn_intercalate '/' hslash hne

theorem segments_append_slash (left right : List Char) :
    segments (left ++ '/' :: right) = segments left ++ segments right := by
  simp only [segments_eq_splitOn, List.splitOn_append_cons_self]

theorem segments_of_not_mem {part : List Char} (hslash : '/' ∉ part) : segments part = [part] := by
  rw [segments_eq_splitOn, List.splitOn_eq_singleton hslash]

theorem segments_ne_nil (path : List Char) : segments path ≠ [] := by
  rw [segments_eq_splitOn]
  exact List.splitOn_ne_nil '/' path

/-- A segment has the characters of the path, but no slashes. -/
theorem mem_segments {part : List Char} (hpart : part ∈ segments path) :
    '/' ∉ part ∧ ∀ ch ∈ part, ch ∈ path := by
  induction path generalizing part with
  | nil =>
    obtain rfl : part = [] := by simpa [segments] using hpart
    simp
  | cons ch rest ih =>
    by_cases hslash : ch = '/'
    · subst hslash
      rw [segments] at hpart
      rcases List.mem_cons.mp hpart with rfl | hpart
      · simp
      · exact ⟨(ih hpart).1, fun c hc => List.mem_cons_of_mem _ ((ih hpart).2 c hc)⟩
    · rw [segments.eq_3 _ _ (by simpa using hslash)] at hpart
      cases hrest : segments rest with
      | nil =>
        rw [hrest] at hpart
        obtain rfl : part = [ch] := by simpa using hpart
        exact ⟨by simpa using Ne.symm hslash, by simp⟩
      | cons first others =>
        rw [hrest] at hpart ih
        rcases List.mem_cons.mp hpart with rfl | hpart
        · obtain ⟨hfirst, hsub⟩ := ih (List.mem_cons_self (l := others))
          refine ⟨by simp [Ne.symm hslash, hfirst], ?_⟩
          intro c hc
          rcases List.mem_cons.mp hc with rfl | hc
          · simp
          · exact List.mem_cons_of_mem _ (hsub c hc)
        · obtain ⟨hother, hsub⟩ := ih (List.mem_cons_of_mem first hpart)
          exact ⟨hother, fun c hc => List.mem_cons_of_mem _ (hsub c hc)⟩

end Segments

/-- Segments kept so far, the newest first: names, below them only `..`, and nothing but names behind
a root. -/
inductive Kept (rooted : Bool) : List (List Char) → Prop
  | bottom (ups : Nat) (relative : rooted = true → ups = 0) : Kept rooted (List.replicate ups parent)
  | name {segment : List Char} {kept : List (List Char)} (isName : IsName segment)
      (below : Kept rooted kept) : Kept rooted (segment :: kept)

section Resolving

variable {rooted : Bool} {kept : List (List Char)} {segment : List Char}

theorem resolveSegment_name (h : IsName segment) :
    resolveSegment rooted kept segment = segment :: kept := by
  have hparent : segment ≠ ['.', '.'] := h.ne_parent
  simp [resolveSegment, h.ne_nil, h.ne_dot, hparent]

/-- A name is given up for the `..` behind it. -/
theorem resolveSegment_parent_name (h : IsName segment) :
    resolveSegment rooted (segment :: kept) parent = kept := by
  have hparent : segment ≠ ['.', '.'] := h.ne_parent
  simp [resolveSegment, parent, hparent]

theorem resolveSegment_parent_ups (ups : Nat) :
    resolveSegment false (List.replicate ups parent) parent = List.replicate (ups + 1) parent := by
  cases ups <;> rfl

/-- What a segment without separators can be. -/
theorem segment_cases (hslash : '/' ∉ segment) (hbackslash : '\\' ∉ segment) :
    segment = [] ∨ segment = ['.'] ∨ segment = parent ∨ IsName segment := by
  by_cases hnil : segment = []
  · exact Or.inl hnil
  by_cases hdot : segment = ['.']
  · exact Or.inr (Or.inl hdot)
  by_cases hparent : segment = parent
  · exact Or.inr (Or.inr (Or.inl hparent))
  · exact Or.inr (Or.inr (Or.inr ⟨hnil, hdot, hparent, hslash, hbackslash⟩))

theorem Kept.resolveSegment (h : Kept rooted kept) (hslash : '/' ∉ segment)
    (hbackslash : '\\' ∉ segment) : Kept rooted (resolveSegment rooted kept segment) := by
  rcases segment_cases hslash hbackslash with rfl | rfl | rfl | hname
  · exact h
  · exact h
  · cases h with
    | name isName below =>
      rw [resolveSegment_parent_name isName]
      exact below
    | bottom ups relative =>
      cases rooted with
      | true =>
        obtain rfl : ups = 0 := relative rfl
        exact .bottom 0 relative
      | false =>
        rw [resolveSegment_parent_ups]
        exact .bottom (ups + 1) (by simp)
  · rw [resolveSegment_name hname]
    exact .name hname h

theorem Kept.resolve (h : Kept rooted kept) {parts : List (List Char)}
    (hparts : ∀ part ∈ parts, '/' ∉ part ∧ '\\' ∉ part) :
    Kept rooted (parts.foldl (Path.resolveSegment rooted) kept) := by
  induction parts generalizing kept with
  | nil => exact h
  | cons part rest ih =>
    obtain ⟨hpart, hrest⟩ := List.forall_mem_cons.mp hparts
    exact ih (h.resolveSegment hpart.1 hpart.2) hrest

/-- In the order in which they were written, what is kept is some `..` and then names. -/
theorem Kept.reverse (h : Kept rooted kept) :
    ∃ ups names, kept.reverse = List.replicate ups parent ++ names ∧ (rooted = true → ups = 0) ∧
      ∀ segment ∈ names, IsName segment := by
  induction h with
  | bottom ups relative =>
    exact ⟨ups, [], by rw [List.reverse_replicate, List.append_nil], relative, by simp⟩
  | @name segment kept isName below ih =>
    obtain ⟨ups, names, hreverse, relative, named⟩ := ih
    refine ⟨ups, names ++ [segment], ?_, relative, ?_⟩
    · rw [List.reverse_cons, hreverse, List.append_assoc]
    · intro other hother
      rcases List.mem_append.mp hother with hother | hother
      · exact named other hother
      · rw [List.mem_singleton.mp hother]
        exact isName

/-- Names are kept one after the other. -/
theorem resolve_names {names : List (List Char)} (named : ∀ segment ∈ names, IsName segment) :
    names.foldl (Path.resolveSegment rooted) kept = names.reverse ++ kept := by
  induction names generalizing kept with
  | nil => rfl
  | cons segment rest ih =>
    obtain ⟨hsegment, hrest⟩ := List.forall_mem_cons.mp named
    rw [List.foldl_cons, resolveSegment_name hsegment, ih hrest, List.reverse_cons,
      List.append_assoc, List.singleton_append]

theorem resolve_ups (ups : Nat) :
    (List.replicate ups parent).foldl (Path.resolveSegment false) [] = List.replicate ups parent := by
  induction ups with
  | zero => rfl
  | succ ups ih =>
    rw [List.replicate_succ', List.foldl_append, ih, ← List.replicate_succ']
    exact resolveSegment_parent_ups ups

/-- Resolved segments stay as they are. -/
theorem resolve_resolved {ups : Nat} {names : List (List Char)} (relative : rooted = true → ups = 0)
    (named : ∀ segment ∈ names, IsName segment) :
    (List.replicate ups parent ++ names).foldl (Path.resolveSegment rooted) [] =
      (List.replicate ups parent ++ names).reverse := by
  have hups : (List.replicate ups parent).foldl (Path.resolveSegment rooted) [] =
      List.replicate ups parent := by
    cases rooted with
    | true =>
      rw [relative rfl]
      rfl
    | false => exact resolve_ups ups
  rw [List.foldl_append, hups, resolve_names named, List.reverse_append, List.reverse_replicate]

end Resolving

section Roots

variable {root rest path : List Char}

theorem isDriveLetter_ne_slash {letter : Char} (h : isDriveLetter letter = true) : letter ≠ '/' := by
  rintro rfl
  exact absurd h (by decide)

theorem isRoot_cases (h : isRoot root = true) :
    root = [] ∨ root = ['/'] ∨ root = ['/', '/'] ∨
      ∃ letter, isDriveLetter letter = true ∧ root = [letter, ':', '/'] := by
  unfold isRoot at h
  split at h
  · exact Or.inr (Or.inr (Or.inr ⟨_, h, rfl⟩))
  · simp only [List.contains_iff_mem, List.mem_cons, List.not_mem_nil, or_false] at h
    rcases h with h | h | h
    · exact Or.inl h
    · exact Or.inr (Or.inl h)
    · exact Or.inr (Or.inr (Or.inl h))

theorem isRoot_take (path : List Char) : isRoot (path.take (rootLength path)) = true := by
  fun_cases rootLength path with
  | case1 => rfl
  | case2 => rfl
  | case3 letter rest _ hletter => exact hletter
  | case4 => rfl
  | case5 => rfl

theorem rootLength_le (path : List Char) : rootLength path ≤ path.length := by
  fun_cases rootLength path with
  | case5 => exact Nat.zero_le _
  | _ => simp only [List.length_cons]; omega

/-- A root is read as far as it goes, unless a slash follows a single one. -/
theorem rootLength_root (hroot : isRoot root = true) (hne : root ≠ []) (hrest : rest.head? ≠ some '/') :
    rootLength (root ++ rest) = root.length := by
  obtain rfl | rfl | rfl | ⟨letter, hdrive, rfl⟩ := isRoot_cases hroot
  · exact absurd rfl hne
  · apply rootLength.eq_2
    rintro tail rfl
    exact hrest rfl
  · rfl
  · have hletter : letter = '/' → False := isDriveLetter_ne_slash hdrive
    show rootLength (letter :: ':' :: '/' :: rest) = 3
    rw [rootLength.eq_3 _ _ hletter, if_pos hdrive]

theorem rootLength_eq_zero (hslash : path.head? ≠ some '/')
    (hdrive : ∀ letter tail, isDriveLetter letter = true → path ≠ letter :: ':' :: '/' :: tail) :
    rootLength path = 0 := by
  fun_cases rootLength path with
  | case1 => exact absurd rfl hslash
  | case2 => exact absurd rfl hslash
  | case3 letter tail _ hletter => exact absurd rfl (hdrive letter tail hletter)
  | case4 => rfl
  | case5 => rfl

theorem backslash_not_mem_root (hroot : isRoot root = true) : '\\' ∉ root := by
  obtain rfl | rfl | rfl | ⟨letter, hdrive, rfl⟩ := isRoot_cases hroot
  · simp
  · decide
  · decide
  · have hletter : '\\' ≠ letter := by
      rintro rfl
      exact absurd hdrive (by decide)
    simp [hletter]

/-- The first of several segments is a drive, which reads as a root when nothing stands in front. -/
def opensDrive : List (List Char) → Bool
  | [letter, ':'] :: _ :: _ => isDriveLetter letter
  | _ => false

theorem opensDrive_eq {parts : List (List Char)} (h : opensDrive parts = true) :
    ∃ letter second others, isDriveLetter letter = true ∧ parts = [letter, ':'] :: second :: others := by
  unfold opensDrive at h
  split at h
  · next letter second others => exact ⟨letter, second, others, h, rfl⟩
  · cases h

end Roots

section Joining

variable {parts : List (List Char)}

theorem mem_joinSegments {ch : Char} (h : ch ∈ joinSegments parts) :
    ch = '/' ∨ ∃ part ∈ parts, ch ∈ part := by
  fun_induction joinSegments parts with
  | case1 => cases h
  | case2 part => exact Or.inr ⟨part, List.mem_singleton_self _, h⟩
  | case3 part rest _ ih =>
    rcases List.mem_append.mp h with h | h
    · exact Or.inr ⟨part, List.mem_cons_self, h⟩
    rcases List.mem_cons.mp h with rfl | h
    · exact Or.inl rfl
    rcases ih h with rfl | ⟨other, hother, hch⟩
    · exact Or.inl rfl
    · exact Or.inr ⟨other, List.mem_cons_of_mem _ hother, hch⟩

theorem joinSegments_cons_cons (first second : List Char) (others : List (List Char)) :
    joinSegments (first :: second :: others) = first ++ '/' :: joinSegments (second :: others) := by
  rw [joinSegments]
  simp

/-- Text behind the last segment belongs to it. -/
theorem joinSegments_concat (parts : List (List Char)) (last more : List Char) :
    joinSegments (parts ++ [last ++ more]) = joinSegments (parts ++ [last]) ++ more := by
  induction parts with
  | nil => rfl
  | cons first rest ih =>
    cases rest with
    | nil =>
      rw [List.singleton_append, List.singleton_append, joinSegments_cons_cons, joinSegments_cons_cons]
      simp [joinSegments]
    | cons second others =>
      rw [List.cons_append, List.cons_append, List.cons_append, List.cons_append,
        joinSegments_cons_cons, joinSegments_cons_cons, ← List.cons_append, ih, List.append_assoc]
      rfl

/-- Where a segment begins that is not empty, no slash does. -/
theorem head?_joinSegments (hparts : ∀ part ∈ parts, part ≠ [] ∧ '/' ∉ part) :
    (joinSegments parts).head? ≠ some '/' := by
  have hfirst : ∀ first : List Char, first ≠ [] ∧ '/' ∉ first →
      ∀ rest : List Char, (first ++ rest).head? ≠ some '/' := by
    rintro first ⟨hne, hslash⟩ rest
    cases first with
    | nil => exact absurd rfl hne
    | cons ch others =>
      intro hhead
      obtain rfl : ch = '/' := by simpa using hhead
      exact hslash List.mem_cons_self
  fun_cases joinSegments parts with
  | case1 => simp
  | case2 part => simpa using hfirst part (hparts part (by simp)) []
  | case3 part rest => exact hfirst part (hparts part (by simp)) _

/-- Segments read as a root in front just when the first of them is a drive with others behind. -/
theorem rootLength_joinSegments (hparts : ∀ part ∈ parts, part ≠ [] ∧ '/' ∉ part) :
    rootLength (joinSegments parts) = if opensDrive parts then 3 else 0 := by
  by_cases hdrive : opensDrive parts = true
  · obtain ⟨letter, second, others, hletter, rfl⟩ := opensDrive_eq hdrive
    have hslash : letter = '/' → False := isDriveLetter_ne_slash hletter
    rw [joinSegments_cons_cons, if_pos hdrive]
    show rootLength (letter :: ':' :: '/' :: _) = 3
    rw [rootLength.eq_3 _ _ hslash, if_pos hletter]
  · rw [if_neg hdrive]
    apply rootLength_eq_zero (head?_joinSegments hparts)
    intro letter tail hletter heq
    have hne : parts ≠ [] := by
      rintro rfl
      cases heq
    have hpart : '/' ∉ [letter, ':'] := by
      simp [(isDriveLetter_ne_slash hletter).symm]
    have hread : parts = [letter, ':'] :: segments tail := by
      calc parts = segments (joinSegments parts) :=
            (segments_joinSegments (fun part hpart => (hparts part hpart).2) hne).symm
        _ = segments ([letter, ':'] ++ '/' :: tail) := by rw [heq]; rfl
        _ = [letter, ':'] :: segments tail := by
            rw [segments_append_slash, segments_of_not_mem hpart, List.singleton_append]
    obtain ⟨second, others, htail⟩ := List.exists_cons_of_ne_nil (segments_ne_nil tail)
    rw [hread, htail] at hdrive
    exact hdrive hletter

end Joining

end ActionSyntax.Path
