import ActionSyntax.Proofs.Paths.Canonical

/-!
What a path refers to, before and after it is normalized. A relative path stays relative, and is found
at the same place from every base, unless the first of several segments that are kept is a drive: such a
path becomes rooted and leaves its base.
-/

namespace ActionSyntax.Path

set_option autoImplicit false

section Folding

variable {rooted : Bool} {kept below : List (List Char)}

/-- A segment that was resolved upon others by itself leads to where it led before. -/
theorem resolveSegment_through (h : Kept false below) {part : List Char} (hslash : '/' ∉ part)
    (hbackslash : '\\' ∉ part) :
    (resolveSegment false below part).reverse.foldl (resolveSegment rooted) kept =
      resolveSegment rooted (below.reverse.foldl (resolveSegment rooted) kept) part := by
  rcases segment_cases hslash hbackslash with rfl | rfl | rfl | hname
  · rfl
  · rfl
  · cases h with
    | name isName older =>
      rw [resolveSegment_parent_name isName, List.reverse_cons, List.foldl_append, List.foldl_cons,
        List.foldl_nil, resolveSegment_name isName, resolveSegment_parent_name isName]
    | bottom ups =>
      rw [resolveSegment_parent_ups, List.reverse_replicate, List.reverse_replicate,
        List.replicate_succ', List.foldl_append, List.foldl_cons, List.foldl_nil]
  · rw [resolveSegment_name hname, List.reverse_cons, List.foldl_append, List.foldl_cons,
      List.foldl_nil]

/-- Segments that were resolved by themselves lead to where they led before. -/
theorem resolve_through (h : Kept false below) {parts : List (List Char)}
    (hparts : ∀ part ∈ parts, '/' ∉ part ∧ '\\' ∉ part) :
    (parts.foldl (resolveSegment false) below).reverse.foldl (resolveSegment rooted) kept =
      parts.foldl (resolveSegment rooted) (below.reverse.foldl (resolveSegment rooted) kept) := by
  induction parts generalizing below with
  | nil => rfl
  | cons part rest ih =>
    obtain ⟨hpart, hrest⟩ := List.forall_mem_cons.mp hparts
    rw [List.foldl_cons, List.foldl_cons, ih (h.resolveSegment hpart.1 hpart.2) hrest,
      resolveSegment_through h hpart.1 hpart.2]

end Folding

section Reading

variable {front rest path : List Char}

theorem head?_of_rootLength (h : rootLength path = 0) : path.head? ≠ some '/' := by
  intro hhead
  cases path with
  | nil => cases hhead
  | cons ch tail =>
    obtain rfl : ch = '/' := by simpa using hhead
    cases tail with
    | nil => cases h
    | cons second others =>
      by_cases hsecond : second = '/'
      · subst hsecond
        cases h
      · rw [rootLength.eq_2] at h
        · cases h
        · rintro tail heq
          exact hsecond (List.cons.inj heq).1

/-- The root is read from the first three characters. -/
theorem rootLength_append (h : 3 ≤ front.length) (rest : List Char) :
    rootLength (front ++ rest) = rootLength front := by
  obtain ⟨a, b, c, tail, rfl⟩ : ∃ a b c tail, front = a :: b :: c :: tail := by
    match front, h with
    | a :: b :: c :: tail, _ => exact ⟨a, b, c, tail, rfl⟩
  by_cases ha : a = '/'
  · subst ha
    by_cases hb : b = '/'
    · subst hb
      rfl
    · have hsecond : ∀ behind tail : List Char, b :: behind = '/' :: tail → False :=
        fun behind tail heq => hb (List.cons.inj heq).1
      exact (rootLength.eq_2 _ (hsecond _)).trans (rootLength.eq_2 _ (hsecond _)).symm
  · by_cases hdrive : b = ':' ∧ c = '/'
    · obtain ⟨rfl, rfl⟩ := hdrive
      exact (rootLength.eq_3 a _ ha).trans (rootLength.eq_3 a _ ha).symm
    · have hnone : ∀ behind : List Char, rootLength (a :: b :: c :: behind) = 0 := by
        intro behind
        apply rootLength_eq_zero (by simpa using ha)
        intro letter tail _ heq
        simp only [List.cons.injEq] at heq
        exact hdrive ⟨heq.2.1, heq.2.2.1⟩
      exact (hnone _).trans (hnone _).symm

/-- Relative text behind a separator does not change the root. -/
theorem rootLength_append_slash (hrest : rest.head? ≠ some '/') :
    rootLength (front ++ '/' :: rest) = rootLength (front ++ ['/']) := by
  cases front with
  | nil =>
    apply rootLength.eq_2
    rintro tail rfl
    exact hrest rfl
  | cons a others =>
    cases others with
    | nil =>
      by_cases ha : a = '/'
      · subst ha
        rfl
      · have hnone : ∀ behind : List Char, rootLength (a :: '/' :: behind) = 0 := by
          intro behind
          apply rootLength_eq_zero (by simpa using ha)
          intro letter tail _ heq
          simp at heq
        exact (hnone _).trans (hnone _).symm
    | cons b tail =>
      show rootLength (a :: b :: tail ++ (['/'] ++ rest)) = _
      rw [← List.append_assoc]
      exact rootLength_append (by simp) rest

/-- Segments of relative text join those of the directory in front of it. -/
theorem keptSegments_append_slash (hrest : rest.head? ≠ some '/') :
    keptSegments (front ++ '/' :: rest) =
      (segments rest).foldl (resolveSegment (0 < rootLength (front ++ ['/'])))
        (keptSegments (front ++ ['/'])) := by
  unfold keptSegments
  rw [rootLength_append_slash hrest]
  generalize hroot : rootLength (front ++ ['/']) = root
  have hle : root ≤ (front ++ ['/']).length := hroot ▸ rootLength_le _
  by_cases hinside : root ≤ front.length
  · rw [List.drop_append_of_le_length hinside, List.drop_append_of_le_length hinside,
      segments_append_slash, segments_append_slash, List.foldl_append, List.foldl_append]
    rfl
  · have hall : root = (front ++ ['/']).length := by
      rw [List.length_append] at hle ⊢
      simp only [List.length_cons, List.length_nil] at hle ⊢
      omega
    rw [← List.singleton_append, ← List.append_assoc, hall, List.drop_left, List.drop_length]
    rfl

theorem resolvedText_append_slash (hrest : rest.head? ≠ some '/') :
    resolvedText (front ++ '/' :: rest) =
      (front ++ ['/']).take (rootLength (front ++ ['/'])) ++
        joinSegments ((segments rest).foldl (resolveSegment (0 < rootLength (front ++ ['/'])))
          (keptSegments (front ++ ['/']))).reverse := by
  have hsplit : front ++ '/' :: rest = front ++ ['/'] ++ rest := List.append_cons front '/' rest
  have htake : (front ++ '/' :: rest).take (rootLength (front ++ ['/'])) =
      (front ++ ['/']).take (rootLength (front ++ ['/'])) := by
    rw [hsplit]
    exact List.take_append_of_le_length (rootLength_le _)
  unfold resolvedText
  rw [keptSegments_append_slash hrest, rootLength_append_slash hrest, htake]

end Reading

section Normalizing

variable {path : String}

/-- The segments that normalization keeps of a path, in the order in which they were written. -/
def segmentsOf (path : String) : List (List Char) := (keptSegments (slashed path.toList)).reverse

theorem isRooted_eq_false : isRooted path = false ↔ rootLength (slashed path.toList) = 0 := by
  unfold isRooted
  rw [decide_eq_false_iff_not]
  omega

theorem slashed_normalize (path : String) :
    slashed (normalize path).toList = (normalize path).toList := by
  unfold normalize
  rw [String.toList_ofList]
  exact (normalizeChars_canonical path.toList).slashed_eq

/-- What is kept of a path is visible and has no slashes, and where it opens with a drive it consists of
names. -/
theorem segmentsOf_cases (path : String) :
    ∃ ups names, segmentsOf path = List.replicate ups parent ++ names ∧
      ∀ segment ∈ names, IsName segment := by
  have hslashed : '\\' ∉ slashed path.toList := not_mem_slashed
  obtain ⟨ups, names, hreverse, -, named⟩ := (kept_keptSegments hslashed).reverse
  exact ⟨ups, names, hreverse, named⟩

theorem mem_segmentsOf {part : List Char} (h : part ∈ segmentsOf path) :
    part ≠ [] ∧ part ≠ ['.'] ∧ '/' ∉ part := by
  obtain ⟨ups, names, heq, named⟩ := segmentsOf_cases path
  rw [heq] at h
  rcases List.mem_append.mp h with h | h
  · rw [List.eq_of_mem_replicate h]
    decide
  · exact ⟨(named part h).ne_nil, (named part h).ne_dot, (named part h).slash⟩

/-- A path without a root that keeps nothing reads as a dot, and any other as its root and its
segments. -/
theorem normalize_toList (path : String) :
    (normalize path).toList =
      if rootLength (slashed path.toList) = 0 ∧ segmentsOf path = [] then ['.']
      else (slashed path.toList).take (rootLength (slashed path.toList)) ++
        joinSegments (segmentsOf path) := by
  have hnil : resolvedText (slashed path.toList) = [] ↔
      rootLength (slashed path.toList) = 0 ∧ segmentsOf path = [] := by
    have hempty := isEmpty_take_rootLength (slashed path.toList)
    constructor
    · intro hnil
      obtain ⟨hroot, hjoin⟩ := List.append_eq_nil_iff.mp hnil
      refine ⟨?_, ?_⟩
      · rw [hroot] at hempty
        simpa using hempty
      · by_cases hparts : segmentsOf path = []
        · exact hparts
        · exact absurd hjoin (joinSegments_ne_nil (fun part hpart => (mem_segmentsOf hpart).1) hparts)
    · rintro ⟨hroot, hparts⟩
      show _ ++ joinSegments (segmentsOf path) = []
      rw [hroot, hparts]
      rfl
  unfold normalize
  rw [String.toList_ofList, normalizeChars_eq]
  by_cases h : resolvedText (slashed path.toList) = []
  · rw [if_pos h, if_pos (hnil.mp h)]
  · rw [if_neg h, if_neg (fun hboth => h (hnil.mpr hboth))]
    rfl

/-- A path is rooted after normalization just when it was rooted, or when the first of several segments
is a drive. -/
theorem isRooted_normalize (path : String) :
    isRooted (normalize path) = (isRooted path || opensDrive (segmentsOf path)) := by
  have hparts : ∀ part ∈ segmentsOf path, part ≠ [] ∧ '/' ∉ part :=
    fun part hpart => ⟨(mem_segmentsOf hpart).1, (mem_segmentsOf hpart).2.2⟩
  unfold isRooted
  rw [slashed_normalize, normalize_toList]
  split
  · next h =>
    rw [h.1, h.2]
    rfl
  · by_cases hroot : rootLength (slashed path.toList) = 0
    · rw [hroot, List.take_zero, List.nil_append, rootLength_joinSegments hparts]
      cases opensDrive (segmentsOf path) <;> rfl
    · have hlength := List.length_take_of_le (rootLength_le (slashed path.toList))
      have hne : (slashed path.toList).take (rootLength (slashed path.toList)) ≠ [] := by
        intro hnil
        rw [hnil] at hlength
        exact hroot hlength.symm
      rw [rootLength_root (isRoot_take _) hne (head?_joinSegments hparts), hlength]
      have hpos : 0 < rootLength (slashed path.toList) := Nat.pos_of_ne_zero hroot
      simp [hpos]

/-- The segments of a relative path lead from any place to where those that are kept of it lead. -/
theorem resolve_segmentsOf (hrelative : isRooted path = false) {rooted : Bool}
    {kept : List (List Char)} :
    (segmentsOf path).foldl (resolveSegment rooted) kept =
      (segments (slashed path.toList)).foldl (resolveSegment rooted) kept := by
  have hsegments : segmentsOf path =
      ((segments (slashed path.toList)).foldl (resolveSegment false) []).reverse := by
    unfold segmentsOf keptSegments
    rw [isRooted_eq_false.mp hrelative]
    rfl
  have hwritten : ∀ part ∈ segments (slashed path.toList), '/' ∉ part ∧ '\\' ∉ part := by
    intro part hpart
    obtain ⟨hslash, hsub⟩ := mem_segments hpart
    exact ⟨hslash, fun hmem => not_mem_slashed (hsub _ hmem)⟩
  rw [hsegments]
  exact resolve_through (.bottom 0 (by simp)) hwritten

theorem resolve_segments_normalize (hrelative : isRooted path = false) {rooted : Bool}
    {kept : List (List Char)} :
    (segments (normalize path).toList).foldl (resolveSegment rooted) kept =
      (segments (slashed path.toList)).foldl (resolveSegment rooted) kept := by
  rw [← resolve_segmentsOf hrelative]
  rw [normalize_toList]
  split
  · next h =>
    rw [h.2]
    rfl
  · rw [isRooted_eq_false.mp hrelative, List.take_zero, List.nil_append]
    exact resolve_segments_joinSegments fun part hpart => (mem_segmentsOf hpart).2.2

end Normalizing

section Combining

variable {base path : String} {front : List Char}

/-- A directory and the separator behind it. -/
theorem slashed_withTrailingSeparator (base : String) :
    ∃ front, slashed (withTrailingSeparator base).toList = front ++ ['/'] := by
  unfold withTrailingSeparator
  split
  · next hends =>
    unfold endsWithSeparator at hends
    split at hends
    · next ch hlast =>
      obtain ⟨init, hinit⟩ := List.getLast?_eq_some_iff.mp hlast
      refine ⟨slashed init, ?_⟩
      rw [hinit, slashed_append]
      congr 1
      rcases Bool.or_eq_true_iff.mp hends with h | h <;> rw [beq_iff_eq.mp h] <;> rfl
    · cases hends
  · exact ⟨slashed base.toList, by rw [String.toList_append, slashed_append]; rfl⟩

theorem combine_relative (hbase : base ≠ "") (hrelative : isRooted path = false) :
    combine base path = withTrailingSeparator base ++ path := by
  have hempty : base.isEmpty = false := by simpa using hbase
  unfold combine
  rw [hrelative, hempty]
  rfl

/-- What a relative path means behind a base. -/
theorem normalize_combine (hbase : base ≠ "") (hrelative : isRooted path = false)
    (hfront : slashed (withTrailingSeparator base).toList = front ++ ['/']) :
    normalize (combine base path) =
      String.ofList (
        let text := (front ++ ['/']).take (rootLength (front ++ ['/'])) ++
          joinSegments ((segments (slashed path.toList)).foldl
            (resolveSegment (0 < rootLength (front ++ ['/']))) (keptSegments (front ++ ['/']))).reverse
        if text = [] then ['.'] else text) := by
  have hhead := head?_of_rootLength (isRooted_eq_false.mp hrelative)
  unfold normalize
  rw [normalizeChars_eq, combine_relative hbase hrelative, String.toList_append, slashed_append, hfront,
    List.append_assoc, List.singleton_append, resolvedText_append_slash hhead]

/-- A path that stays relative means the same behind every base. -/
theorem normalize_combine_normalize (hrelative : isRooted path = false)
    (hstays : isRooted (normalize path) = false) :
    normalize (combine base (normalize path)) = normalize (combine base path) := by
  by_cases hbase : base = ""
  · subst hbase
    have hcombine : ∀ path, combine "" path = path := by
      intro path
      simp [combine]
    rw [hcombine, hcombine, normalize_normalize]
  · obtain ⟨front, hfront⟩ := slashed_withTrailingSeparator base
    rw [normalize_combine hbase hrelative hfront, normalize_combine hbase hstays hfront,
      slashed_normalize, resolve_segments_normalize hrelative]

theorem combine_rooted (hrooted : isRooted path = true) : combine base path = path := by
  simp [combine, hrooted]

end Combining

section Leaving

variable {base path : String} {front : List Char}

theorem isRoot_ne_dot {root : List Char} (h : isRoot root = true) : root ≠ ['.'] := by
  rintro rfl
  exact absurd h (by decide)

/-- A path reads as a dot just when it has no root and keeps nothing. -/
theorem normalize_eq_dot_iff :
    normalize path = "." ↔ rootLength (slashed path.toList) = 0 ∧ segmentsOf path = [] := by
  rw [← String.toList_inj, normalize_toList]
  split
  · next h => exact iff_of_true rfl h
  · next h =>
    refine iff_of_false ?_ h
    intro hdot
    have hslash : ∀ part ∈ segmentsOf path, '/' ∉ part := fun part hpart => (mem_segmentsOf hpart).2.2
    rcases List.append_eq_singleton_iff.mp hdot with ⟨htake, hjoin⟩ | ⟨htake, -⟩
    · have hnil : segmentsOf path ≠ [] := by
        intro hnil
        rw [hnil] at hjoin
        cases hjoin
      have hread := segments_joinSegments hslash hnil
      rw [hjoin] at hread
      have hmem : ['.'] ∈ segmentsOf path := by
        rw [← hread]
        exact List.mem_singleton_self _
      exact (mem_segmentsOf hmem).2.1 rfl
    · exact isRoot_ne_dot (isRoot_take (slashed path.toList)) htake

/-- With a separator behind, a directory reads as a root where it did before, and where it is a drive. -/
theorem rootLength_slash_eq_zero_iff (hne : front ≠ []) :
    rootLength (front ++ ['/']) = 0 ↔
      rootLength front = 0 ∧ ∀ letter, isDriveLetter letter = true → front ≠ [letter, ':'] := by
  have hfirst : (front ++ ['/']).head? = front.head? := by
    obtain ⟨ch, rest, rfl⟩ := List.exists_cons_of_ne_nil hne
    rfl
  constructor
  · intro h
    have hhead : front.head? ≠ some '/' := by
      rw [← hfirst]
      exact head?_of_rootLength h
    refine ⟨rootLength_eq_zero hhead ?_, ?_⟩
    · rintro letter tail hletter rfl
      have hslash : letter = '/' → False := isDriveLetter_ne_slash hletter
      rw [List.cons_append, List.cons_append, List.cons_append, rootLength.eq_3 _ _ hslash,
        if_pos hletter] at h
      cases h
    · rintro letter hletter rfl
      have hslash : letter = '/' → False := isDriveLetter_ne_slash hletter
      rw [List.cons_append, List.cons_append, List.nil_append, rootLength.eq_3 _ _ hslash,
        if_pos hletter] at h
      cases h
  · rintro ⟨h, hdrive⟩
    have hhead : (front ++ ['/']).head? ≠ some '/' := by
      rw [hfirst]
      exact head?_of_rootLength h
    apply rootLength_eq_zero hhead
    intro letter tail hletter heq
    have hslash : letter = '/' → False := isDriveLetter_ne_slash hletter
    rcases front with _ | ⟨first, _ | ⟨second, _ | ⟨third, rest⟩⟩⟩
    · exact hne rfl
    · simp at heq
    · simp only [List.cons_append, List.cons.injEq] at heq
      exact hdrive letter hletter (by rw [heq.1, heq.2.1])
    · simp only [List.cons_append, List.cons.injEq] at heq
      rw [heq.1, heq.2.1, heq.2.2.1, rootLength.eq_3 _ _ hslash, if_pos hletter] at h
      cases h

theorem isName_drive {letter : Char} (h : isDriveLetter letter = true) : IsName [letter, ':'] := by
  have hslash := isDriveLetter_ne_slash h
  have hbackslash : letter ≠ '\\' := by
    rintro rfl
    exact absurd h (by decide)
  exact ⟨by simp, by simp, by simp [parent], by simp [hslash.symm], by simp [hbackslash.symm]⟩

/-- A separator at the end does not change whether a path keeps nothing. -/
theorem normalize_withTrailingSeparator_iff (hbase : base ≠ "") :
    normalize (withTrailingSeparator base) = "." ↔ normalize base = "." := by
  unfold withTrailingSeparator
  split
  · rfl
  have hne : slashed base.toList ≠ [] := by
    intro hnil
    exact hbase (String.toList_eq_nil_iff.mp (List.map_eq_nil_iff.mp hnil))
  have hkept : rootLength (slashed base.toList) = 0 → rootLength (slashed base.toList ++ ['/']) = 0 →
      keptSegments (slashed base.toList ++ ['/']) = keptSegments (slashed base.toList) := by
    intro h hslash
    unfold keptSegments
    rw [h, hslash, List.drop_zero, List.drop_zero, segments_append_slash, List.foldl_append]
    rfl
  rw [normalize_eq_dot_iff, normalize_eq_dot_iff]
  unfold segmentsOf
  rw [String.toList_append, slashed_append]
  show rootLength (slashed base.toList ++ ['/']) = 0 ∧ _ ↔ _
  constructor
  · rintro ⟨hroot, hsegments⟩
    have hroots := (rootLength_slash_eq_zero_iff hne).mp hroot
    refine ⟨hroots.1, ?_⟩
    rw [← hkept hroots.1 hroot]
    exact hsegments
  · rintro ⟨hroot, hsegments⟩
    have hslash : rootLength (slashed base.toList ++ ['/']) = 0 := by
      refine (rootLength_slash_eq_zero_iff hne).mpr ⟨hroot, ?_⟩
      intro letter hletter heq
      have hname := isName_drive hletter
      rw [heq] at hroot hsegments
      unfold keptSegments at hsegments
      rw [hroot, List.drop_zero, segments_of_not_mem hname.slash, List.foldl_cons, List.foldl_nil,
        resolveSegment_name hname] at hsegments
      cases hsegments
    refine ⟨hslash, ?_⟩
    show (keptSegments (slashed base.toList ++ ['/'])).reverse = []
    rw [hkept hroot hslash]
    exact hsegments

/-- Segments stand behind all that is kept before them. -/
theorem joinSegments_append {parts others : List (List Char)} (hne : others ≠ []) :
    joinSegments (parts ++ others) = parts.flatMap (· ++ ['/']) ++ joinSegments others := by
  induction parts with
  | nil => rfl
  | cons first rest ih =>
    obtain ⟨second, more, hcons⟩ := List.exists_cons_of_ne_nil (List.append_ne_nil_of_right_ne_nil rest hne)
    rw [List.cons_append, hcons, joinSegments_cons_cons, ← hcons, ih, List.flatMap_cons]
    simp

/-- A relative path that opens with a drive leaves its base, so that it means the same just behind a base
that leads nowhere. -/
theorem normalize_combine_leaving (hrelative : isRooted path = false)
    (hdrive : opensDrive (segmentsOf path) = true) :
    normalize path = normalize (combine base path) ↔ normalize base = "." := by
  by_cases hbase : base = ""
  · subst hbase
    exact iff_of_true (by simp [combine]) (by decide +kernel)
  obtain ⟨front, hfront⟩ := slashed_withTrailingSeparator base
  obtain ⟨ups, names, hnames, named⟩ := segmentsOf_cases path
  rw [hnames] at hdrive
  obtain rfl := ups_of_opensDrive hdrive
  have hnil : segmentsOf path ≠ [] := by
    intro hnil
    rw [← hnames, hnil] at hdrive
    cases hdrive
  rw [List.replicate_zero, List.nil_append] at hnames
  have hfold : ((segments (slashed path.toList)).foldl
      (resolveSegment (0 < rootLength (front ++ ['/']))) (keptSegments (front ++ ['/']))).reverse =
      (keptSegments (front ++ ['/'])).reverse ++ segmentsOf path := by
    rw [← resolve_segmentsOf hrelative, hnames, resolve_names named, List.reverse_append,
      List.reverse_reverse]
  have hpath : (normalize path).toList = joinSegments (segmentsOf path) := by
    rw [normalize_toList, if_neg (fun h => hnil h.2), isRooted_eq_false.mp hrelative]
    rfl
  have hcombined : (normalize (combine base path)).toList =
      (front ++ ['/']).take (rootLength (front ++ ['/'])) ++
        ((keptSegments (front ++ ['/'])).reverse.flatMap (· ++ ['/']) ++ joinSegments (segmentsOf path)) := by
    rw [normalize_combine hbase hrelative hfront, String.toList_ofList, hfold,
      joinSegments_append hnil, if_neg]
    intro heq
    obtain ⟨-, hbehind⟩ := List.append_eq_nil_iff.mp heq
    obtain ⟨-, hjoin⟩ := List.append_eq_nil_iff.mp hbehind
    exact joinSegments_ne_nil (fun part hpart => (mem_segmentsOf hpart).1) hnil hjoin
  have hroot : (front ++ ['/']).take (rootLength (front ++ ['/'])) = [] ↔
      rootLength (front ++ ['/']) = 0 := by
    simp [List.take_eq_nil_iff]
  have hbehind : (keptSegments (front ++ ['/'])).reverse.flatMap (· ++ ['/']) = [] ↔
      (keptSegments (front ++ ['/'])).reverse = [] := by
    constructor
    · intro h
      apply List.eq_nil_iff_forall_not_mem.mpr
      intro part hpart
      have := List.flatMap_eq_nil_iff.mp h part hpart
      simp at this
    · intro h
      rw [h]
      rfl
  have htrailing : normalize (withTrailingSeparator base) = "." ↔
      rootLength (front ++ ['/']) = 0 ∧ (keptSegments (front ++ ['/'])).reverse = [] := by
    rw [normalize_eq_dot_iff]
    unfold segmentsOf
    rw [hfront]
  rw [← normalize_withTrailingSeparator_iff hbase, htrailing, ← String.toList_inj, hpath, hcombined,
    ← List.append_assoc, List.self_eq_append_left, List.append_eq_nil_iff, hroot, hbehind]

end Leaving

/-- A path is rooted after normalization just when it was rooted, or when the first of several segments
that are kept is a drive. It means the same from every base before and after it is normalized, but for a
relative path that opens with a drive, which means the same just from a base that leads nowhere. -/
theorem normalize_meaning (path : String) :
    isRooted (normalize path) = (isRooted path || opensDrive (segmentsOf path)) ∧
    ∀ base : String, normalize (combine base (normalize path)) = normalize (combine base path) ↔
      (isRooted path = false → opensDrive (segmentsOf path) = true → normalize base = ".") := by
  refine ⟨isRooted_normalize path, fun base => ?_⟩
  have hnormal := isRooted_normalize path
  cases hrooted : isRooted path with
  | true =>
    rw [hrooted, Bool.true_or] at hnormal
    refine iff_of_true ?_ (by simp)
    rw [combine_rooted hnormal, combine_rooted hrooted, normalize_normalize]
  | false =>
    rw [hrooted, Bool.false_or] at hnormal
    cases hdrive : opensDrive (segmentsOf path) with
    | false =>
      rw [hdrive] at hnormal
      exact iff_of_true (normalize_combine_normalize hrooted hnormal) (by simp)
    | true =>
      rw [hdrive] at hnormal
      rw [combine_rooted hnormal, normalize_normalize, normalize_combine_leaving hrooted hdrive]
      simp

/-- A relative path with a drive behind a dot becomes rooted, and is no longer found behind its base; the
file that it includes is not one of the including file's directory. -/
theorem normalize_leaves_base :
    isRooted "./C:/x" = false ∧ isRooted (normalize "./C:/x") = true ∧
      normalize (combine "/src" (normalize "./C:/x")) ≠ normalize (combine "/src" "./C:/x") ∧
      isRooted (resolveInclude "main.es" "./C:/x") = true := by
  decide +kernel

end ActionSyntax.Path
