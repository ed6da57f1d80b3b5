import ActionSyntax.Problem

/-!
Templates of messages, split into parts. Every template has exactly one split into text without dollar
signs, doubled dollar signs, dollar signs that stand alone, and names as long as they go; substitution
puts what each part stands for in its place, from the left to the right, and looks at nothing twice.
-/

namespace ActionSyntax

set_option autoImplicit false

namespace Template

/-- A part of a template, a name without the dollar sign in front of it. -/
inductive Part where
  | text (chars : List Char)
  | doubled
  | single
  | named (name : List Char)

/-- What a part stands for. -/
def Part.render (lookup : String → String) : Part → List Char
  | .text chars => chars
  | .doubled | .single => ['$']
  | .named name => (lookup (String.ofList name)).toList

/-- A split of a template. Text goes on to the next dollar sign, a dollar sign stands alone if neither
another one nor a name follows, and a name ends where no character of a name follows. -/
inductive Splits : List Part → List Char → Prop
  | nil : Splits [] []
  | text {chars rest : List Char} {parts : List Part} (visible : chars ≠ []) (plain : '$' ∉ chars)
      (ends : ∀ ch ∈ rest.head?, ch = '$') (behind : Splits parts rest) :
      Splits (.text chars :: parts) (chars ++ rest)
  | doubled {rest : List Char} {parts : List Part} (behind : Splits parts rest) :
      Splits (.doubled :: parts) ('$' :: '$' :: rest)
  | single {rest : List Char} {parts : List Part}
      (alone : ∀ ch ∈ rest.head?, ch ≠ '$' ∧ isNameChar ch = false) (behind : Splits parts rest) :
      Splits (.single :: parts) ('$' :: rest)
  | named {name rest : List Char} {parts : List Part} (visible : name ≠ [])
      (spelled : ∀ ch ∈ name, isNameChar ch = true) (ends : ∀ ch ∈ rest.head?, isNameChar ch = false)
      (behind : Splits parts rest) : Splits (.named name :: parts) ('$' :: (name ++ rest))

theorem isNameChar_dollar : isNameChar '$' = false := by decide

section Splitting

variable {condition : Char → Bool} {template : List Char} {parts : List Part}

/-- Characters can be cut where a condition first fails. -/
theorem exists_cut (condition : Char → Bool) (chars : List Char) :
    ∃ front rest, chars = front ++ rest ∧ (∀ ch ∈ front, condition ch = true) ∧
      ∀ ch ∈ rest.head?, condition ch = false := by
  induction chars with
  | nil => exact ⟨[], [], rfl, by simp, by simp⟩
  | cons ch others ih =>
    by_cases hch : condition ch = true
    · obtain ⟨front, rest, rfl, hfront, hrest⟩ := ih
      exact ⟨ch :: front, rest, rfl, List.forall_mem_cons.mpr ⟨hch, hfront⟩, hrest⟩
    · refine ⟨[], ch :: others, rfl, by simp, ?_⟩
      intro other hother
      obtain rfl : ch = other := by simpa using hother
      exact Bool.eq_false_iff.mpr hch

/-- There is only one place to cut. -/
theorem cut_unique {front other rest tail : List Char} (heq : front ++ rest = other ++ tail)
    (hfront : ∀ ch ∈ front, condition ch = true) (hrest : ∀ ch ∈ rest.head?, condition ch = false)
    (hother : ∀ ch ∈ other, condition ch = true) (htail : ∀ ch ∈ tail.head?, condition ch = false) :
    front = other ∧ rest = tail := by
  induction front generalizing other with
  | nil =>
    cases other with
    | nil => exact ⟨rfl, heq⟩
    | cons ch others =>
      rw [List.nil_append] at heq
      have hfails := hrest ch (by rw [heq]; rfl)
      rw [hother ch List.mem_cons_self] at hfails
      cases hfails
  | cons ch front ih =>
    cases other with
    | nil =>
      rw [List.nil_append] at heq
      have hfails := htail ch (by rw [← heq]; rfl)
      rw [hfront ch List.mem_cons_self] at hfails
      cases hfails
    | cons second others =>
      obtain ⟨rfl, hbehind⟩ := List.cons.inj heq
      obtain ⟨rfl, rfl⟩ := ih hbehind (fun c hc => hfront c (List.mem_cons_of_mem _ hc))
        (fun c hc => hother c (List.mem_cons_of_mem _ hc))
      exact ⟨rfl, rfl⟩

/-- A template that begins with a dollar sign splits if everything shorter does. -/
theorem exists_splits_dollar {rest : List Char}
    (shorter : ∀ behind : List Char, behind.length ≤ rest.length → ∃ parts, Splits parts behind) :
    ∃ parts, Splits parts ('$' :: rest) := by
  obtain ⟨name, behind, rfl, spelled, ends⟩ := exists_cut isNameChar rest
  by_cases hname : name = []
  · subst hname
    by_cases hdollar : behind.head? = some '$'
    · obtain ⟨tail, rfl⟩ := List.head?_eq_some_iff.mp hdollar
      obtain ⟨parts, hparts⟩ := shorter tail (by simp)
      exact ⟨_, .doubled hparts⟩
    · obtain ⟨parts, hparts⟩ := shorter behind (by simp)
      refine ⟨_, .single ?_ hparts⟩
      intro ch hch
      refine ⟨?_, ends ch hch⟩
      rintro rfl
      exact hdollar hch
  · obtain ⟨parts, hparts⟩ := shorter behind (by simp)
    exact ⟨_, .named hname spelled ends hparts⟩

theorem exists_splits (template : List Char) : ∃ parts, Splits parts template := by
  induction hlength : template.length using Nat.strongRecOn generalizing template with
  | ind length ih =>
    subst hlength
    cases template with
    | nil => exact ⟨[], .nil⟩
    | cons first others =>
      by_cases hfirst : first = '$'
      · subst hfirst
        apply exists_splits_dollar
        intro behind hle
        exact ih behind.length (Nat.lt_succ_of_le hle) behind rfl
      · obtain ⟨chars, rest, heq, plain, ends⟩ := exists_cut (· != '$') (first :: others)
        have hvisible : chars ≠ [] := by
          rintro rfl
          rw [List.nil_append] at heq
          exact hfirst (by simpa [← heq] using ends)
        have hshorter : rest.length < (first :: others).length := by
          rw [heq, List.length_append]
          have := List.length_pos_iff.mpr hvisible
          omega
        obtain ⟨parts, hparts⟩ := ih rest.length hshorter rest rfl
        rw [heq]
        refine ⟨_, .text hvisible ?_ ?_ hparts⟩
        · intro hmem
          simpa using plain '$' hmem
        · intro ch hch
          simpa using ends ch hch

theorem append_ne_dollar {chars rest tail : List Char} (visible : chars ≠ []) (plain : '$' ∉ chars) :
    chars ++ rest ≠ '$' :: tail := by
  intro heq
  cases chars with
  | nil => exact visible rfl
  | cons ch others => exact plain (by rw [(List.cons.inj heq).1]; exact List.mem_cons_self)

theorem append_head_isNameChar {name rest tail : List Char} {ch : Char} (visible : name ≠ [])
    (spelled : ∀ ch ∈ name, isNameChar ch = true) (heq : name ++ rest = ch :: tail) :
    isNameChar ch = true := by
  cases name with
  | nil => exact absurd rfl visible
  | cons first others =>
    rw [← (List.cons.inj heq).1]
    exact spelled first List.mem_cons_self

theorem text_unique {chars other rest tail : List Char} (heq : chars ++ rest = other ++ tail)
    (plain : '$' ∉ chars) (ends : ∀ ch ∈ rest.head?, ch = '$') (plain' : '$' ∉ other)
    (ends' : ∀ ch ∈ tail.head?, ch = '$') : chars = other ∧ rest = tail := by
  apply @cut_unique (· != '$') _ _ _ _ heq
  · exact fun ch hch => bne_iff_ne.mpr fun hdollar => plain (hdollar ▸ hch)
  · exact fun ch hch => bne_eq_false_iff_eq.mpr (ends ch hch)
  · exact fun ch hch => bne_iff_ne.mpr fun hdollar => plain' (hdollar ▸ hch)
  · exact fun ch hch => bne_eq_false_iff_eq.mpr (ends' ch hch)

/-- Neither a dollar sign nor a name follows a dollar sign that stands alone. -/
theorem not_alone_of_head {rest : List Char} {ch : Char}
    (alone : ∀ other ∈ rest.head?, other ≠ '$' ∧ isNameChar other = false) (hhead : rest.head? = some ch)
    (h : ch = '$' ∨ isNameChar ch = true) : False := by
  obtain ⟨hdollar, hname⟩ := alone ch hhead
  rcases h with h | h
  · exact hdollar h
  · rw [hname] at h
    cases h

theorem Splits.unique (h : Splits parts template) {others : List Part} (h' : Splits others template) :
    others = parts := by
  induction h generalizing others with
  | nil =>
    generalize hnil : ([] : List Char) = template at h'
    cases h' with
    | nil => rfl
    | text visible => exact absurd (List.append_eq_nil_iff.mp hnil.symm).1 visible
    | doubled | single | named => cases hnil
  | @text chars rest _ visible plain ends _ ih =>
    generalize htext : chars ++ rest = template at h'
    cases h' with
    | nil => exact absurd (List.append_eq_nil_iff.mp htext).1 visible
    | text _ plain' ends' behind' =>
      obtain ⟨rfl, rfl⟩ := text_unique htext plain ends plain' ends'
      rw [ih behind']
    | doubled | single | named => exact absurd htext (append_ne_dollar visible plain)
  | doubled behind ih =>
    generalize htext : '$' :: '$' :: _ = template at h'
    cases h' with
    | nil => cases htext
    | text visible plain => exact absurd htext.symm (append_ne_dollar visible plain)
    | doubled behind' =>
      cases htext
      rw [ih behind']
    | single alone =>
      cases htext
      exact (not_alone_of_head alone rfl (Or.inl rfl)).elim
    | named visible spelled =>
      have hdollar := append_head_isNameChar visible spelled (List.cons.inj htext).2.symm
      cases hdollar
  | single alone behind ih =>
    generalize htext : '$' :: _ = template at h'
    cases h' with
    | nil => cases htext
    | text visible plain => exact absurd htext.symm (append_ne_dollar visible plain)
    | doubled =>
      cases htext
      exact (not_alone_of_head alone rfl (Or.inl rfl)).elim
    | single _ behind' =>
      cases htext
      rw [ih behind']
    | @named name rest _ visible spelled =>
      cases htext
      obtain ⟨ch, tail, hcons⟩ := List.exists_cons_of_ne_nil (List.append_ne_nil_of_left_ne_nil visible rest)
      have hname := append_head_isNameChar visible spelled hcons
      exact (not_alone_of_head alone (by rw [hcons]; rfl) (Or.inr hname)).elim
  | @named name rest _ visible spelled ends behind ih =>
    generalize htext : '$' :: _ = template at h'
    cases h' with
    | nil => cases htext
    | text visible plain => exact absurd htext.symm (append_ne_dollar visible plain)
    | doubled =>
      have hdollar := append_head_isNameChar visible spelled (List.cons.inj htext).2
      cases hdollar
    | single alone =>
      cases htext
      obtain ⟨ch, tail, hcons⟩ := List.exists_cons_of_ne_nil (List.append_ne_nil_of_left_ne_nil visible rest)
      have hname := append_head_isNameChar visible spelled hcons
      exact (not_alone_of_head alone (by rw [hcons]; rfl) (Or.inr hname)).elim
    | named _ spelled' ends' behind' =>
      obtain ⟨rfl, rfl⟩ := cut_unique (List.cons.inj htext).2 spelled ends spelled' ends'
      rw [ih behind']

end Splitting

section Substituting

variable {lookup : String → String} {template : List Char} {parts : List Part}

theorem pieces_text {chars rest : List Char} (plain : '$' ∉ chars) :
    pieces .plain (chars ++ rest) = chars.map .literal ++ pieces .plain rest := by
  induction chars with
  | nil => rfl
  | cons ch others ih =>
    have hch : (ch == '$') = false := beq_false_of_ne fun heq => plain (by rw [heq]; exact List.mem_cons_self)
    have hothers : '$' ∉ others := fun hmem => plain (List.mem_cons_of_mem _ hmem)
    rw [List.cons_append, pieces, hch, if_neg (by simp), ih hothers]
    rfl

theorem pieces_single {rest : List Char} (alone : ∀ ch ∈ rest.head?, ch ≠ '$' ∧ isNameChar ch = false) :
    pieces .plain ('$' :: rest) = .literal '$' :: pieces .plain rest := by
  rw [pieces, if_pos (by simp)]
  cases rest with
  | nil => rfl
  | cons ch others =>
    obtain ⟨hdollar, hname⟩ := alone ch rfl
    simp [pieces, hdollar, hname]

/-- A name is read to its end; what has been read of it stands newest first. -/
theorem pieces_name {read name rest : List Char} (spelled : ∀ ch ∈ name, isNameChar ch = true)
    (ends : ∀ ch ∈ rest.head?, isNameChar ch = false) :
    pieces (.name read) (name ++ rest) = .placeholder (read.reverse ++ name) :: pieces .plain rest := by
  induction name generalizing read with
  | nil =>
    rw [List.nil_append, List.append_nil]
    cases rest with
    | nil => rfl
    | cons ch others =>
      have hname := ends ch rfl
      by_cases hdollar : ch = '$' <;> simp [pieces, hdollar, hname, isNameChar_dollar]
  | cons ch others ih =>
    obtain ⟨hch, hothers⟩ := List.forall_mem_cons.mp spelled
    rw [List.cons_append, pieces, if_pos hch, ih hothers, List.reverse_cons, List.append_assoc]
    rfl

theorem pieces_named {name rest : List Char} (visible : name ≠ [])
    (spelled : ∀ ch ∈ name, isNameChar ch = true) (ends : ∀ ch ∈ rest.head?, isNameChar ch = false) :
    pieces .plain ('$' :: (name ++ rest)) = .placeholder name :: pieces .plain rest := by
  obtain ⟨ch, others, rfl⟩ := List.exists_cons_of_ne_nil visible
  obtain ⟨hch, hothers⟩ := List.forall_mem_cons.mp spelled
  have hdollar : (ch == '$') = false := by
    apply beq_false_of_ne
    rintro rfl
    cases hch
  rw [pieces, if_pos (by simp), List.cons_append, pieces, hdollar, if_neg (by simp), if_pos hch,
    pieces_name hothers ends]
  rfl

/-- Substitution puts what each part stands for in its place. -/
theorem Splits.substituted (h : Splits parts template) :
    (pieces .plain template).flatMap (Piece.render lookup) = parts.flatMap (Part.render lookup) := by
  induction h with
  | nil => rfl
  | @text chars rest parts _ plain _ _ ih =>
    have hchars : (chars.map Piece.literal).flatMap (Piece.render lookup) = chars := by
      rw [List.flatMap_map]
      exact List.flatMap_singleton' chars
    rw [pieces_text plain, List.flatMap_append, hchars, ih]
    rfl
  | @doubled rest _ _ ih =>
    have hpieces : pieces .plain ('$' :: '$' :: rest) = .literal '$' :: pieces .plain rest := rfl
    rw [hpieces, List.flatMap_cons, ih]
    rfl
  | single alone _ ih =>
    rw [pieces_single alone, List.flatMap_cons, ih]
    rfl
  | named visible spelled ends _ ih =>
    rw [pieces_named visible spelled ends, List.flatMap_cons, ih]
    rfl

/-- Text with every dollar sign written twice. -/
def doubleDollars (text : String) : String :=
  String.ofList (text.toList.flatMap fun ch => if ch = '$' then ['$', '$'] else [ch])

theorem pieces_doubleDollars (chars : List Char) :
    pieces .plain (chars.flatMap fun ch => if ch = '$' then ['$', '$'] else [ch]) =
      chars.map .literal := by
  induction chars with
  | nil => rfl
  | cons ch others ih =>
    by_cases hch : ch = '$' <;> simp [pieces, hch, ih]

theorem substitute_doubleDollars (lookup : String → String) (text : String) :
    substitute lookup (doubleDollars text) = text := by
  unfold substitute doubleDollars
  rw [String.toList_ofList, pieces_doubleDollars, List.flatMap_map]
  exact (congrArg String.ofList (List.flatMap_singleton' text.toList)).trans String.ofList_toList

end Substituting

end Template

namespace Problem

/-- What a problem has for a name: the first argument of that name, as it reads in a message. -/
def valueOf (p : Problem) (name : String) : String :=
  match p.arguments.find? fun (given, _) => given == name with
  | some (_, argument) => argument.render
  | none => "undefined"

theorem argument?_eq (p : Problem) (name : String) :
    p.argument? name = (p.arguments.find? fun (given, _) => given == name).map (·.2) := by
  unfold argument?
  induction p.arguments with
  | nil => rfl
  | cons first others ih =>
    obtain ⟨given, argument⟩ := first
    rw [List.lookup_cons, List.find?_cons]
    by_cases hname : name = given
    · simp [hname]
    · have hgiven : given ≠ name := Ne.symm hname
      simpa [beq_false_of_ne hname, beq_false_of_ne hgiven] using ih

theorem messageBy_eq (p : Problem) (template : String) :
    p.messageBy template = Capitals.capitalize (Template.substitute p.valueOf template) := by
  have hvalue : (fun name => ((p.argument? name).map Argument.render).getD "undefined") = p.valueOf := by
    funext name
    rw [argument?_eq]
    unfold valueOf
    cases p.arguments.find? fun (given, _) => given == name <;> rfl
  unfold messageBy
  rw [hvalue]

open Template

/-- A message is made from its template by one pass over the only split there is: each part gives its
text, a dollar sign, or the value that the problem has for its name. Text with doubled dollar signs comes
back as it was, whatever the values. -/
theorem messageBy_splits (p : Problem) (template : String) :
    (∃ parts, Splits parts template.toList ∧ (∀ others, Splits others template.toList → others = parts) ∧
      substitute p.valueOf template = String.ofList (parts.flatMap (Part.render p.valueOf)) ∧
      p.messageBy template = Capitals.capitalize (substitute p.valueOf template)) ∧
    ∀ (lookup : String → String) (text : String), substitute lookup (doubleDollars text) = text := by
  obtain ⟨parts, hparts⟩ := exists_splits template.toList
  refine ⟨⟨parts, hparts, fun others hothers => hparts.unique hothers, ?_, messageBy_eq p template⟩,
    substitute_doubleDollars⟩
  unfold substitute
  rw [hparts.substituted]

example : substitute (fun _ => "$b") "$$$a-$$ $" = "$$b$ $" := by decide +kernel

end Problem

end ActionSyntax
