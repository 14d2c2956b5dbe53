import Mathlib.Data.List.Infix
import Mathlib.Data.List.TakeWhile
import Mathlib.Tactic.Common
import ReportRelay.Settings.Placeholder

/-!
# Replacing placeholders

The dollar sign of a placeholder is its only one. So two placeholders never overlap, and a text can be gone through by
its placeholders, of all names or of some, and the characters between them.
-/

namespace ReportRelay.Placeholder

variable {name other old new u v t text : List Char} {c : Char} {skip : Nat}

/-! ## Names -/

/-- The name of a variable. -/
def IsName (name : List Char) : Prop :=
  ∃ first tail, name = first :: tail ∧ isNameStart first = true ∧ ∀ c ∈ tail, isNameChar c = true

/-- A placeholder behind its dollar sign. -/
def body (name : List Char) : List Char :=
  '\x7b' :: (name ++ ['\x7d'])

theorem written_eq (name : List Char) : written name = '$' :: body name := rfl

theorem length_written (name : List Char) : (written name).length = name.length + 3 := by
  simp [written]

theorem IsName.isNameChar_of_mem (h : IsName name) (hc : c ∈ name) : isNameChar c = true := by
  obtain ⟨first, tail, rfl, hfirst, htail⟩ := h
  rcases List.mem_cons.1 hc with rfl | hc
  · rw [isNameChar, hfirst, Bool.true_or]
  · exact htail c hc

theorem IsName.dollar_not_mem (h : IsName name) : '$' ∉ body name := by
  intro hmem
  rcases List.mem_cons.1 hmem with hbrace | hmem
  · exact absurd hbrace (by decide)
  rcases List.mem_append.1 hmem with hmem | hbrace
  · exact absurd (h.isNameChar_of_mem hmem) (by decide)
  · exact absurd (List.mem_singleton.1 hbrace) (by decide)

theorem IsName.count_dollar (h : IsName name) : (written name).count '$' = 1 := by
  rw [written_eq, List.count_cons_self, List.count_eq_zero.2 h.dollar_not_mem]

/-- A name is found at the front of exactly the texts that begin with its placeholder. -/
theorem atFront?_eq_some_iff : atFront? text = some name ↔ IsName name ∧ written name <+: text := by
  constructor
  · intro h
    unfold atFront? at h
    split at h
    · next first rest =>
      dsimp only at h
      split_ifs at h with hname
      cases h
      obtain ⟨hfirst, hbrace⟩ := hname
      refine ⟨⟨first, _, rfl, hfirst, fun c hc => List.mem_takeWhile_imp hc⟩, ?_⟩
      obtain ⟨more, hmore⟩ := List.takeWhile_prefix isNameChar (l := rest)
      generalize rest.takeWhile isNameChar = tail at hbrace hmore ⊢
      subst hmore
      rw [List.drop_left] at hbrace
      obtain ⟨more, rfl⟩ := List.head?_eq_some_iff.1 hbrace
      exact ⟨more, by simp [written]⟩
    · cases h
  · rintro ⟨⟨first, tail, rfl, hfirst, htail⟩, rest, rfl⟩
    have hbrace : ¬isNameChar '\x7d' = true := by decide
    have htext : written (first :: tail) ++ rest = '$' :: '\x7b' :: first :: (tail ++ '\x7d' :: rest) := by
      simp [written]
    rw [htext, atFront?]
    rw [List.takeWhile_append_of_pos htail, List.takeWhile_cons_of_neg hbrace, List.append_nil]
    exact if_pos ⟨hfirst, by rw [List.drop_left]; rfl⟩

/-- A text begins with the placeholder of at most one name. -/
theorem IsName.eq_of_prefix (hname : IsName name) (hother : IsName other) (h : written name <+: text)
    (h' : written other <+: text) : name = other :=
  Option.some.inj ((atFront?_eq_some_iff.2 ⟨hname, h⟩).symm.trans (atFront?_eq_some_iff.2 ⟨hother, h'⟩))

theorem not_prefix_of_ne (h : c ≠ '$') : ¬written name <+: c :: t :=
  fun hprefix => h (List.cons_prefix_cons.1 hprefix).1.symm

theorem atFront?_eq_none (h : ∀ name, IsName name → ¬written name <+: text) : atFront? text = none := by
  rw [Option.eq_none_iff_forall_ne_some]
  intro name hname
  obtain ⟨hisName, hprefix⟩ := atFront?_eq_some_iff.1 hname
  exact h name hisName hprefix

/-- A text is gone through by the placeholders of the given names and the characters between them. -/
theorem text_induction (given : List Char → Prop) {P : List Char → Prop} (nil : P [])
    (placeholder : ∀ name t, given name → P t → P (written name ++ t))
    (plain : ∀ c t, (∀ name, given name → ¬written name <+: c :: t) → P t → P (c :: t)) (text : List Char) :
    P text := by
  induction hlength : text.length using Nat.strongRecOn generalizing text with
  | ind length ih =>
    subst hlength
    match text with
    | [] => exact nil
    | c :: t =>
      by_cases h : ∃ name, given name ∧ written name <+: c :: t
      · obtain ⟨name, hgiven, rest, hrest⟩ := h
        rw [← hrest] at ih ⊢
        exact placeholder name rest hgiven (ih _ (by rw [List.length_append, length_written]; omega) rest rfl)
      · refine plain c t (fun name hgiven hprefix => h ⟨name, hgiven, hprefix⟩) (ih _ ?_ t rfl)
        exact Nat.lt_succ_self _

/-! ## Names in a text -/

theorem names_cons (c : Char) (t : List Char) : names (c :: t) =
    match atFront? (c :: t) with
    | some name => name :: names t
    | none => names t := rfl

theorem isName_of_mem (h : name ∈ names text) : IsName name := by
  induction text with
  | nil => cases h
  | cons c t ih =>
    rw [names_cons] at h
    split at h
    next other hother =>
      rcases List.mem_cons.1 h with rfl | h
      · exact (atFront?_eq_some_iff.1 hother).1
      · exact ih h
    next => exact ih h

theorem names_append (h : '$' ∉ u) : names (u ++ t) = names t := by
  induction u with
  | nil => rfl
  | cons c u ih =>
    obtain ⟨hc, hu⟩ := List.ne_and_not_mem_of_not_mem_cons h
    rw [List.cons_append, names_cons, atFront?_eq_none fun _ _ => not_prefix_of_ne hc.symm]
    exact ih hu

theorem names_placeholder (hname : IsName name) (t : List Char) : names (written name ++ t) = name :: names t := by
  have hfront : atFront? ('$' :: (body name ++ t)) = some name := atFront?_eq_some_iff.2 ⟨hname, t, rfl⟩
  change names ('$' :: (body name ++ t)) = _
  rw [names_cons, hfront]
  dsimp only
  rw [names_append hname.dollar_not_mem]

/-! ## Replacing -/

theorem replaceFrom_zero_cons (old new : List Char) (c : Char) (t : List Char) : replaceFrom old new 0 (c :: t) =
    if old.isPrefixOf (c :: t) then new ++ replaceFrom old new (old.length - 1) t
    else c :: replaceFrom old new 0 t := rfl

theorem replaceFrom_eq_drop (old new : List Char) (skip : Nat) (text : List Char) :
    replaceFrom old new skip text = replace old new (text.drop skip) := by
  induction text generalizing skip with
  | nil => cases skip <;> rfl
  | cons c t ih =>
    cases skip with
    | zero => rfl
    | succ skip => exact ih skip

theorem replace_placeholder (name new t : List Char) :
    replace (written name) new (written name ++ t) = new ++ replace (written name) new t := by
  have hdrop : (body name ++ t).drop ((written name).length - 1) = t := List.drop_left' rfl
  have hprefix : (written name).isPrefixOf ('$' :: (body name ++ t)) = true :=
    List.isPrefixOf_iff_prefix.2 ⟨t, rfl⟩
  change replaceFrom (written name) new 0 ('$' :: (body name ++ t)) = _
  rw [replaceFrom_zero_cons, if_pos hprefix, replaceFrom_eq_drop, hdrop]

theorem replace_cons (h : ¬old <+: c :: t) : replace old new (c :: t) = c :: replace old new t := by
  rw [replace, replaceFrom_zero_cons, if_neg fun hprefix => h (List.isPrefixOf_iff_prefix.1 hprefix)]
  rfl

theorem replace_append (h : '$' ∉ u) :
    replace (written name) new (u ++ t) = u ++ replace (written name) new t := by
  induction u with
  | nil => rfl
  | cons c u ih =>
    obtain ⟨hc, hu⟩ := List.ne_and_not_mem_of_not_mem_cons h
    rw [List.cons_append, replace_cons (not_prefix_of_ne hc.symm), ih hu]
    rfl

/-- The placeholder of another name stays. -/
theorem replace_other (hname : IsName name) (hother : IsName other) (hne : other ≠ name) :
    replace (written name) new (written other ++ t) = written other ++ replace (written name) new t := by
  have hnot : ¬written name <+: written other ++ t := fun h =>
    hne (hother.eq_of_prefix hname (List.prefix_append _ _) h)
  rw [written_eq other, List.cons_append] at hnot ⊢
  rw [replace_cons hnot, replace_append hother.dollar_not_mem]
  rfl

/-! ## Occurrences -/

/-- At how many places of a text another one begins. -/
def occurrences (old : List Char) : List Char → Nat
  | [] => 0
  | c :: t => (if old <+: c :: t then 1 else 0) + occurrences old t

theorem occurrences_nil (old : List Char) : occurrences old [] = 0 := rfl

theorem occurrences_cons (old : List Char) (c : Char) (t : List Char) :
    occurrences old (c :: t) = (if old <+: c :: t then 1 else 0) + occurrences old t := rfl

theorem occurrences_append_le (old u t : List Char) :
    occurrences old u + occurrences old t ≤ occurrences old (u ++ t) := by
  induction u with
  | nil => rw [List.nil_append, occurrences_nil, Nat.zero_add]
  | cons c u ih =>
    have hfront : (if old <+: c :: u then 1 else 0) ≤ if old <+: c :: (u ++ t) then 1 else 0 := by
      split_ifs with h h'
      · exact Nat.le_refl _
      · exact absurd (h.trans (List.prefix_append (c :: u) t)) h'
      all_goals exact Nat.zero_le _
    rw [List.cons_append, occurrences_cons, occurrences_cons]
    omega

theorem occurrences_append (h : '$' ∉ u) : occurrences (written name) (u ++ t) = occurrences (written name) t := by
  induction u with
  | nil => rfl
  | cons c u ih =>
    obtain ⟨hc, hu⟩ := List.ne_and_not_mem_of_not_mem_cons h
    rw [List.cons_append, occurrences_cons, if_neg (not_prefix_of_ne hc.symm), ih hu, Nat.zero_add]

theorem occurrences_placeholder (hname : IsName name) :
    occurrences (written name) (written name ++ t) = occurrences (written name) t + 1 := by
  have hfront : written name <+: '$' :: (body name ++ t) := ⟨t, rfl⟩
  change occurrences (written name) ('$' :: (body name ++ t)) = _
  rw [occurrences_cons, if_pos hfront, occurrences_append hname.dollar_not_mem, Nat.add_comm]

/-- A variable is named as often as its placeholder stands in the text. -/
theorem count_names (hname : IsName name) (text : List Char) :
    (names text).count name = occurrences (written name) text := by
  induction text with
  | nil => rfl
  | cons c t ih =>
    rw [names_cons, occurrences_cons]
    split
    next other hother =>
      obtain ⟨hisName, hprefix⟩ := atFront?_eq_some_iff.1 hother
      have hsame : written name <+: c :: t ↔ other = name :=
        ⟨hisName.eq_of_prefix hname hprefix, fun heq => heq ▸ hprefix⟩
      rw [List.count_cons, ih, Nat.add_comm]
      simp only [beq_iff_eq, hsame]
    next hnone =>
      have hnot : ¬written name <+: c :: t := fun hprefix => by
        rw [atFront?_eq_some_iff.2 ⟨hname, hprefix⟩] at hnone
        cases hnone
      rw [if_neg hnot, Nat.zero_add, ih]

theorem occurrences_pos_iff (hname : IsName name) : 0 < occurrences (written name) text ↔ written name <:+: text := by
  constructor
  · induction text with
    | nil => exact fun h => absurd h (Nat.lt_irrefl 0)
    | cons c t ih =>
      intro h
      by_cases hfront : written name <+: c :: t
      · exact hfront.isInfix
      · rw [occurrences_cons, if_neg hfront, Nat.zero_add] at h
        exact (ih h).trans (List.suffix_cons c t).isInfix
  · rintro ⟨before, after, rfl⟩
    rw [List.append_assoc]
    have hle := occurrences_append_le (written name) before (written name ++ after)
    rw [occurrences_placeholder hname] at hle
    omega

theorem mem_names_iff (hname : IsName name) : name ∈ names text ↔ written name <:+: text := by
  rw [← List.count_pos_iff, count_names hname, occurrences_pos_iff hname]

/-- How many dollar signs there are when all placeholders of a name have been replaced. -/
theorem count_replace (hname : IsName name) (new text : List Char) :
    (replace (written name) new text).count '$' + occurrences (written name) text =
      text.count '$' + occurrences (written name) text * new.count '$' := by
  induction text using text_induction (· = name) with
  | nil =>
    rw [occurrences_nil, Nat.zero_mul]
    rfl
  | placeholder other t hother ih =>
    subst hother
    rw [replace_placeholder, occurrences_placeholder hname, List.count_append, List.count_append, hname.count_dollar,
      Nat.add_mul]
    omega
  | plain c t hnot ih =>
    rw [replace_cons (hnot name rfl), occurrences_cons, if_neg (hnot name rfl), Nat.zero_add, List.count_cons,
      List.count_cons]
    omega

end ReportRelay.Placeholder
