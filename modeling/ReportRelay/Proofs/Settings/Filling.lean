import ReportRelay.Proofs.Settings.Replacing

/-!
# Filling in all placeholders at once

A text says what it is to become: every placeholder of the text itself makes room for the value of its variable, and
everything else stays. Filling them in one after the other comes to the same if nothing that looks like one of them is
left in the result. Otherwise it need not, unless there is no more than one of them.
-/

namespace ReportRelay.Placeholder

/-! ## Pieces -/

/-- A piece of a text that is to be filled in. -/
inductive Piece
  | plain (c : Char)
  | hole (name : List Char)
  deriving DecidableEq, Repr

namespace Piece

def written : Piece → List Char
  | plain c => [c]
  | hole name => Placeholder.written name

def filled (value : List Char → List Char) : Piece → List Char
  | plain c => [c]
  | hole name => value name

def name? : Piece → Option (List Char)
  | plain _ => none
  | hole name => some name

/-- The piece with a text put into it, if it is a hole of the given name. -/
def put (name new : List Char) : Piece → List Piece
  | plain c => [plain c]
  | hole other => if other = name then new.map plain else [hole other]

end Piece

/-- The pieces of a text; some characters are still to be passed over. -/
def piecesFrom : Nat → List Char → List Piece
  | _, [] => []
  | skip + 1, _ :: t => piecesFrom skip t
  | 0, c :: t =>
    match atFront? (c :: t) with
    | some name => .hole name :: piecesFrom (name.length + 2) t
    | none => .plain c :: piecesFrom 0 t

def pieces (text : List Char) : List Piece :=
  piecesFrom 0 text

def valueIn (valueOf? : String → Option String) (name : List Char) : List Char :=
  ((valueOf? (String.ofList name)).getD "").toList

/-- Fills in all placeholders of a text at once. -/
def fillOnce (valueOf? : String → Option String) (text : String) : String :=
  String.ofList ((pieces text.toList).flatMap (Piece.filled (valueIn valueOf?)))

variable {name other new u t text : List Char} {c : Char} {value : List Char → List Char} {ps : List Piece}

theorem piecesFrom_zero_cons (c : Char) (t : List Char) : piecesFrom 0 (c :: t) =
    match atFront? (c :: t) with
    | some name => .hole name :: piecesFrom (name.length + 2) t
    | none => .plain c :: piecesFrom 0 t := rfl

theorem piecesFrom_eq_drop (skip : Nat) (text : List Char) : piecesFrom skip text = pieces (text.drop skip) := by
  induction text generalizing skip with
  | nil => cases skip <;> rfl
  | cons c t ih =>
    cases skip with
    | zero => rfl
    | succ skip => exact ih skip

theorem pieces_placeholder (hname : IsName name) (t : List Char) :
    pieces (written name ++ t) = .hole name :: pieces t := by
  have hfront : atFront? ('$' :: (body name ++ t)) = some name := atFront?_eq_some_iff.2 ⟨hname, t, rfl⟩
  have hdrop : (body name ++ t).drop (name.length + 2) = t := List.drop_left' (by simp [body])
  change piecesFrom 0 ('$' :: (body name ++ t)) = _
  rw [piecesFrom_zero_cons, hfront]
  dsimp only
  rw [piecesFrom_eq_drop, hdrop]

theorem pieces_cons (h : ∀ name, IsName name → ¬written name <+: c :: t) : pieces (c :: t) = .plain c :: pieces t := by
  rw [pieces, piecesFrom_zero_cons, atFront?_eq_none h]
  rfl

/-- The names of the holes among some pieces. -/
def holes (ps : List Piece) : List (List Char) :=
  ps.filterMap Piece.name?

theorem holes_hole : holes (.hole name :: ps) = name :: holes ps := rfl

/-- The names of a text are those of its holes. -/
theorem names_eq (text : List Char) : names text = holes (pieces text) := by
  induction text using text_induction IsName with
  | nil => rfl
  | placeholder name t hname ih =>
    rw [names_placeholder hname, pieces_placeholder hname, ih]
    rfl
  | plain c t hnot ih =>
    rw [pieces_cons hnot, names_cons, atFront?_eq_none hnot]
    exact ih

theorem spelled_pieces (text : List Char) : (pieces text).flatMap Piece.written = text := by
  induction text using text_induction IsName with
  | nil => rfl
  | placeholder name t hname ih => rw [pieces_placeholder hname, List.flatMap_cons, ih, Piece.written]
  | plain c t hnot ih => rw [pieces_cons hnot, List.flatMap_cons, ih, Piece.written, List.singleton_append]

theorem mem_names (h : .hole name ∈ pieces text) : name ∈ names text := by
  rw [names_eq]
  exact List.mem_filterMap.2 ⟨_, h, rfl⟩

/-! ## Filling in one variable -/

theorem flatMap_plain {f : Piece → List Char} (hf : ∀ c, f (.plain c) = [c]) (u : List Char) :
    (u.map Piece.plain).flatMap f = u := by
  rw [List.flatMap_map, List.flatMap_congr fun c _ => hf c, List.flatMap_singleton']

/-- Filling in a variable first leaves what the text becomes when all are filled in. -/
theorem filled_put (value : List Char → List Char) (name : List Char) (ps : List Piece) :
    (ps.flatMap (Piece.put name (value name))).flatMap (Piece.filled value) = ps.flatMap (Piece.filled value) := by
  rw [List.flatMap_assoc]
  refine List.flatMap_congr fun piece _ => ?_
  cases piece with
  | plain c => rfl
  | hole other =>
    rw [Piece.put]
    split_ifs with h
    · rw [flatMap_plain fun _ => rfl, Piece.filled, h]
    · exact List.flatMap_singleton _ _

theorem mem_put (h : .hole other ∈ ps.flatMap (Piece.put name new)) : .hole other ∈ ps ∧ other ≠ name := by
  obtain ⟨piece, hpiece, hmem⟩ := List.mem_flatMap.1 h
  cases piece with
  | plain c => cases List.mem_singleton.1 hmem
  | hole asked =>
    rw [Piece.put] at hmem
    split_ifs at hmem with hasked
    · obtain ⟨_, _, heq⟩ := List.mem_map.1 hmem
      cases heq
    · cases List.mem_singleton.1 hmem
      exact ⟨hpiece, hasked⟩

/-- No character of a text between its holes begins a placeholder of the name. -/
def Clear (name : List Char) (ps : List Piece) : Prop :=
  ∀ c rest, .plain c :: rest <:+ ps → ¬written name <+: c :: rest.flatMap Piece.written

theorem Clear.of_cons {piece : Piece} (h : Clear name (piece :: ps)) : Clear name ps :=
  fun c rest hsuffix => h c rest (hsuffix.trans (List.suffix_cons piece ps))

/-- If holes are all that looks like a placeholder, replacing it is filling in the variable. -/
theorem replace_spelled (new : List Char) (hname : IsName name) (hholes : ∀ other, .hole other ∈ ps → IsName other)
    (hclear : Clear name ps) : replace (written name) new (ps.flatMap Piece.written) =
      (ps.flatMap (Piece.put name new)).flatMap Piece.written := by
  induction ps with
  | nil => rfl
  | cons piece ps ih =>
    have ih := ih (fun other hother => hholes other (List.mem_cons_of_mem _ hother)) hclear.of_cons
    rw [List.flatMap_cons, List.flatMap_cons, List.flatMap_append, ← ih]
    cases piece with
    | plain c => exact replace_cons (hclear c ps List.suffix_rfl)
    | hole other =>
      rw [Piece.put, Piece.written]
      split_ifs with h
      · rw [h, replace_placeholder, flatMap_plain fun _ => rfl]
      · rw [replace_other hname (hholes other List.mem_cons_self) h, List.flatMap_singleton, Piece.written]

/-- The holes of a text are all its placeholders. -/
theorem clear_pieces (hname : IsName name) (text : List Char) : Clear name (pieces text) := by
  induction text using text_induction IsName with
  | nil => exact fun c rest hsuffix => absurd (List.suffix_nil.1 hsuffix) (List.cons_ne_nil _ _)
  | placeholder other t hother ih =>
    rw [pieces_placeholder hother]
    intro c rest hsuffix
    rcases List.suffix_cons_iff.1 hsuffix with heq | hsuffix
    · cases heq
    · exact ih c rest hsuffix
  | plain c t hnot ih =>
    rw [pieces_cons hnot]
    intro c' rest hsuffix
    rcases List.suffix_cons_iff.1 hsuffix with heq | hsuffix
    · cases heq
      rw [spelled_pieces]
      exact hnot name hname
    · exact ih c' rest hsuffix

/-! ## Filling in one variable after the other -/

/-- Without a dollar sign nothing of a hole is reached, so what stands before it stays when it is filled in. -/
theorem prefix_filled (hdollar : '$' ∉ u) (h : u <+: ps.flatMap Piece.written) :
    u <+: ps.flatMap (Piece.filled value) := by
  induction ps generalizing u with
  | nil => exact h
  | cons piece ps ih =>
    rw [List.flatMap_cons] at h ⊢
    cases u with
    | nil => exact List.nil_prefix
    | cons d u =>
      obtain ⟨hd, hu⟩ := List.ne_and_not_mem_of_not_mem_cons hdollar
      cases piece with
      | plain c =>
        obtain ⟨rfl, hrest⟩ := List.cons_prefix_cons.1 h
        exact List.cons_prefix_cons.2 ⟨rfl, ih hu hrest⟩
      | hole name => exact absurd (List.cons_prefix_cons.1 h).1.symm hd

/-- What looks like a placeholder without being a hole is still there when all holes are filled in. -/
theorem clear_of_end (hname : IsName name) (h : ¬written name <:+: ps.flatMap (Piece.filled value)) :
    Clear name ps := by
  intro c rest hsuffix hprefix
  apply h
  obtain ⟨hc, hrest⟩ := List.cons_prefix_cons.1 hprefix
  have hfilled : written name <+: (.plain c :: rest).flatMap (Piece.filled value) :=
    List.cons_prefix_cons.2 ⟨hc, prefix_filled hname.dollar_not_mem hrest⟩
  obtain ⟨before, rfl⟩ := hsuffix
  rw [List.flatMap_append]
  exact hfilled.isInfix.trans (List.suffix_append _ _).isInfix

theorem spelled_eq_filled (h : ∀ name, .hole name ∉ ps) :
    ps.flatMap Piece.written = ps.flatMap (Piece.filled value) := by
  refine List.flatMap_congr fun piece hpiece => ?_
  cases piece with
  | plain c => rfl
  | hole name => exact absurd hpiece (h name)

/-- Replaces the placeholders of variables by their values, one variable after the other. -/
def inTurn (value : List Char → List Char) (ns : List (List Char)) (text : List Char) : List Char :=
  ns.foldl (fun filled name => replace (written name) (value name) filled) text

theorem inTurn_eq_filled {ns : List (List Char)}
    (hns : ∀ name ∈ ns, IsName name ∧ ¬written name <:+: ps.flatMap (Piece.filled value))
    (hholes : ∀ name, .hole name ∈ ps → IsName name ∧ name ∈ ns) :
    inTurn value ns (ps.flatMap Piece.written) = ps.flatMap (Piece.filled value) := by
  induction ns generalizing ps with
  | nil => exact spelled_eq_filled fun name hname => List.not_mem_nil (hholes name hname).2
  | cons name ns ih =>
    obtain ⟨⟨hname, hend⟩, hns⟩ := List.forall_mem_cons.1 hns
    have hput := filled_put value name ps
    have hstep := replace_spelled (value name) hname (fun other hother => (hholes other hother).1)
      (clear_of_end hname hend)
    rw [inTurn, List.foldl_cons, hstep, ← hput]
    refine ih (by rwa [hput]) fun other hother => ?_
    obtain ⟨hother, hne⟩ := mem_put hother
    obtain ⟨hisName, hmem⟩ := hholes other hother
    exact ⟨hisName, (List.mem_cons.1 hmem).resolve_left hne⟩

/-- If none of the variables has a placeholder when all are filled in, none has one that is not a hole before. -/
theorem inTurn_of_disjoint
    (h : ∀ name ∈ names text, name ∉ names ((pieces text).flatMap (Piece.filled value))) :
    inTurn value (names text) text = (pieces text).flatMap (Piece.filled value) := by
  have hend : ∀ name ∈ names text, IsName name ∧ ¬written name <:+: (pieces text).flatMap (Piece.filled value) := by
    intro name hname
    have hisName := isName_of_mem hname
    exact ⟨hisName, fun hinfix => h name hname ((mem_names_iff hisName).2 hinfix)⟩
  have hstep := inTurn_eq_filled hend fun name hname => ⟨isName_of_mem (mem_names hname), mem_names hname⟩
  rwa [spelled_pieces] at hstep

/-- The first placeholder is replaced in the text itself. -/
theorem inTurn_of_length_le_one (h : (names text).length ≤ 1) :
    inTurn value (names text) text = (pieces text).flatMap (Piece.filled value) := by
  match hnames : names text with
  | [] =>
    have hnone : ∀ name, .hole name ∉ pieces text := fun name hname => by
      have hmem := mem_names hname
      rw [hnames] at hmem
      cases hmem
    rw [← spelled_eq_filled hnone, spelled_pieces]
    rfl
  | [name] =>
    have hthere : name ∈ names text := hnames ▸ List.mem_singleton_self name
    have hname := isName_of_mem hthere
    have hnone : ∀ other, .hole other ∉ (pieces text).flatMap (Piece.put name (value name)) := fun other hother => by
      obtain ⟨hother, hne⟩ := mem_put hother
      have hmem := mem_names hother
      rw [hnames] at hmem
      exact hne (List.mem_singleton.1 hmem)
    have hstep := replace_spelled (value name) hname (fun other hother => isName_of_mem (mem_names hother))
      (clear_pieces hname text)
    rw [spelled_pieces, spelled_eq_filled hnone, filled_put] at hstep
    exact hstep
  | _ :: _ :: _ =>
    rw [hnames] at h
    exact absurd h (by simp)

/-! ## Two placeholders -/

/-- Values that stand for themselves, except that the first variable stands for the second one, and the second one for
twice itself. -/
def tangled (first second : List Char) (name : List Char) : List Char :=
  if name = second then written second ++ written second else if name = first then written second else written name

theorem count_dollar_tangled {first second : List Char} (hsecond : IsName second) (hname : IsName name) :
    (tangled first second name).count '$' = if name = second then 2 else 1 := by
  unfold tangled
  split_ifs
  · rw [List.count_append, hsecond.count_dollar]
  · exact hsecond.count_dollar
  · exact hname.count_dollar

theorem count_le_replace (hname : IsName name) (hnew : 1 ≤ new.count '$') (text : List Char) :
    text.count '$' ≤ (replace (written name) new text).count '$' := by
  have hcount := count_replace hname new text
  have hmany := Nat.mul_le_mul_left (occurrences (written name) text) hnew
  omega

theorem count_le_inTurn {ns : List (List Char)} (h : ∀ name ∈ ns, IsName name ∧ 1 ≤ (value name).count '$')
    (text : List Char) : text.count '$' ≤ (inTurn value ns text).count '$' := by
  induction ns generalizing text with
  | nil => exact Nat.le_refl _
  | cons name ns ih =>
    obtain ⟨⟨hname, hvalue⟩, hns⟩ := List.forall_mem_cons.1 h
    exact Nat.le_trans (count_le_replace hname hvalue text) (ih hns _)

/-- Filled in at once, every placeholder of the second variable becomes two. -/
theorem count_filled_tangled (first : List Char) {second : List Char} (hsecond : IsName second)
    (hholes : ∀ name, .hole name ∈ ps → IsName name) :
    (ps.flatMap (Piece.filled (tangled first second))).count '$' =
      (ps.flatMap Piece.written).count '$' + (holes ps).count second := by
  induction ps with
  | nil => rfl
  | cons piece ps ih =>
    have ih := ih fun name hname => hholes name (List.mem_cons_of_mem _ hname)
    rw [List.flatMap_cons, List.flatMap_cons, List.count_append, List.count_append, ih]
    cases piece with
    | plain c => exact (Nat.add_assoc _ _ _).symm
    | hole name =>
      have hname := hholes name List.mem_cons_self
      rw [Piece.filled, Piece.written, count_dollar_tangled hsecond hname, hname.count_dollar, holes_hole,
        List.count_cons]
      simp only [beq_iff_eq]
      split_ifs <;> omega

/-- With the first variable filled in, its placeholders have become some of the second one. -/
theorem count_le_occurrences (first : List Char) {second : List Char} (hsecond : IsName second) (ps : List Piece) :
    (holes ps).count second + (holes ps).count first ≤ occurrences (written second)
      ((ps.flatMap (Piece.put first (tangled first second first))).flatMap Piece.written) := by
  induction ps with
  | nil => exact Nat.zero_le _
  | cons piece ps ih =>
    rw [List.flatMap_cons, List.flatMap_append]
    generalize (ps.flatMap (Piece.put first (tangled first second first))).flatMap Piece.written = rest at ih ⊢
    have hmore (u : List Char) := occurrences_append_le (written second) u rest
    cases piece with
    | plain c => exact Nat.le_trans ih (Nat.le_trans (Nat.le_add_left _ _) (hmore [c]))
    | hole name =>
      rw [Piece.put, holes_hole, List.count_cons, List.count_cons]
      simp only [beq_iff_eq]
      by_cases hfirst : name = first
      · rw [if_pos hfirst, if_pos hfirst, hfirst, flatMap_plain fun _ => rfl, tangled, if_pos rfl]
        split_ifs with hsame
        · rw [List.append_assoc, occurrences_placeholder hsecond, occurrences_placeholder hsecond]
          omega
        · rw [occurrences_placeholder hsecond]
          omega
      · rw [if_neg hfirst, if_neg hfirst, List.flatMap_singleton, Piece.written]
        split_ifs with hsame
        · rw [hsame, occurrences_placeholder hsecond]
          omega
        · have hle := hmore (written name)
          omega

/-- Filled in one after the other, the placeholders of the first variable come to be filled in with the value of the
second one. -/
theorem count_lt_of_tangled {first second : List Char} {more : List (List Char)}
    (hnames : names text = first :: second :: more) :
    ((pieces text).flatMap (Piece.filled (tangled first second))).count '$' <
      (inTurn (tangled first second) (names text) text).count '$' := by
  have hisName : ∀ name ∈ first :: second :: more, IsName name := hnames ▸ fun _ => isName_of_mem
  obtain ⟨hfirst, hrest⟩ := List.forall_mem_cons.1 hisName
  obtain ⟨hsecond, hmore⟩ := List.forall_mem_cons.1 hrest
  have hvalue (name : List Char) (hname : IsName name) : 1 ≤ (tangled first second name).count '$' := by
    rw [count_dollar_tangled hsecond hname]
    split_ifs <;> decide
  have hholes (name : List Char) (hname : .hole name ∈ pieces text) : IsName name := isName_of_mem (mem_names hname)
  have hthere : 0 < (holes (pieces text)).count first := by
    rw [← names_eq, hnames]
    exact List.count_pos_iff.2 List.mem_cons_self
  have honce := count_filled_tangled first hsecond hholes
  have hoccurs := count_le_occurrences first hsecond (pieces text)
  rw [← replace_spelled _ hfirst hholes (clear_pieces hfirst text)] at hoccurs
  rw [spelled_pieces] at honce hoccurs
  -- the first variable takes no dollar sign away, the second one adds one for each of its placeholders by then, and
  -- the others take none away
  have hstart := count_le_replace hfirst (hvalue first hfirst) text
  have hmiddle := count_replace hsecond (tangled first second second)
    (replace (written first) (tangled first second first) text)
  rw [count_dollar_tangled hsecond hsecond, if_pos rfl] at hmiddle
  have hend := count_le_inTurn (fun name hname => ⟨hmore name hname, hvalue name (hmore name hname)⟩)
    (replace (written second) (tangled first second second)
      (replace (written first) (tangled first second first) text))
  rw [hnames, inTurn, List.foldl_cons, List.foldl_cons, honce]
  rw [inTurn] at hend
  omega

/-- Two placeholders are enough for a difference. -/
theorem exists_count_lt (h : 1 < (names text).length) : ∃ value : List Char → List Char,
    ((pieces text).flatMap (Piece.filled value)).count '$' < (inTurn value (names text) text).count '$' := by
  match hnames : names text with
  | [] | [_] =>
    rw [hnames] at h
    exact absurd h (by simp)
  | first :: second :: more => exact ⟨tangled first second, hnames ▸ count_lt_of_tangled hnames⟩

/-! ## Texts -/

/-- Every value that a variable could have, it has in some environment. -/
theorem exists_valueIn (value : List Char → List Char) : ∃ valueOf?, valueIn valueOf? = value := by
  refine ⟨fun name => some (String.ofList (value name.toList)), funext fun name => ?_⟩
  rw [valueIn, Option.getD_some, String.toList_ofList, String.toList_ofList]

theorem fill_eq (valueOf? : String → Option String) (text : String) :
    fill valueOf? text = String.ofList (inTurn (valueIn valueOf?) (names text.toList) text.toList) := rfl

theorem fill_eq_fillOnce_iff_inTurn {valueOf? : String → Option String} {text : String} :
    fill valueOf? text = fillOnce valueOf? text ↔ inTurn (valueIn valueOf?) (names text.toList) text.toList =
      (pieces text.toList).flatMap (Piece.filled (valueIn valueOf?)) := by
  rw [fill_eq, fillOnce, String.ofList_inj]

/-- Variables are filled in as if at once in all environments if and only if there is no more than one placeholder.
In a given environment they are if none of the variables has a placeholder in the end. -/
theorem fill_eq_fillOnce_iff (text : String) :
    ((∀ valueOf?, fill valueOf? text = fillOnce valueOf? text) ↔ (names text.toList).length ≤ 1) ∧
      ∀ valueOf?, (∀ name ∈ names text.toList, name ∉ names (fillOnce valueOf? text).toList) →
        fill valueOf? text = fillOnce valueOf? text := by
  simp only [fill_eq_fillOnce_iff_inTurn]
  refine ⟨⟨fun h => ?_, fun h valueOf? => inTurn_of_length_le_one h⟩, fun valueOf? h => inTurn_of_disjoint ?_⟩
  · by_contra hlength
    obtain ⟨value, hlt⟩ := exists_count_lt (Nat.not_le.1 hlength)
    obtain ⟨valueOf?, rfl⟩ := exists_valueIn value
    rw [h valueOf?] at hlt
    exact Nat.lt_irrefl _ hlt
  · rwa [fillOnce, String.toList_ofList] at h

/-- An environment of two variables. -/
def relayOfQueue (name : String) : Option String :=
  match name with
  | "FIRST" => some "relay"
  | "SECOND" => some "queue"
  | _ => none

/-- An environment in which one variable stands for a placeholder of the other. -/
def firstIsSecond (name : String) : Option String :=
  match name with
  | "FIRST" => some "$\x7bSECOND\x7d"
  | "SECOND" => some "relay"
  | _ => none

theorem fill_eq_fillOnce_iff_of_relayOfQueue :
    fill relayOfQueue "$\x7bFIRST\x7d-$\x7bSECOND\x7d-$\x7bTHIRD\x7d" = "relay-queue-" ∧
      fill relayOfQueue "$\x7bFIRST\x7d-$\x7bSECOND\x7d-$\x7bTHIRD\x7d" =
        fillOnce relayOfQueue "$\x7bFIRST\x7d-$\x7bSECOND\x7d-$\x7bTHIRD\x7d" :=
  ⟨by decide +kernel, (fill_eq_fillOnce_iff _).2 _ (by decide +kernel)⟩

/-- The value of the first variable is filled in if the second one comes behind it, and not if it comes before. -/
theorem fill_ne_fillOnce_of_firstIsSecond :
    fill firstIsSecond "$\x7bFIRST\x7d$\x7bSECOND\x7d" = "relayrelay" ∧
      fillOnce firstIsSecond "$\x7bFIRST\x7d$\x7bSECOND\x7d" = "$\x7bSECOND\x7drelay" ∧
      fill firstIsSecond "$\x7bSECOND\x7d$\x7bFIRST\x7d" = "relay$\x7bSECOND\x7d" ∧
      ¬∀ valueOf? text, fill valueOf? text = fillOnce valueOf? text := by
  have hfill : fill firstIsSecond "$\x7bFIRST\x7d$\x7bSECOND\x7d" = "relayrelay" := by decide +kernel
  have honce : fillOnce firstIsSecond "$\x7bFIRST\x7d$\x7bSECOND\x7d" = "$\x7bSECOND\x7drelay" := by decide +kernel
  refine ⟨hfill, honce, by decide +kernel, fun h => ?_⟩
  have heq := h firstIsSecond "$\x7bFIRST\x7d$\x7bSECOND\x7d"
  rw [hfill, honce] at heq
  revert heq
  decide +kernel

end ReportRelay.Placeholder
