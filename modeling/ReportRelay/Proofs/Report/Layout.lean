import Mathlib.Data.List.GetD
import ReportRelay.Proofs.Bytes.Signed
import ReportRelay.Proofs.Except
import ReportRelay.Proofs.Report.Rank

/-!
# The layout of reports

A report can be built on 1 to 32 observations whose values fit in 16 bytes, if the middle price fits there without a
sign. It then holds every observation with its observer, in ascending order, between the timestamp and the price of
middle rank, and the value of middle rank can be read back from it.
-/

namespace ReportRelay.Report

/-! ## Reading the parts of a report -/

/-- The number in the first four bytes. -/
def timestampOf (report : Bytes) : Int :=
  Bytes.toNat (report.take 4)

def observerAt (report : Bytes) (i : Nat) : UInt8 :=
  report.getD (4 + i) 0

def countOf (report : Bytes) : Nat :=
  (report.getD (headLength - 1) 0).toNat

/-- The bytes of an observation. -/
def slot (report : Bytes) (i : Nat) : Bytes :=
  (report.drop (headLength + intWidth * i)).take intWidth

/-- The number in the last 16 bytes. -/
def priceOf (report : Bytes) : Int :=
  Bytes.toNat (report.drop (report.length - intWidth))

/-- The report has room for its head, for at least one observation, and for all that it says to hold. -/
structure Readable (report : Bytes) : Prop where
  head : headLength ≤ report.length
  some : 1 ≤ countOf report
  room : length (countOf report) ≤ report.length

theorem median_eq_ok_iff {report : Bytes} {v : Int} : median report = .ok v ↔
    Readable report ∧ Signed.decode intWidth (slot report (countOf report / 2)) = .ok v := by
  unfold median medianFrom
  split
  next hshort => exact iff_of_false nofun fun ⟨h, _⟩ => Nat.not_lt.2 h.head hshort
  next hhead =>
    change (if countOf report = 0 then _ else _) = _ ↔ _
    split
    next hnone => exact iff_of_false nofun fun ⟨h, _⟩ => Nat.ne_of_gt h.some hnone
    next hsome =>
      change (if report.length < length (countOf report) then _ else _) = _ ↔ _
      split
      next hshort => exact iff_of_false nofun fun ⟨h, _⟩ => Nat.not_lt.2 h.room hshort
      next hroom => exact (and_iff_right ⟨Nat.not_lt.1 hhead, Nat.pos_of_ne_zero hsome, Nat.not_lt.1 hroom⟩).symm

/-! ## What can be written -/

/-- A report can be built on these observations. -/
structure Encodable (observations : List Observation) : Prop where
  some : 1 ≤ observations.length
  room : observations.length ≤ 32
  values : ∀ o ∈ observations, -2 ^ 127 ≤ o.value ∧ o.value < 2 ^ 127
  price : ∃ price, HasRank (observations.map Observation.juelsPerFeeCoin) (observations.length / 2) price ∧
    0 ≤ price ∧ price < 2 ^ 128

/-- The report tells of these observations. -/
structure Encodes (observations : List Observation) (report : Bytes) : Prop where
  length_eq : report.length = length observations.length
  timestamp : HasRank (observations.map fun o => (o.timestamp.toNat : Int)) (observations.length / 2)
    (timestampOf report)
  count : countOf report = observations.length
  /-- The observations can be read in ascending order. -/
  values : ∃ values : List Int, values.Pairwise (· ≤ ·) ∧ values.Perm (observations.map Observation.value) ∧
    (List.range observations.length).map (fun i => Signed.decode intWidth (slot report i)) = values.map .ok
  /-- Each observation stands at the place of its observer. -/
  observers : ((List.range observations.length).map fun i =>
      (observerAt report i, Signed.decode intWidth (slot report i))).Perm
    (observations.map fun o => (o.observer, .ok o.value))
  others : ∀ i, observations.length ≤ i → i < 32 → observerAt report i = 0
  price : HasRank (observations.map Observation.juelsPerFeeCoin) (observations.length / 2) (priceOf report)
  median : ∃ v, median report = .ok v ∧
    HasRank (observations.map Observation.value) (observations.length / 2) v

/-! ## Writing -/

variable {observations sorted : List Observation} {report : Bytes} {timestamp : UInt32} {price : Int}

theorem mapM_encode_eq_ok_iff {width : Nat} (h : width ≠ 0) {blocks : List Bytes} :
    (sorted.mapM fun o => Signed.encode width o.value) = .ok blocks ↔
      (∀ o ∈ sorted, Signed.Fits width o.value) ∧ blocks = sorted.map fun o => Signed.form width o.value := by
  induction sorted generalizing blocks with
  | nil =>
    rw [List.mapM_nil, pure_eq_ok_iff]
    simp [eq_comm]
  | cons o sorted ih =>
    simp only [List.mapM_cons, bind_eq_ok_iff, Signed.encode_eq_ok_iff h, ih, pure_eq_ok_iff,
      List.forall_mem_cons, List.map_cons]
    constructor
    · rintro ⟨_, ⟨ho, rfl⟩, _, ⟨hsorted, rfl⟩, rfl⟩
      exact ⟨⟨ho, hsorted⟩, rfl⟩
    · rintro ⟨⟨ho, hsorted⟩, rfl⟩
      exact ⟨_, ⟨ho, rfl⟩, _, ⟨hsorted, rfl⟩, rfl⟩

/-- The bytes of the observations, one after the other. -/
def slots (sorted : List Observation) : Bytes :=
  sorted.flatMap fun o => Signed.form intWidth o.value

/-- The report on observations that are in order and fit in their slots. -/
def written (timestamp : UInt32) (price : Int) (sorted : List Observation) : Bytes :=
  Bytes.bigEndian 4 timestamp.toNat ++ (observers sorted ++ (UInt8.ofNat sorted.length ::
    (slots sorted ++ Bytes.bigEndian intWidth price.toNat)))

theorem assemble_eq_ok_iff : assemble timestamp price sorted = .ok report ↔
    (∀ o ∈ sorted, Signed.Fits intWidth o.value) ∧ (0 ≤ price ∧ price < Signed.span intWidth) ∧
      report = written timestamp price sorted := by
  have hshape : Bytes.bigEndian 4 timestamp.toNat ++ observers sorted ++ [UInt8.ofNat sorted.length] ++
      (sorted.map fun o => Signed.form intWidth o.value).flatten ++ Bytes.bigEndian intWidth price.toNat =
      written timestamp price sorted := by
    simp [written, slots, List.flatMap_def]
  simp only [assemble, bind_eq_ok_iff, mapM_encode_eq_ok_iff (show intWidth ≠ 0 by decide),
    Signed.encodeUnsigned_eq_ok_iff, pure_eq_ok_iff]
  constructor
  · rintro ⟨_, ⟨hfits, rfl⟩, bytes, ⟨hprice, hbytes⟩, hreport⟩
    rw [hbytes] at hreport
    exact ⟨hfits, hprice, hreport.symm.trans hshape⟩
  · rintro ⟨hfits, hprice, rfl⟩
    exact ⟨_, ⟨hfits, rfl⟩, _, ⟨hprice, rfl⟩, hshape⟩

/-! ## Reading what was written -/

theorem length_slots : (slots sorted).length = intWidth * sorted.length := by
  induction sorted with
  | nil => rfl
  | cons o sorted ih =>
    have hcons : slots (o :: sorted) = Signed.form intWidth o.value ++ slots sorted := rfl
    rw [hcons, List.length_append, Signed.length_form, ih, List.length_cons, Nat.mul_succ, Nat.add_comm]

theorem take_drop_slots (tail : Bytes) {i : Nat} (hi : i < sorted.length) :
    ((slots sorted ++ tail).drop (intWidth * i)).take intWidth = Signed.form intWidth sorted[i].value := by
  induction sorted generalizing i with
  | nil => cases hi
  | cons o sorted ih =>
    have hcons : slots (o :: sorted) ++ tail = Signed.form intWidth o.value ++ (slots sorted ++ tail) :=
      List.append_assoc _ _ _
    have hlength := Signed.length_form intWidth o.value
    rw [hcons]
    cases i with
    | zero => exact List.take_left' hlength
    | succ i =>
      have hskip : intWidth * (i + 1) = (Signed.form intWidth o.value).length + intWidth * i := by
        rw [hlength, Nat.mul_succ, Nat.add_comm]
      rw [hskip, List.drop_length_add_append, List.getElem_cons_succ]
      exact ih (Nat.lt_of_succ_lt_succ hi)

section
variable (timestamp price)

theorem getD_written (sorted : List Observation) (n : Nat) : (written timestamp price sorted).getD (4 + n) 0 =
    (observers sorted ++ (UInt8.ofNat sorted.length ::
      (slots sorted ++ Bytes.bigEndian intWidth price.toNat))).getD n 0 := by
  have hlength := Bytes.length_bigEndian 4 timestamp.toNat
  rw [written, List.getD_append_right _ _ _ _ (by omega), hlength, Nat.add_sub_cancel_left]

theorem timestampOf_written (sorted : List Observation) :
    timestampOf (written timestamp price sorted) = timestamp.toNat := by
  have hlt := timestamp.toNat_lt
  rw [timestampOf, written, List.take_left' (Bytes.length_bigEndian _ _), Bytes.toNat_bigEndian,
    Nat.mod_eq_of_lt (by omega)]

variable (hroom : sorted.length ≤ maxObservers)
include hroom

theorem length_observers : (observers sorted).length = maxObservers := by
  simp only [observers, Bytes.zeros, List.length_append, List.length_map, List.length_replicate]
  omega

theorem length_written : (written timestamp price sorted).length = length sorted.length := by
  simp only [written, List.length_append, List.length_cons, Bytes.length_bigEndian, length_observers hroom,
    length_slots, length, headLength]
  omega

theorem drop_written (n : Nat) : (written timestamp price sorted).drop (headLength + n) =
    (slots sorted ++ Bytes.bigEndian intWidth price.toNat).drop n := by
  have hhead : headLength + n = (Bytes.bigEndian 4 timestamp.toNat).length +
      ((observers sorted).length + (n + 1)) := by
    rw [Bytes.length_bigEndian, length_observers hroom, headLength]
    omega
  rw [written, hhead, List.drop_length_add_append, List.drop_length_add_append, List.drop_succ_cons]

theorem observerAt_written {i : Nat} (hi : i < sorted.length) :
    observerAt (written timestamp price sorted) i = sorted[i].observer := by
  have hlength := length_observers hroom
  rw [observerAt, getD_written timestamp price sorted, List.getD_append _ _ _ _ (by omega), observers,
    List.getD_append _ _ _ _ (by simpa using hi)]
  simp [List.getD_eq_getElem?_getD, hi]

theorem observerAt_written_of_le {i : Nat} (hi : sorted.length ≤ i) (hlt : i < maxObservers) :
    observerAt (written timestamp price sorted) i = 0 := by
  have hlength := length_observers hroom
  rw [observerAt, getD_written timestamp price sorted, List.getD_append _ _ _ _ (by omega), observers,
    List.getD_append_right _ _ _ _ (by simpa using hi)]
  simp only [Bytes.zeros, List.getD_eq_getElem?_getD, List.getElem?_replicate]
  split <;> rfl

theorem countOf_written : countOf (written timestamp price sorted) = sorted.length := by
  have hlength := length_observers hroom
  have hplace : headLength - 1 = 4 + maxObservers := rfl
  have hbyte : sorted.length < 256 := Nat.lt_of_le_of_lt hroom (by decide)
  rw [countOf, hplace, getD_written timestamp price sorted, List.getD_append_right _ _ _ _ (by omega), hlength,
    Nat.sub_self, List.getD_cons_zero, UInt8.toNat_ofNat', Nat.mod_eq_of_lt hbyte]

theorem slot_written {i : Nat} (hi : i < sorted.length) :
    slot (written timestamp price sorted) i = Signed.form intWidth sorted[i].value := by
  rw [slot, drop_written timestamp price hroom, take_drop_slots _ hi]

theorem priceOf_written (hnonneg : 0 ≤ price) (hlt : price < Signed.span intWidth) :
    priceOf (written timestamp price sorted) = price := by
  have hplace : (written timestamp price sorted).length - intWidth = headLength + (slots sorted).length := by
    rw [length_written timestamp price hroom, length_slots, length]
    omega
  rw [priceOf, hplace, drop_written timestamp price hroom, List.drop_append_length]
  exact Signed.toNat_bigEndian_of_lt hnonneg hlt

section
variable (hfits : ∀ o ∈ sorted, Signed.Fits intWidth o.value)
include hfits

theorem decode_slot_written {i : Nat} (hi : i < sorted.length) :
    Signed.decode intWidth (slot (written timestamp price sorted) i) = .ok sorted[i].value := by
  rw [slot_written timestamp price hroom hi]
  exact Signed.decode_form (by decide) (hfits _ (List.getElem_mem hi))

theorem map_decode_slot_written : (List.range sorted.length).map (fun i =>
    Signed.decode intWidth (slot (written timestamp price sorted) i)) =
      (sorted.map Observation.value).map .ok := by
  refine List.ext_getElem (by simp) fun i hi _ => ?_
  rw [List.length_map, List.length_range] at hi
  simp [decode_slot_written timestamp price hroom hfits hi]

theorem map_observed_written : (List.range sorted.length).map (fun i =>
    (observerAt (written timestamp price sorted) i,
      Signed.decode intWidth (slot (written timestamp price sorted) i))) =
      sorted.map fun o => (o.observer, .ok o.value) := by
  refine List.ext_getElem (by simp) fun i hi _ => ?_
  rw [List.length_map, List.length_range] at hi
  simp [decode_slot_written timestamp price hroom hfits hi, observerAt_written timestamp price hroom hi]

theorem median_written (hmiddle : sorted.length / 2 < sorted.length) :
    median (written timestamp price sorted) = .ok sorted[sorted.length / 2].value := by
  have hlength := length_written timestamp price hroom
  have hcount := countOf_written timestamp price hroom
  have hreadable : Readable (written timestamp price sorted) := by
    constructor
    case head =>
      rw [hlength, length]
      omega
    case some => omega
    case room => rw [hlength, hcount]
  rw [median_eq_ok_iff, hcount]
  exact ⟨hreadable, decode_slot_written timestamp price hroom hfits hmiddle⟩

end

end

/-- What is written tells of the observations if it is made from them in ascending order. -/
theorem encodes_written (hperm : sorted.Perm observations) (hsome : observations ≠ [])
    (hroom : observations.length ≤ maxObservers)
    (hascending : (sorted.map Observation.value).Pairwise (· ≤ ·))
    (hfits : ∀ o ∈ observations, Signed.Fits intWidth o.value)
    (htimestamp : HasRank (observations.map fun o => (o.timestamp.toNat : Int)) (observations.length / 2)
      timestamp.toNat)
    (hprice : HasRank (observations.map Observation.juelsPerFeeCoin) (observations.length / 2) price)
    (hrange : 0 ≤ price ∧ price < Signed.span intWidth) :
    Encodes observations (written timestamp price sorted) := by
  have hpos := List.length_pos_iff.2 hsome
  have hlength := hperm.length_eq
  have hfits' : ∀ o ∈ sorted, Signed.Fits intWidth o.value := fun o ho => hfits o (hperm.mem_iff.1 ho)
  rw [← hlength] at hpos hroom
  have hmiddle : sorted.length / 2 < sorted.length := by omega
  have hrank := (hasRank_getElem hascending (by rwa [List.length_map])).perm (hperm.map Observation.value)
  rw [List.getElem_map] at hrank
  constructor
  case length_eq => rw [length_written timestamp price hroom, hlength]
  case timestamp => rwa [timestampOf_written]
  case count => rw [countOf_written timestamp price hroom, hlength]
  case values =>
    rw [← hlength]
    exact ⟨_, hascending, hperm.map _, map_decode_slot_written timestamp price hroom hfits'⟩
  case observers =>
    rw [← hlength, map_observed_written timestamp price hroom hfits']
    exact hperm.map _
  case others =>
    rw [← hlength]
    exact fun i hi hlt => observerAt_written_of_le timestamp price hroom hi hlt
  case price => rwa [priceOf_written timestamp price hroom hrange.1 hrange.2]
  case median =>
    rw [← hlength]
    exact ⟨_, median_written timestamp price hroom hfits' hmiddle, hrank⟩

/-! ## Building -/

def byTime (observations : List Observation) : List Observation :=
  sortedBy (fun o => o.timestamp.toNat) observations

def byPrice (observations : List Observation) : List Observation :=
  sortedBy Observation.juelsPerFeeCoin (byTime observations)

def byValue (observations : List Observation) : List Observation :=
  sortedBy Observation.value (byPrice observations)

theorem perm_byPrice (observations : List Observation) : (byPrice observations).Perm observations :=
  (perm_sortedBy _ _).trans (perm_sortedBy _ _)

theorem perm_byValue (observations : List Observation) : (byValue observations).Perm observations :=
  (perm_sortedBy _ _).trans (perm_byPrice _)

theorem build_of_cons {first : Observation} {rest : List Observation} (h : observations = first :: rest) :
    build observations = if maxObservers < observations.length then
      .error (.codec s!"too many observations: {observations.length} (max {maxObservers})")
      else assemble (middle first (byTime observations)).timestamp
        (middle first (byPrice observations)).juelsPerFeeCoin (byValue observations) := by
  rw [h]
  rfl

theorem build_cons_eq_ok_iff {first : Observation} {rest : List Observation} (h : observations = first :: rest) :
    build observations = .ok report ↔ observations.length ≤ maxObservers ∧
      (∀ o ∈ observations, Signed.Fits intWidth o.value) ∧
      (0 ≤ (middle first (byPrice observations)).juelsPerFeeCoin ∧
        (middle first (byPrice observations)).juelsPerFeeCoin < Signed.span intWidth) ∧
      report = written (middle first (byTime observations)).timestamp
        (middle first (byPrice observations)).juelsPerFeeCoin (byValue observations) := by
  rw [build_of_cons h]
  split
  next hmany => simp [Nat.not_le.2 hmany]
  next hfew => simp only [assemble_eq_ok_iff, (perm_byValue observations).mem_iff, Nat.not_lt.1 hfew, true_and]

theorem hasRank_price (first : Observation) (h : observations ≠ []) :
    HasRank (observations.map Observation.juelsPerFeeCoin) (observations.length / 2)
      (middle first (byPrice observations)).juelsPerFeeCoin :=
  hasRank_middle first Observation.juelsPerFeeCoin (perm_sortedBy (fun o => o.timestamp.toNat) observations) h

theorem exists_of_build (hbuild : build observations = .ok report) : ∃ first, observations ≠ [] ∧
    observations.length ≤ maxObservers ∧ (∀ o ∈ observations, Signed.Fits intWidth o.value) ∧
    (0 ≤ (middle first (byPrice observations)).juelsPerFeeCoin ∧
      (middle first (byPrice observations)).juelsPerFeeCoin < Signed.span intWidth) ∧
    report = written (middle first (byTime observations)).timestamp
      (middle first (byPrice observations)).juelsPerFeeCoin (byValue observations) := by
  cases hobservations : observations with
  | nil =>
    rw [hobservations] at hbuild
    cases hbuild
  | cons first rest =>
    rw [← hobservations]
    exact ⟨first, hobservations ▸ List.cons_ne_nil first rest, (build_cons_eq_ok_iff hobservations).1 hbuild⟩

/-- A report that is built tells of the observations, and it could be built on them. -/
theorem encodes_of_build (hbuild : build observations = .ok report) :
    Encodable observations ∧ Encodes observations report := by
  obtain ⟨first, hsome, hroom, hfits, hrange, rfl⟩ := exists_of_build hbuild
  have htimestamp := hasRank_middle first (fun o => (o.timestamp.toNat : Int)) (.refl observations) hsome
  have hprice := hasRank_price first hsome
  exact ⟨⟨List.length_pos_iff.2 hsome, hroom, hfits, _, hprice, hrange⟩,
    encodes_written (perm_byValue observations) hsome hroom (pairwise_sortedBy Observation.value _) hfits
      htimestamp hprice hrange⟩

theorem exists_build (h : Encodable observations) : ∃ report, build observations = .ok report := by
  obtain ⟨hpos, hroom, hfits, price, hprice, hrange⟩ := h
  cases hobservations : observations with
  | nil =>
    rw [hobservations] at hpos
    cases hpos
  | cons first rest =>
    have hsome : observations ≠ [] := List.length_pos_iff.1 hpos
    obtain rfl := hprice.unique (hasRank_price first hsome)
    rw [← hobservations]
    exact ⟨_, (build_cons_eq_ok_iff hobservations).2 ⟨hroom, hfits, hrange, rfl⟩⟩

/-- A report is built on exactly those observations that can be written, and then it tells of all of them. -/
theorem build_exact (observations : List Observation) :
    (∃ report, build observations = .ok report ∧ Encodable observations ∧ Encodes observations report) ∨
      (∃ e, build observations = .error e) ∧ ¬Encodable observations := by
  cases hbuild : build observations with
  | ok report => exact .inl ⟨report, rfl, encodes_of_build hbuild⟩
  | error e =>
    refine .inr ⟨⟨e, rfl⟩, fun h => ?_⟩
    obtain ⟨report, hok⟩ := exists_build h
    rw [hbuild] at hok
    cases hok

end ReportRelay.Report
