import Mathlib.Data.List.Nodup
import ReportRelay.Proofs.Report.Order

/-!
# Reports on shuffled observations

In whichever order the same observations come, no report can be built for the same reason, or the reports are equal but
for the order of the observers among observations that agree in value, price and timestamp.
-/

namespace ReportRelay.Report

variable {observations shuffled sorted other : List Observation} {timestamp : UInt32} {price : Int}

/-- Two reports on these observations differ at most in the order of observers of the same reading. -/
structure AlikeOn (observations : List Observation) (report other : Bytes) : Prop where
  elsewhere : ∀ i, i < 4 ∨ 36 ≤ i → report[i]? = other[i]?
  identical : (observations.map Observation.reading).Nodup → report = other
  seats : ∀ reading, ((slotsOf observations reading).map (observerAt report)).Perm
    ((slotsOf observations reading).map (observerAt other))
  /-- The slots of a reading are taken by the observers who told it. -/
  occupants : ∀ reading, ((slotsOf observations reading).map (observerAt report)).Perm
    ((observations.filter (·.reading = reading)).map Observation.observer)
  values : ∀ reading, ∀ i ∈ slotsOf observations reading,
    Signed.decode intWidth (slot report i) = .ok (ofLex reading).1

/-! ## Reports of the same values -/

theorem assemble_eq_error_of_values_eq {e : Error} (hvalues : sorted.map Observation.value = other.map Observation.value)
    (h : assemble timestamp price sorted = .error e) : assemble timestamp price other = .error e := by
  have hencode (observations : List Observation) : (observations.mapM fun o => Signed.encode intWidth o.value) =
      (observations.map Observation.value).mapM (Signed.encode intWidth) := by
    rw [List.mapM_map]
    rfl
  unfold assemble at h ⊢
  rw [hencode, ← hvalues, ← hencode]
  cases hblocks : sorted.mapM fun o => Signed.encode intWidth o.value with
  | error _ =>
    rw [hblocks] at h
    exact h
  | ok blocks =>
    rw [hblocks] at h
    cases hprice : Signed.encodeUnsigned intWidth price with
    | error _ =>
      rw [hprice] at h
      exact h
    | ok bytes =>
      rw [hprice] at h
      cases h

theorem slots_eq_of_values_eq (hvalues : sorted.map Observation.value = other.map Observation.value) :
    slots sorted = slots other := by
  have hslots (observations : List Observation) :
      slots observations = (observations.map Observation.value).flatMap (Signed.form intWidth) := by
    rw [List.flatMap_map]
    rfl
  rw [hslots, hvalues, ← hslots]

theorem getElem?_written_of_values_eq (hvalues : sorted.map Observation.value = other.map Observation.value)
    (hroom : sorted.length ≤ maxObservers) {i : Nat} (hi : i < 4 ∨ 36 ≤ i) :
    (written timestamp price sorted)[i]? = (written timestamp price other)[i]? := by
  have hlength : sorted.length = other.length := by simpa using congrArg List.length hvalues
  have hobservers := length_observers hroom
  have hothers : (observers other).length = maxObservers := length_observers (hlength ▸ hroom)
  have hroom' : maxObservers = 32 := rfl
  unfold written
  rw [slots_eq_of_values_eq hvalues, hlength]
  rcases hi with hlt | hge
  · simp only [List.getElem?_append, Bytes.length_bigEndian, hlt, if_true]
  · have hhead : ¬i < 4 := by omega
    have hseats : ¬i - 4 < maxObservers := by omega
    simp only [List.getElem?_append, Bytes.length_bigEndian, hobservers, hothers, hhead, hseats, if_false]

/-! ## Shuffled observations -/

section
variable (h : observations.Perm shuffled)
include h

theorem perm_byValue_of_perm : (byValue observations).Perm (byValue shuffled) :=
  ((perm_byValue observations).trans h).trans (perm_byValue shuffled).symm

theorem values_eq_of_perm :
    (byValue observations).map Observation.value = (byValue shuffled).map Observation.value := by
  apply List.Perm.eq_of_pairwise
  · exact fun _ _ _ _ => Int.le_antisymm
  · exact pairwise_sortedBy Observation.value _
  · exact pairwise_sortedBy Observation.value _
  · exact (perm_byValue_of_perm h).map Observation.value

/-- Where no two observations have the same reading, there is only one order. -/
theorem byValue_eq_of_perm (hdistinct : (observations.map Observation.reading).Nodup) :
    byValue observations = byValue shuffled := by
  apply List.Perm.eq_of_pairwise
  · intro a b ha hb hab hba
    have ha := (perm_byValue observations).mem_iff.1 ha
    have hb := h.mem_iff.2 ((perm_byValue shuffled).mem_iff.1 hb)
    exact List.inj_on_of_nodup_map hdistinct ha hb (le_antisymm hab hba)
  · exact ascending_byValue observations
  · exact ascending_byValue shuffled
  · exact perm_byValue_of_perm h

theorem timestamp_eq_of_perm (first other : Observation) (hsome : observations ≠ []) :
    (middle first (byTime observations)).timestamp = (middle other (byTime shuffled)).timestamp := by
  have hrank := hasRank_middle first (fun o => o.timestamp.toNat) (.refl observations) hsome
  have hother := hasRank_middle other (fun o => o.timestamp.toNat) h.symm hsome
  exact UInt32.toNat_inj.1 (Int.ofNat_inj.1 (hrank.unique hother))

theorem price_eq_of_perm (first other : Observation) (hsome : observations ≠ []) :
    (middle first (byPrice observations)).juelsPerFeeCoin = (middle other (byPrice shuffled)).juelsPerFeeCoin := by
  have htime (observations : List Observation) := perm_sortedBy (fun o => o.timestamp.toNat) observations
  have hrank := hasRank_middle first Observation.juelsPerFeeCoin (htime observations) hsome
  have hother := hasRank_middle other Observation.juelsPerFeeCoin ((htime shuffled).trans h.symm) hsome
  exact hrank.unique hother

theorem alikeOn_written (hroom : observations.length ≤ maxObservers)
    (hfits : ∀ o ∈ byValue observations, Signed.Fits intWidth o.value) :
    AlikeOn observations (written timestamp price (byValue observations))
      (written timestamp price (byValue shuffled)) := by
  have hlength : (byValue observations).length ≤ maxObservers := (perm_byValue observations).length_eq ▸ hroom
  have hlength' : (byValue shuffled).length ≤ maxObservers := (perm_byValue_of_perm h).length_eq ▸ hlength
  have hseats (reading) := map_observerAt_slotsOf timestamp price hlength (ascending_byValue observations) reading
  have hseats' (reading) := map_observerAt_slotsOf timestamp price hlength' (ascending_byValue shuffled) reading
  have hslots (reading) : slotsOf observations reading = slotsOf (byValue observations) reading :=
    slotsOf_eq_of_perm (perm_byValue observations).symm reading
  constructor
  case elsewhere => exact fun i hi => getElem?_written_of_values_eq (values_eq_of_perm h) hlength hi
  case identical =>
    intro hdistinct
    rw [byValue_eq_of_perm h hdistinct]
  case seats =>
    intro reading
    rw [hslots, hseats, slotsOf_eq_of_perm (perm_byValue_of_perm h), hseats']
    exact ((perm_byValue_of_perm h).filter _).map _
  case occupants =>
    intro reading
    rw [hslots, hseats]
    exact ((perm_byValue observations).filter _).map _
  case values =>
    intro reading i hi
    rw [hslots] at hi
    exact decode_slot_of_mem_slotsOf timestamp price hlength (ascending_byValue observations) hfits hi

/-- A report does not depend on the order of the observations, and neither does the reason why there is none. Only the
observers of the same reading may stand in another order. -/
theorem build_of_perm :
    (∃ e, build observations = .error e ∧ build shuffled = .error e) ∨
      ∃ report other, build observations = .ok report ∧ build shuffled = .ok other ∧
        AlikeOn observations report other := by
  cases hobservations : observations with
  | nil =>
    have hshuffled := (hobservations ▸ h).symm.eq_nil
    rw [hshuffled]
    exact .inl ⟨_, rfl, rfl⟩
  | cons first rest =>
    have hsome : observations ≠ [] := hobservations ▸ List.cons_ne_nil first rest
    obtain ⟨first', rest', hshuffled⟩ : ∃ first' rest', shuffled = first' :: rest' := by
      apply List.ne_nil_iff_exists_cons.1
      rintro rfl
      exact hsome h.eq_nil
    rw [← hobservations, build_of_cons hobservations, build_of_cons hshuffled, ← h.length_eq,
      ← timestamp_eq_of_perm h first first' hsome, ← price_eq_of_perm h first first' hsome]
    split
    next hmany => exact .inl ⟨_, rfl, rfl⟩
    next hfew =>
      cases hreport : assemble (middle first (byTime observations)).timestamp
          (middle first (byPrice observations)).juelsPerFeeCoin (byValue observations) with
      | error e => exact .inl ⟨e, rfl, assemble_eq_error_of_values_eq (values_eq_of_perm h) hreport⟩
      | ok report =>
        obtain ⟨hfits, hrange, rfl⟩ := assemble_eq_ok_iff.1 hreport
        have hfits' : ∀ o ∈ byValue shuffled, Signed.Fits intWidth o.value :=
          fun o ho => hfits o ((perm_byValue_of_perm h).mem_iff.2 ho)
        exact .inr ⟨_, _, rfl, assemble_eq_ok_iff.2 ⟨hfits', hrange, rfl⟩, alikeOn_written h (Nat.not_lt.1 hfew) hfits⟩

end

theorem observers_of_build {report : Bytes} (h : build observations = .ok report) :
    (report.drop 4).take maxObservers = observers (byValue observations) := by
  obtain ⟨_, _, hroom, _, _, rfl⟩ := exists_of_build h
  have hlength : (observers (byValue observations)).length = maxObservers :=
    length_observers ((perm_byValue observations).length_eq ▸ hroom)
  rw [written, List.drop_left' (Bytes.length_bigEndian _ _), List.take_left' hlength]

/-- Of three observers two told the same. -/
def tied : List Observation := [⟨5, 1, 9, 7⟩, ⟨2, 0, 8, 1⟩, ⟨5, 1, 9, 3⟩]

/-- In the reverse order only the two observers who told the same change places. -/
theorem build_of_tied : tied.Perm tied.reverse ∧
    ∃ report other, build tied = .ok report ∧ build tied.reverse = .ok other ∧ AlikeOn tied report other ∧
      (report.drop 4).take 32 = [1, 7, 3] ++ Bytes.zeros 29 ∧ (other.drop 4).take 32 = [1, 3, 7] ++ Bytes.zeros 29 := by
  have hperm : tied.Perm tied.reverse := (List.reverse_perm tied).symm
  have hsorted : byValue tied = [⟨2, 0, 8, 1⟩, ⟨5, 1, 9, 7⟩, ⟨5, 1, 9, 3⟩] := by
    simp [byValue, byPrice, byTime, sortedBy, List.mergeSort, tied]
  have hreversed : byValue tied.reverse = [⟨2, 0, 8, 1⟩, ⟨5, 1, 9, 3⟩, ⟨5, 1, 9, 7⟩] := by
    simp [byValue, byPrice, byTime, sortedBy, List.mergeSort, tied]
  have hencodable : Encodable tied :=
    ⟨by decide, by decide, by decide, 9, by unfold HasRank; decide, by decide, by decide⟩
  obtain ⟨_, hok⟩ := exists_build hencodable
  refine ⟨hperm, ?_⟩
  rcases build_of_perm hperm with ⟨e, hfailed, _⟩ | ⟨report, other, hbuild, hother, halike⟩
  · rw [hfailed] at hok
    cases hok
  · have hseats := observers_of_build hbuild
    have hothers := observers_of_build hother
    rw [hsorted] at hseats
    rw [hreversed] at hothers
    exact ⟨report, other, hbuild, hother, halike, hseats, hothers⟩

end ReportRelay.Report
