import ReportRelay.Proofs.Report.Layout

/-!
# Reports of any origin

Any bytes may come as a report. The value of middle rank is read without going beyond them, however many observations
they say there are. It is refused if the head, the observations or the price are cut off or there is no observation.
Otherwise it is the two's complement of the bytes in the middle, whatever follows the report.
-/

namespace ReportRelay.Report

variable {report : Bytes} {v : Int}

/-! ## Reading within bounds -/

/-- A read that goes beyond the end comes to nothing. -/
def Source.checked (bytes : Bytes) : Source Option where
  length := bytes.length
  byteAt place := bytes[place]?
  slice start width := if start + width ≤ bytes.length then some ((bytes.drop start).take width) else none

/-- The source has these bytes. What comes of a read beyond them is not said. -/
structure Source.Has {m : Type → Type} [Monad m] (source : Source m) (bytes : Bytes) : Prop where
  length_eq : source.length = bytes.length
  byteAt_eq : ∀ place, place < bytes.length → source.byteAt place = pure (bytes.getD place 0)
  slice_eq : ∀ start width, start + width ≤ bytes.length →
    source.slice start width = pure ((bytes.drop start).take width)

theorem has_ofBytes (bytes : Bytes) : (Source.ofBytes bytes).Has bytes where
  length_eq := rfl
  byteAt_eq _ _ := rfl
  slice_eq _ _ _ := rfl

theorem has_checked (bytes : Bytes) : (Source.checked bytes).Has bytes where
  length_eq := rfl
  byteAt_eq place h := by
    rw [List.getD_eq_getElem bytes 0 h]
    exact List.getElem?_eq_getElem h
  slice_eq _ _ h := if_pos h

theorem lt_length_of_head (h : headLength ≤ report.length) : headLength - 1 < report.length :=
  Nat.lt_of_lt_of_le (by decide) h

theorem Readable.slot_le (h : Readable report) :
    headLength + intWidth * (countOf report / 2) + intWidth ≤ report.length := by
  -- the observation of middle rank ends before the price begins
  have hhalf := Nat.mul_le_mul_left intWidth (Nat.div_le_self (countOf report) 2)
  have hroom := h.room
  unfold length at hroom
  omega

/-- Whatever lies beyond a report, the same comes of it, as nothing there is read. -/
theorem medianFrom_eq_pure {m : Type → Type} [Monad m] [LawfulMonad m] {source : Source m}
    (h : source.Has report) : medianFrom source = pure (median report) := by
  have hbytes := has_ofBytes report
  unfold median medianFrom
  rw [h.length_eq, hbytes.length_eq]
  split
  next => rfl
  next hhead =>
    have hplace := lt_length_of_head (Nat.not_lt.1 hhead)
    rw [h.byteAt_eq _ hplace, hbytes.byteAt_eq _ hplace, pure_bind, pure_bind]
    change (if countOf report = 0 then _ else if report.length < length (countOf report) then _ else _) =
      pure (if countOf report = 0 then _ else if report.length < length (countOf report) then _ else _)
    split
    next => rfl
    next hsome =>
      split
      next => rfl
      next hroom =>
        have hreadable : Readable report :=
          ⟨Nat.not_lt.1 hhead, Nat.pos_of_ne_zero hsome, Nat.not_lt.1 hroom⟩
        change source.slice (headLength + intWidth * (countOf report / 2)) intWidth >>= _ = _
        rw [h.slice_eq _ _ hreadable.slot_le, pure_bind]
        rfl

/-! ## What is read -/

theorem readable_iff : Readable report ↔
    37 ≤ report.length ∧ 1 ≤ countOf report ∧ 37 + 16 * countOf report + 16 ≤ report.length :=
  ⟨fun h => ⟨h.head, h.some, h.room⟩, fun ⟨hhead, hsome, hroom⟩ => ⟨hhead, hsome, hroom⟩⟩

theorem Readable.length_slot (h : Readable report) : (slot report (countOf report / 2)).length = intWidth := by
  have hle := h.slot_le
  rw [slot, List.length_take, List.length_drop]
  omega

theorem extract_eq_slot (report : Bytes) (i : Nat) :
    report.extract (37 + 16 * i) (37 + 16 * i + 16) = slot report i := by
  rw [List.extract_eq_take_drop, Nat.add_sub_cancel_left]
  rfl

theorem median_eq_ok_iff_ofBytes : median report = .ok v ↔
    Readable report ∧ v = Signed.ofBytes (slot report (countOf report / 2)) := by
  rw [median_eq_ok_iff]
  refine and_congr_right fun h => ?_
  rw [Signed.decode_eq_ok_iff (by decide), and_iff_right h.length_slot]

theorem exists_median_iff : (∃ v, median report = .ok v) ↔ Readable report := by
  simp only [median_eq_ok_iff_ofBytes, exists_and_left, exists_eq, and_true]

/-! ## What follows a report -/

theorem countOf_append (h : headLength ≤ report.length) (tail : Bytes) :
    countOf (report ++ tail) = countOf report := by
  unfold countOf
  rw [List.getD_append _ _ _ _ (lt_length_of_head h)]

theorem slot_append {i : Nat} (h : headLength + intWidth * i + intWidth ≤ report.length) (tail : Bytes) :
    slot (report ++ tail) i = slot report i := by
  unfold slot
  rw [List.drop_append_of_le_length (by omega), List.take_append_of_le_length (by rw [List.length_drop]; omega)]

theorem Readable.append (h : Readable report) (tail : Bytes) : Readable (report ++ tail) := by
  obtain ⟨hhead, hsome, hroom⟩ := h
  have hlength : report.length ≤ (report ++ tail).length := by simp
  have hcount := countOf_append hhead tail
  exact ⟨hhead.trans hlength, hcount ▸ hsome, hcount ▸ hroom.trans hlength⟩

theorem median_append (h : median report = .ok v) (tail : Bytes) : median (report ++ tail) = .ok v := by
  obtain ⟨hreadable, hvalue⟩ := median_eq_ok_iff.1 h
  rw [median_eq_ok_iff, countOf_append hreadable.head, slot_append hreadable.slot_le]
  exact ⟨hreadable.append tail, hvalue⟩

/-! ## Safety -/

/-- These bytes can safely be read as a report. -/
structure Safe (report : Bytes) : Prop where
  /-- No read goes beyond them. -/
  within : medianFrom (.checked report) = some (median report)
  readable : (∃ v, median report = .ok v) ↔
    37 ≤ report.length ∧ 1 ≤ countOf report ∧ 37 + 16 * countOf report + 16 ≤ report.length
  value : ∀ v, median report = .ok v → v = Signed.twosComplement
    (report.extract (37 + 16 * (countOf report / 2)) (37 + 16 * (countOf report / 2) + 16))
  range : ∀ v, median report = .ok v → -2 ^ 127 ≤ v ∧ v < 2 ^ 127
  stable : ∀ v, median report = .ok v → ∀ tail, median (report ++ tail) = .ok v

theorem safe_of_any_bytes (report : Bytes) : Safe report := by
  constructor
  case within => exact medianFrom_eq_pure (has_checked report)
  case readable => rw [exists_median_iff, readable_iff]
  case value =>
    intro v h
    rw [extract_eq_slot, ← Signed.ofBytes_eq_twosComplement]
    exact (median_eq_ok_iff_ofBytes.1 h).2
  case range =>
    intro v h
    obtain ⟨hreadable, rfl⟩ := median_eq_ok_iff_ofBytes.1 h
    have hlength := hreadable.length_slot
    have hsome : (slot report (countOf report / 2)).length ≠ 0 := by
      rw [hlength]
      decide
    have hfits := Signed.fits_ofBytes hsome
    rw [hlength] at hfits
    exact hfits
  case stable => exact fun v h tail => median_append h tail

end ReportRelay.Report
