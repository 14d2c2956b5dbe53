import ReportRelay.Proofs.Report.Layout

/-!
# Reports and faulty observers

Whatever fewer than half of the observers tell, the value of middle rank lies between two values that others told.
This holds for each of the three numbers that a report is read for, even if different observers lie about each.
-/

namespace ReportRelay.Report

section
variable {values faulty honest : List Int} {k : Nat} {v : Int}

/-- The number lies between the smallest and the largest of the values. -/
def Spans (values : List Int) (v : Int) : Prop :=
  (∃ low ∈ values, low ≤ v) ∧ ∃ high ∈ values, v ≤ high

/-- A rank that faulty values cannot fill on their own has an honest value up to it. -/
theorem HasRank.exists_le (h : HasRank values k v) (hperm : values.Perm (faulty ++ honest))
    (hfew : faulty.length ≤ k) : ∃ low ∈ honest, low ≤ v := by
  obtain ⟨_, hupTo⟩ := h
  have hfaulty : faulty.countP (· ≤ v) ≤ faulty.length := List.countP_le_length
  rw [hperm.countP_eq, List.countP_append] at hupTo
  have hpos : 0 < honest.countP (· ≤ v) := by omega
  obtain ⟨low, hlow, hle⟩ := List.countP_pos_iff.1 hpos
  exact ⟨low, hlow, of_decide_eq_true hle⟩

/-- Where faulty values cannot fill all higher ranks on their own, there is an honest value from it on. -/
theorem HasRank.exists_ge (h : HasRank values k v) (hperm : values.Perm (faulty ++ honest))
    (hfew : k < honest.length) : ∃ high ∈ honest, v ≤ high := by
  by_contra hnone
  have hall : honest.countP (· < v) = honest.length := by
    refine List.countP_eq_length.2 fun x hx => decide_eq_true ?_
    by_contra hge
    exact hnone ⟨x, hx, Int.not_lt.1 hge⟩
  obtain ⟨hbelow, _⟩ := h
  rw [hperm.countP_eq, List.countP_append] at hbelow
  omega

/-- A minority cannot move the value of middle rank out of the range of the others. -/
theorem HasRank.spans (h : HasRank values (values.length / 2) v) (hperm : values.Perm (faulty ++ honest))
    (hminority : 2 * faulty.length + 1 ≤ values.length) : Spans honest v := by
  have hlength := hperm.length_eq
  rw [List.length_append] at hlength
  exact ⟨h.exists_le hperm (by omega), h.exists_ge hperm (by omega)⟩

end

variable {observations faulty honest : List Observation} {report : Bytes}

theorem spans_of_hasRank {key : Observation → Int} {v : Int} (hperm : observations.Perm (faulty ++ honest))
    (hminority : 2 * faulty.length + 1 ≤ observations.length)
    (h : HasRank (observations.map key) (observations.length / 2) v) : Spans (honest.map key) v := by
  have hmap : (observations.map key).Perm (faulty.map key ++ honest.map key) := by
    rw [← List.map_append]
    exact hperm.map key
  have hrank : HasRank (observations.map key) ((observations.map key).length / 2) v := by rwa [List.length_map]
  exact hrank.spans hmap (by simpa using hminority)

/-- If fewer than half of the observations are arbitrary, the timestamp, the price and the median of a report each lie
between two of the others. -/
theorem spans_of_build (hperm : observations.Perm (faulty ++ honest))
    (hminority : 2 * faulty.length + 1 ≤ observations.length) (hbuild : build observations = .ok report) :
    Spans (honest.map fun o => (o.timestamp.toNat : Int)) (timestampOf report) ∧
      Spans (honest.map Observation.juelsPerFeeCoin) (priceOf report) ∧
      ∃ v, median report = .ok v ∧ Spans (honest.map Observation.value) v := by
  obtain ⟨_, hencodes⟩ := encodes_of_build hbuild
  obtain ⟨v, hmedian, hrank⟩ := hencodes.median
  exact ⟨spans_of_hasRank hperm hminority hencodes.timestamp, spans_of_hasRank hperm hminority hencodes.price,
    v, hmedian, spans_of_hasRank hperm hminority hrank⟩

/-- Of five observers two lie, each as grossly as a report allows. -/
theorem spans_of_two_liars :
    let honest : List Observation := [⟨100, 7, 50, 0⟩, ⟨102, 5, 52, 1⟩, ⟨101, 6, 51, 2⟩]
    let liars : List Observation := [⟨0, 2 ^ 127 - 1, 2 ^ 128 - 1, 3⟩, ⟨0, -2 ^ 127, 2 ^ 128 - 1, 4⟩]
    ∃ report, build (liars ++ honest) = .ok report ∧ 2 * liars.length + 1 ≤ (liars ++ honest).length ∧
      Spans [100, 102, 101] (timestampOf report) ∧ Spans [50, 52, 51] (priceOf report) ∧
      ∃ v, median report = .ok v ∧ Spans [7, 5, 6] v := by
  intro honest liars
  have hencodable : Encodable (liars ++ honest) :=
    ⟨by decide, by decide, by decide, 52, by unfold HasRank; decide, by decide, by decide⟩
  obtain ⟨report, hbuild⟩ := exists_build hencodable
  exact ⟨report, hbuild, by decide, spans_of_build (.refl (liars ++ honest)) (by decide) hbuild⟩

end ReportRelay.Report
