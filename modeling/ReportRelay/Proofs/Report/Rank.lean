import Mathlib.Data.List.Basic
import ReportRelay.Report

/-!
# Ranks among observations

Which place a value takes once all of them are in ascending order is told by counting those below it and those up to
it, however ties are arranged. Sorting puts the value of a rank at the place of that number, so that the middle of a
sorted list is the value of middle rank, whichever order it was sorted from.
-/

namespace ReportRelay.Report

/-! ## Counting -/

section
variable {values others : List Int} {k : Nat} {v w : Int}

/-- The value takes place `k`, counted from zero, when all are in ascending order. -/
def HasRank (values : List Int) (k : Nat) (v : Int) : Prop :=
  values.countP (· < v) ≤ k ∧ k < values.countP (· ≤ v)

theorem HasRank.perm (h : HasRank values k v) (hperm : values.Perm others) : HasRank others k v := by
  unfold HasRank at h ⊢
  rwa [← hperm.countP_eq, ← hperm.countP_eq]

theorem HasRank.le (hv : HasRank values k v) (hw : HasRank values k w) : v ≤ w := by
  by_contra hlt
  have hcount : values.countP (· ≤ w) ≤ values.countP (· < v) := by
    refine List.countP_mono_left fun x _ hx => ?_
    simp only [decide_eq_true_eq] at hx ⊢
    omega
  obtain ⟨hbelow, _⟩ := hv
  obtain ⟨_, hupTo⟩ := hw
  omega

/-- At most one value has a given rank. -/
theorem HasRank.unique (hv : HasRank values k v) (hw : HasRank values k w) : v = w :=
  Int.le_antisymm (hv.le hw) (hw.le hv)

theorem hasRank_getElem (h : values.Pairwise (· ≤ ·)) (hk : k < values.length) : HasRank values k values[k] := by
  have hsplit (p : Int → Bool) : values.countP p = (values.take k).countP p + (values.drop k).countP p := by
    rw [← List.countP_append, List.take_append_drop]
  have hbefore : ∀ x ∈ values.take k, x ≤ values[k] := by
    intro x hx
    obtain ⟨i, hi, rfl⟩ := List.mem_take_iff_getElem.1 hx
    exact List.pairwise_iff_getElem.1 h i k (by omega) hk (by omega)
  have hafter : ∀ x ∈ values.drop k, values[k] ≤ x := by
    intro x hx
    obtain ⟨i, hi, rfl⟩ := List.mem_drop_iff_getElem.1 hx
    rcases Nat.eq_zero_or_pos i with rfl | hpos
    · simp
    · exact List.pairwise_iff_getElem.1 h k (k + i) hk (by omega) (by omega)
  constructor
  · have hnone : (values.drop k).countP (· < values[k]) = 0 := by
      refine List.countP_eq_zero.2 fun x hx => ?_
      simpa using hafter x hx
    have hfew : (values.take k).countP (· < values[k]) ≤ k :=
      Nat.le_trans List.countP_le_length (List.length_take_le k values)
    rw [hsplit]
    omega
  · have hall : (values.take k).countP (· ≤ values[k]) = k := by
      rw [List.countP_eq_length.2 fun x hx => by simpa using hbefore x hx, List.length_take]
      omega
    have hown : 0 < (values.drop k).countP (· ≤ values[k]) := by
      rw [List.drop_eq_getElem_cons hk, List.countP_cons_of_pos (by simp)]
      exact Nat.succ_pos _
    rw [hsplit]
    omega

end

/-! ## Sorting -/

variable {key : Observation → Int} {observations : List Observation}

theorem perm_sortedBy (key : Observation → Int) (observations : List Observation) :
    (sortedBy key observations).Perm observations :=
  List.mergeSort_perm observations _

@[simp] theorem length_sortedBy : (sortedBy key observations).length = observations.length :=
  List.length_mergeSort observations

theorem le_key_trans (key : Observation → Int) (a b c : Observation) : decide (key a ≤ key b) = true →
    decide (key b ≤ key c) = true → decide (key a ≤ key c) = true := by
  simp only [decide_eq_true_eq]
  exact Int.le_trans

theorem le_key_total (key : Observation → Int) (a b : Observation) :
    (decide (key a ≤ key b) || decide (key b ≤ key a)) = true := by
  simpa using Int.le_total (key a) (key b)

theorem pairwise_sortedBy (key : Observation → Int) (observations : List Observation) :
    ((sortedBy key observations).map key).Pairwise (· ≤ ·) := by
  have hsorted := List.pairwise_mergeSort (le_key_trans key) (le_key_total key) observations
  rw [List.pairwise_map]
  exact hsorted.imp of_decide_eq_true

/-- The middle of the sorted observations has the middle rank among all, whichever order they were in. -/
theorem hasRank_middle (first : Observation) (key : Observation → Int) {shuffled : List Observation}
    (hperm : shuffled.Perm observations) (h : observations ≠ []) :
    HasRank (observations.map key) (observations.length / 2) (key (middle first (sortedBy key shuffled))) := by
  have hpos := List.length_pos_iff.2 h
  have hlength : (sortedBy key shuffled).length = observations.length := length_sortedBy.trans hperm.length_eq
  have hlt : observations.length / 2 < (sortedBy key shuffled).length := by omega
  have hmiddle : middle first (sortedBy key shuffled) = (sortedBy key shuffled)[observations.length / 2] := by
    unfold middle
    rw [hlength]
    exact (List.getElem_eq_getD first).symm
  have hrank := hasRank_getElem (pairwise_sortedBy key shuffled) (by rwa [List.length_map])
  rw [List.getElem_map] at hrank
  rw [hmiddle]
  exact hrank.perm (((perm_sortedBy key shuffled).trans hperm).map key)

end ReportRelay.Report
