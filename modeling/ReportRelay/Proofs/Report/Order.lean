import Mathlib.Data.Prod.Lex
import ReportRelay.Proofs.Report.Layout

/-!
# The order of observations in a report

Observations stand in a report by value, among equal values by price, and among equal prices by timestamp. Those that
agree in all three are neighbours, and counting the ones before them tells where they stand.
-/

namespace ReportRelay

/-- All that an observation tells but its observer, with what is compared first in front. -/
def Observation.reading (o : Observation) : Int ×ₗ Int ×ₗ Nat :=
  toLex (o.value, toLex (o.juelsPerFeeCoin, o.timestamp.toNat))

namespace Report

variable {observations shuffled sorted : List Observation} {key : Observation → Int}

/-! ## Sorting what is in order already -/

/-- Sorting leaves the observations of one key in the order they have. -/
theorem filter_sortedBy (key : Observation → Int) (k : Int) (observations : List Observation) :
    (sortedBy key observations).filter (key · = k) = observations.filter (key · = k) := by
  have hequal : (observations.filter (key · = k)).Pairwise fun a b => decide (key a ≤ key b) = true := by
    apply List.pairwise_of_forall_mem_list
    intro a ha b hb
    have ha : key a = k := by simpa using (List.mem_filter.1 ha).2
    have hb : key b = k := by simpa using (List.mem_filter.1 hb).2
    simp [ha, hb]
  have hsub : (observations.filter (key · = k)).Sublist ((sortedBy key observations).filter (key · = k)) := by
    have hstable := List.sublist_mergeSort (le_key_trans key) (le_key_total key) hequal List.filter_sublist
    simpa [sortedBy] using hstable.filter (key · = k)
  have hlength := ((perm_sortedBy key observations).filter (key · = k)).length_eq
  exact (hsub.eq_of_length hlength.symm).symm

/-- An order that the observations are in already decides between those of one key. -/
theorem pairwise_sortedBy_of_pairwise {R : Observation → Observation → Prop} (h : observations.Pairwise R) :
    (sortedBy key observations).Pairwise fun a b => key a < key b ∨ key a = key b ∧ R a b := by
  have hkeys := pairwise_sortedBy key observations
  rw [List.pairwise_map, List.pairwise_iff_forall_sublist] at hkeys
  rw [List.pairwise_iff_forall_sublist] at h ⊢
  intro a b hsub
  rcases Int.lt_or_eq_of_le (hkeys hsub) with hlt | heq
  · exact .inl hlt
  · right
    constructor
    · exact heq
    · have hpair := hsub.filter (key · = key b)
      rw [filter_sortedBy] at hpair
      simp only [List.filter_cons, heq, decide_true, if_true, List.filter_nil] at hpair
      exact h (hpair.trans List.filter_sublist)

theorem ascending_byValue (observations : List Observation) :
    (byValue observations).Pairwise fun a b => a.reading ≤ b.reading := by
  have htime : (byTime observations).Pairwise fun a b => a.timestamp.toNat ≤ b.timestamp.toNat := by
    have hsorted := pairwise_sortedBy (fun o => o.timestamp.toNat) observations
    rw [List.pairwise_map] at hsorted
    apply hsorted.imp
    intro a b hle
    exact Int.ofNat_le.1 hle
  apply (pairwise_sortedBy_of_pairwise (pairwise_sortedBy_of_pairwise htime)).imp
  intro a b hle
  simpa only [Observation.reading, Prod.Lex.toLex_le_toLex] using hle

/-! ## Neighbours -/

/-- A list in ascending order begins with what is below a key, and what has the key comes next. -/
theorem eq_append_of_pairwise {α β : Type} [LinearOrder β] {key : α → β} {l : List α}
    (h : l.Pairwise fun a b => key a ≤ key b) (k : β) :
    l = l.filter (key · < k) ++ (l.filter (key · = k) ++ l.filter (k < key ·)) := by
  induction l with
  | nil => rfl
  | cons a l ih =>
    obtain ⟨hfirst, hrest⟩ := List.pairwise_cons.1 h
    have ih := ih hrest
    rcases lt_trichotomy (key a) k with hlt | heq | hgt
    · simpa [hlt, hlt.ne, hlt.not_gt] using ih
    · have hbelow : l.filter (key · < k) = [] := by
        simp only [List.filter_eq_nil_iff, decide_eq_true_eq, not_lt]
        exact fun b hb => heq ▸ hfirst b hb
      rw [hbelow] at ih
      simpa [heq, hbelow] using ih
    · have habove : ∀ b ∈ l, k < key b := fun b hb => hgt.trans_le (hfirst b hb)
      have hbelow : l.filter (key · < k) = [] := by
        simp only [List.filter_eq_nil_iff, decide_eq_true_eq, not_lt]
        exact fun b hb => (habove b hb).le
      have hequal : l.filter (key · = k) = [] := by
        simp only [List.filter_eq_nil_iff, decide_eq_true_eq]
        exact fun b hb => (habove b hb).ne'
      have hall : l.filter (k < key ·) = l := by
        simp only [List.filter_eq_self, decide_eq_true_eq]
        exact habove
      simp [hgt, hgt.ne', hgt.not_gt, hbelow, hequal, hall]

section
variable {α β : Type} [LinearOrder β] {key : α → β} {l : List α} (h : l.Pairwise fun a b => key a ≤ key b) (k : β)
include h

theorem countP_add_countP_le : l.countP (key · < k) + l.countP (key · = k) ≤ l.length := by
  have hlength := congrArg List.length (eq_append_of_pairwise h k)
  simp only [List.length_append] at hlength
  simp only [List.countP_eq_length_filter]
  omega

theorem take_drop_of_pairwise :
    (l.drop (l.countP (key · < k))).take (l.countP (key · = k)) = l.filter (key · = k) := by
  have hsplit := eq_append_of_pairwise h k
  rw [List.countP_eq_length_filter, List.countP_eq_length_filter]
  generalize l.filter (key · < k) = below at hsplit ⊢
  generalize l.filter (key · = k) = equal at hsplit ⊢
  rw [hsplit, List.drop_left, List.take_left]

end

/-- The slots of the observations with a reading: as many as there are of them, behind those of smaller readings. -/
def slotsOf (observations : List Observation) (reading : Int ×ₗ Int ×ₗ Nat) : List Nat :=
  List.range' (observations.countP (·.reading < reading)) (observations.countP (·.reading = reading))

theorem slotsOf_eq_of_perm (h : observations.Perm shuffled) (reading : Int ×ₗ Int ×ₗ Nat) :
    slotsOf observations reading = slotsOf shuffled reading := by
  unfold slotsOf
  rw [h.countP_eq, h.countP_eq]

section
variable (h : sorted.Pairwise fun a b => a.reading ≤ b.reading) {reading : Int ×ₗ Int ×ₗ Nat} {i : Nat}
include h

theorem reading_of_mem_slotsOf (hi : i ∈ slotsOf sorted reading) :
    ∃ hlt : i < sorted.length, sorted[i].reading = reading := by
  have hlength := countP_add_countP_le h reading
  obtain ⟨hstart, hend⟩ := List.mem_range'_1.1 hi
  have hlt : i < sorted.length := by omega
  have hmem : sorted[i] ∈ sorted.filter (·.reading = reading) := by
    rw [← take_drop_of_pairwise h, List.mem_take_iff_getElem]
    refine ⟨i - sorted.countP (·.reading < reading), ?_, ?_⟩
    · simp only [List.length_drop]
      omega
    · simp only [List.getElem_drop, Nat.add_sub_cancel' hstart]
  exact ⟨hlt, by simpa using (List.mem_filter.1 hmem).2⟩

end

section
variable (timestamp : UInt32) (price : Int) (hroom : sorted.length ≤ maxObservers)
include hroom

theorem map_observerAt_range' {start count : Nat} (hend : start + count ≤ sorted.length) :
    (List.range' start count).map (observerAt (written timestamp price sorted)) =
      ((sorted.drop start).take count).map Observation.observer := by
  apply List.ext_getElem
  · simp
    omega
  · intro i hi _
    have hi : i < count := by simpa using hi
    simp only [List.getElem_map, List.getElem_range', List.getElem_take, List.getElem_drop, Nat.one_mul]
    exact observerAt_written timestamp price hroom (by omega)

variable (h : sorted.Pairwise fun a b => a.reading ≤ b.reading)
include h

/-- The observers in these slots are those of the observations with the reading. -/
theorem map_observerAt_slotsOf (reading : Int ×ₗ Int ×ₗ Nat) :
    (slotsOf sorted reading).map (observerAt (written timestamp price sorted)) =
      (sorted.filter (·.reading = reading)).map Observation.observer := by
  unfold slotsOf
  rw [map_observerAt_range' timestamp price hroom (countP_add_countP_le h reading), take_drop_of_pairwise h]

/-- The value in each of these slots is that of the reading. -/
theorem decode_slot_of_mem_slotsOf (hfits : ∀ o ∈ sorted, Signed.Fits intWidth o.value)
    {reading : Int ×ₗ Int ×ₗ Nat} {i : Nat} (hi : i ∈ slotsOf sorted reading) :
    Signed.decode intWidth (slot (written timestamp price sorted) i) = .ok (ofLex reading).1 := by
  obtain ⟨hlt, rfl⟩ := reading_of_mem_slotsOf h hi
  exact decode_slot_written timestamp price hroom hfits hlt

end

end Report

end ReportRelay
