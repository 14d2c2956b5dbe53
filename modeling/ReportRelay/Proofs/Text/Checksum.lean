import Mathlib.Data.Nat.Bitwise
import ReportRelay.Text.Bech32

/-!
# The checksum of an address

A step of the checksum polynomial is linear in exclusive or. So six symbols that enter last are added to what six
zeros in their place would come to, and the checksum that makes up the difference always verifies.
-/

namespace ReportRelay.Bech32

/-- The generators that the five bits which leave choose. -/
def feedback (top : Nat) : Nat :=
  let part (bit generator : Nat) : Nat := if top.testBit bit then generator else 0
  part 0 0x3b6a57b2 ^^^ part 1 0x26508e6d ^^^ part 2 0x1ea119fa ^^^ part 3 0x3d4233dd ^^^ part 4 0x2a1462b3

theorem polymodStep_eq (state value : Nat) :
    polymodStep state value = (state % 2 ^ 25 * 32) ^^^ value ^^^ feedback (state / 2 ^ 25) := by
  have hadd (bit generator acc : Nat) (top : Nat) : (if top.testBit bit then acc ^^^ generator else acc) =
      acc ^^^ if top.testBit bit then generator else 0 := by
    split <;> simp
  simp only [polymodStep, feedback, hadd]
  simp only [Nat.xor_assoc]

theorem feedback_xor (a b : Nat) : feedback (a ^^^ b) = feedback a ^^^ feedback b := by
  have hpart (bit generator : Nat) : (if (a ^^^ b).testBit bit then generator else 0) =
      (if a.testBit bit then generator else 0) ^^^ if b.testBit bit then generator else 0 := by
    rw [Nat.testBit_xor]
    cases a.testBit bit <;> cases b.testBit bit <;> simp
  simp only [feedback, hpart]
  ac_rfl

theorem feedback_lt (top : Nat) : feedback top < 2 ^ 30 := by
  have hpart (bit generator : Nat) (h : generator < 2 ^ 30) : (if top.testBit bit then generator else 0) < 2 ^ 30 := by
    split
    · exact h
    · decide
  simp only [feedback]
  repeat' apply Nat.xor_lt_two_pow
  all_goals exact hpart _ _ (by decide)

/-- A step is linear in the state and the value together. -/
theorem polymodStep_xor (s t v w : Nat) :
    polymodStep (s ^^^ t) (v ^^^ w) = polymodStep s v ^^^ polymodStep t w := by
  have hshift : ((s % 2 ^ 25) ^^^ (t % 2 ^ 25)) * 32 = (s % 2 ^ 25 * 32) ^^^ (t % 2 ^ 25 * 32) := by
    have h := @Nat.shiftLeft_xor_distrib 5 (s % 2 ^ 25) (t % 2 ^ 25)
    simpa only [Nat.shiftLeft_eq] using h
  rw [polymodStep_eq, polymodStep_eq, polymodStep_eq, Nat.xor_mod_two_pow, Nat.xor_div_two_pow, feedback_xor, hshift]
  ac_rfl

theorem polymodStep_lt {value : Nat} (state : Nat) (h : value < 2 ^ 30) : polymodStep state value < 2 ^ 30 := by
  rw [polymodStep_eq]
  have hshift : state % 2 ^ 25 * 32 < 2 ^ 30 := by omega
  exact Nat.xor_lt_two_pow (Nat.xor_lt_two_pow hshift h) (feedback_lt _)

/-- As long as nothing leaves, a step only appends the value. -/
theorem polymodStep_of_lt {state value : Nat} (hstate : state < 2 ^ 25) (hvalue : value < 32) :
    polymodStep state value = 32 * state + value := by
  have htop : state / 2 ^ 25 = 0 := Nat.div_eq_of_lt hstate
  have hzero : feedback 0 = 0 := by decide
  rw [polymodStep_eq, htop, hzero, Nat.xor_zero, Nat.mod_eq_of_lt hstate]
  apply Nat.eq_of_testBit_eq
  intro i
  have happend := Nat.testBit_two_pow_mul_add state (i := 5) hvalue i
  rw [show 32 * state + value = 2 ^ 5 * state + value from rfl, happend, Nat.testBit_xor,
    show state * 32 = state * 2 ^ 5 from rfl, Nat.testBit_mul_two_pow]
  by_cases hi : i < 5
  · simp [hi, Nat.not_le.2 hi]
  · have hnone : value.testBit i = false :=
      Nat.testBit_lt_two_pow (Nat.lt_of_lt_of_le hvalue (Nat.pow_le_pow_right Nat.two_pos (Nat.not_lt.1 hi)))
    simp [hi, Nat.not_lt.1 hi, hnone]

/-! ## Symbols at the end -/

/-- The number that symbols of five bits spell, the first one most significant. -/
def joined (symbols : List Nat) : Nat :=
  symbols.foldl (fun n v => 32 * n + v) 0

/-- Up to six symbols stay as they are, since none of them leaves. -/
theorem foldl_polymodStep_of_lt {symbols : List Nat} (h : ∀ v ∈ symbols, v < 32) {k state : Nat}
    (hstate : state < 32 ^ k) (hroom : k + symbols.length ≤ 6) :
    symbols.foldl polymodStep state = symbols.foldl (fun n v => 32 * n + v) state := by
  induction symbols generalizing k state with
  | nil => rfl
  | cons v symbols ih =>
    obtain ⟨hv, hrest⟩ := List.forall_mem_cons.1 h
    rw [List.length_cons] at hroom
    have hsmall : state < 32 ^ 5 := Nat.lt_of_lt_of_le hstate (Nat.pow_le_pow_right (by omega) (by omega))
    have hnext : 32 * state + v < 32 ^ (k + 1) := by
      rw [Nat.pow_succ]
      omega
    rw [List.foldl_cons, List.foldl_cons, polymodStep_of_lt hsmall hv]
    exact ih hrest hnext (by omega)

/-- Values are added to what zeros in their places come to. -/
theorem foldl_polymodStep_xor (symbols : List Nat) (s t : Nat) :
    symbols.foldl polymodStep (s ^^^ t) =
      (List.replicate symbols.length 0).foldl polymodStep s ^^^ symbols.foldl polymodStep t := by
  induction symbols generalizing s t with
  | nil => rfl
  | cons v symbols ih =>
    have hstep := polymodStep_xor s t 0 v
    rw [Nat.zero_xor] at hstep
    rw [List.foldl_cons, hstep, ih, List.length_cons, List.replicate_succ, List.foldl_cons, List.foldl_cons]

theorem polymod_append (values symbols : List Nat) :
    polymod (values ++ symbols) =
      polymod (values ++ List.replicate symbols.length 0) ^^^ symbols.foldl polymodStep 0 := by
  have h := foldl_polymodStep_xor symbols (polymod values) 0
  rw [Nat.xor_zero] at h
  simp only [polymod, List.foldl_append] at h ⊢
  exact h

/-! ## The checksum -/

theorem joined_split {n : Nat} (h : n < 2 ^ 30) :
    joined ((List.range checksumLength).map fun i => n / 32 ^ (5 - i) % 32) = n := by
  simp only [joined, checksumLength, List.range, List.range.loop, List.map, List.foldl]
  omega

theorem polymod_lt (values : List Nat) (n : Nat) : polymod (values ++ List.replicate (n + 1) 0) < 2 ^ 30 := by
  rw [List.replicate_succ', ← List.append_assoc, polymod, List.foldl_append]
  exact polymodStep_lt _ (by decide)

@[simp]
theorem length_checksum (hrp : String) (values : List Nat) : (checksum hrp values).length = checksumLength := by
  simp [checksum]

theorem lt_of_mem_checksum {hrp : String} {values : List Nat} {v : Nat} (h : v ∈ checksum hrp values) : v < 32 := by
  simp only [checksum, List.mem_map] at h
  obtain ⟨i, _, rfl⟩ := h
  exact Nat.mod_lt _ (by decide)

/-- What the checksum completes verifies, whatever the human-readable part and the values are. -/
theorem polymod_checksum (hrp : String) (values : List Nat) :
    polymod (expandHrp hrp ++ values ++ checksum hrp values) = 1 := by
  have hlt := Nat.xor_lt_two_pow (polymod_lt (expandHrp hrp ++ values) 5) (show 1 < 2 ^ 30 by decide)
  have hjoined : joined (checksum hrp values) = _ := joined_split hlt
  have hplain : (checksum hrp values).foldl polymodStep 0 = joined (checksum hrp values) :=
    foldl_polymodStep_of_lt (fun _ => lt_of_mem_checksum) (k := 0) Nat.one_pos (by rw [length_checksum]; decide)
  rw [polymod_append, hplain, length_checksum, hjoined, ← Nat.xor_assoc]
  exact (congrArg (· ^^^ 1) (Nat.xor_self _)).trans (Nat.zero_xor 1)

end ReportRelay.Bech32
