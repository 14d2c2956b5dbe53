import Mathlib.Tactic.Common
import ReportRelay.Text.Bech32

/-!
# Bytes out of groups of five bits

The groups are read back with the padding checked: it is shorter than a group, and all of its bits are zero.
-/

namespace ReportRelay.Bech32

/-- The bytes that groups of five bits spell. `carry` holds `bits` bits that are not yet a whole byte. -/
def ungroup? (carry bits : Nat) : List Nat → Option Bytes
  | [] => if bits < 5 ∧ carry = 0 then some [] else none
  | v :: rest =>
    let n := carry * 32 + v
    if 3 ≤ bits then (ungroup? (n % 2 ^ (bits - 3)) (bits - 3) rest).map (UInt8.ofNat (n / 2 ^ (bits - 3)) :: ·)
    else ungroup? n (bits + 5) rest

variable {carry k l v w : Nat} {b next : UInt8} {bytes : Bytes} {rest : List Nat}

/-- A group that completes a byte. -/
theorem ungroup?_whole (h : carry * 32 + v = 2 ^ k * b.toNat + l) (hl : l < 2 ^ k) :
    ungroup? carry (k + 3) (v :: rest) = (ungroup? l k rest).map (b :: ·) := by
  have hbyte : (carry * 32 + v) / 2 ^ k = b.toNat := by
    rw [h, Nat.mul_add_div (Nat.zero_lt_of_lt hl), Nat.div_eq_of_lt hl, Nat.add_zero]
  have hleft : (carry * 32 + v) % 2 ^ k = l := by
    rw [h, Nat.mul_add_mod, Nat.mod_eq_of_lt hl]
  rw [ungroup?, if_pos (Nat.le_add_left 3 k), Nat.add_sub_cancel, hbyte, hleft, UInt8.ofNat_toNat]

theorem ungroup?_part (h : k < 3) (hl : carry * 32 + v = l) :
    ungroup? carry k (v :: rest) = ungroup? l (k + 5) rest := by
  rw [ungroup?, if_neg (Nat.not_le.2 h), hl]

theorem regroup_one (h : carry * 256 + b.toNat = 2 ^ (k + 3) * v + l) (hk : k < 2) (hv : v < 32) (hl : l < 2 ^ (k + 3)) :
    regroup carry k (b :: bytes) = v :: regroup l (k + 3) bytes := by
  have hgroup : (carry * 256 + b.toNat) / 2 ^ (k + 3) % 32 = v := by
    rw [h, Nat.mul_add_div (Nat.zero_lt_of_lt hl), Nat.div_eq_of_lt hl, Nat.add_zero, Nat.mod_eq_of_lt hv]
  have hleft : (carry * 256 + b.toNat) % 2 ^ (k + 3) = l := by
    rw [h, Nat.mul_add_mod, Nat.mod_eq_of_lt hl]
  rw [regroup, if_neg (by omega), show k + 8 - 5 = k + 3 from rfl, hgroup, hleft]

theorem regroup_two (h : carry * 256 + b.toNat = 2 ^ k * (32 * v + w) + l) (hv : v < 32) (hw : w < 32) (hl : l < 2 ^ k) :
    regroup carry (k + 2) (b :: bytes) = v :: w :: regroup l k bytes := by
  have hboth : (carry * 256 + b.toNat) / 2 ^ k = 32 * v + w := by
    rw [h, Nat.mul_add_div (Nat.zero_lt_of_lt hl), Nat.div_eq_of_lt hl, Nat.add_zero]
  have hfirst : (carry * 256 + b.toNat) / 2 ^ (k + 5) % 32 = v := by
    rw [Nat.pow_add, ← Nat.div_div_eq_div_mul, hboth]
    omega
  have hsecond : (carry * 256 + b.toNat) / 2 ^ k % 32 = w := by
    rw [hboth]
    omega
  have hleft : (carry * 256 + b.toNat) % 2 ^ k = l := by
    rw [h, Nat.mul_add_mod, Nat.mod_eq_of_lt hl]
  rw [regroup, if_pos (by omega), show k + 2 + 8 - 5 = k + 5 from rfl, show k + 2 + 8 - 10 = k from rfl, hfirst, hsecond,
    hleft]

/-! ## Reading what was written -/

/-- While the last `k` bits of a byte are still to be written, the reader has the others of it. -/
def Resumes (k : Nat) (bytes : Bytes) : Prop :=
  ∀ b : UInt8, ungroup? (b.toNat / 2 ^ k) (5 - k + 3) (regroup (b.toNat % 2 ^ k) k bytes) = some (b :: bytes)

theorem resumes_nil (hpos : 0 < k) (hlt : k < 5) : Resumes k [] := by
  intro b
  have hb := b.toNat_lt
  have hcases : k = 1 ∨ k = 2 ∨ k = 3 ∨ k = 4 := by omega
  have hlast : b.toNat / 2 ^ k * 32 + b.toNat % 2 ^ k * 2 ^ (5 - k) % 32 = 2 ^ (5 - k) * b.toNat + 0 := by
    obtain rfl | rfl | rfl | rfl := hcases <;> omega
  rw [regroup, if_neg (by omega), ungroup?_whole hlast (Nat.two_pow_pos _), ungroup?, if_pos ⟨by omega, rfl⟩]
  rfl

theorem resumes_one (h : Resumes 4 bytes) : Resumes 1 (next :: bytes) := by
  intro b
  have hb := b.toNat_lt
  have hnext := next.toNat_lt
  rw [regroup_one (v := b.toNat % 2 * 16 + next.toNat / 16) (l := next.toNat % 2 ^ 4) (by omega) (by decide) (by omega)
    (by omega), ungroup?_whole (b := b) (l := next.toNat / 2 ^ 4) (by omega) (by omega)]
  exact congrArg (Option.map (b :: ·)) (h next)

/-- The first of two groups completes the byte; the second one follows what is left of the first. -/
theorem resumes_add_two (hk : k < 3)
    (h : ungroup? (next.toNat / 2 ^ (k + 5)) (3 - k) (next.toNat / 2 ^ k % 32 :: regroup (next.toNat % 2 ^ k) k bytes) =
      some (next :: bytes)) : Resumes (k + 2) (next :: bytes) := by
  intro b
  have hb := b.toNat_lt
  have hnext := next.toNat_lt
  have hcases : k = 0 ∨ k = 1 ∨ k = 2 := by omega
  let v := b.toNat % 2 ^ (k + 2) * 2 ^ (3 - k) + next.toNat / 2 ^ (k + 5)
  have hwrite : b.toNat % 2 ^ (k + 2) * 256 + next.toNat =
      2 ^ k * (32 * v + next.toNat / 2 ^ k % 32) + next.toNat % 2 ^ k := by
    obtain rfl | rfl | rfl := hcases <;> simp only [v] <;> omega
  have hread : b.toNat / 2 ^ (k + 2) * 32 + v = 2 ^ (3 - k) * b.toNat + next.toNat / 2 ^ (k + 5) := by
    obtain rfl | rfl | rfl := hcases <;> simp only [v] <;> omega
  have hv : v < 32 := by
    obtain rfl | rfl | rfl := hcases <;> simp only [v] <;> omega
  have hleft : next.toNat / 2 ^ (k + 5) < 2 ^ (3 - k) := by
    obtain rfl | rfl | rfl := hcases <;> omega
  rw [regroup_two hwrite hv (Nat.mod_lt _ (by decide)) (Nat.mod_lt _ (Nat.two_pow_pos k)),
    show 5 - (k + 2) = 3 - k by omega, ungroup?_whole hread hleft, h]
  rfl

theorem resumes_two (h : ungroup? 0 0 (regroup 0 0 bytes) = some bytes) : Resumes 2 (next :: bytes) := by
  have hnext := next.toNat_lt
  apply resumes_add_two (k := 0) (by decide)
  rw [ungroup?_whole (k := 0) (b := next) (l := 0) (by omega) (by decide), Nat.pow_zero, Nat.mod_one, h]
  rfl

theorem resumes_three (h : Resumes 1 bytes) : Resumes 3 (next :: bytes) := by
  have hnext := next.toNat_lt
  apply resumes_add_two (k := 1) (by decide)
  rw [ungroup?_part (l := next.toNat / 2 ^ 1) (by decide) (by omega)]
  exact h next

theorem resumes_four (h : Resumes 2 bytes) : Resumes 4 (next :: bytes) := by
  have hnext := next.toNat_lt
  apply resumes_add_two (k := 2) (by decide)
  rw [ungroup?_part (l := next.toNat / 2 ^ 2) (by decide) (by omega)]
  exact h next

theorem ungroup?_regroup_cons (h : Resumes 3 bytes) :
    ungroup? 0 0 (regroup 0 0 (next :: bytes)) = some (next :: bytes) := by
  have hnext := next.toNat_lt
  rw [regroup_one (v := next.toNat / 2 ^ 3) (l := next.toNat % 2 ^ 3) (by omega) (by decide) (by omega) (by omega),
    ungroup?_part (by decide) (Nat.zero_add _)]
  exact h next

/-- What was written in groups of five bits is read back as it was. -/
theorem ungroup?_regroup (bytes : Bytes) : ungroup? 0 0 (regroup 0 0 bytes) = some bytes := by
  have hall : ungroup? 0 0 (regroup 0 0 bytes) = some bytes ∧ ∀ k, 0 < k → k < 5 → Resumes k bytes := by
    induction bytes with
    | nil => exact ⟨rfl, fun k => resumes_nil⟩
    | cons next bytes ih =>
      obtain ⟨hwhole, hpart⟩ := ih
      refine ⟨ungroup?_regroup_cons (hpart 3 (by decide) (by decide)), fun k hpos hlt => ?_⟩
      obtain rfl | rfl | rfl | rfl : k = 1 ∨ k = 2 ∨ k = 3 ∨ k = 4 := by omega
      · exact resumes_one (hpart 4 (by decide) (by decide))
      · exact resumes_two hwhole
      · exact resumes_three (hpart 1 (by decide) (by decide))
      · exact resumes_four (hpart 2 (by decide) (by decide))
  exact hall.1

theorem lt_of_mem_regroup (hv : v ∈ regroup carry k bytes) : v < 32 := by
  induction bytes generalizing carry k with
  | nil =>
    rw [regroup] at hv
    split at hv
    · cases hv
    · rw [List.mem_singleton.1 hv]
      exact Nat.mod_lt _ (by decide)
  | cons next bytes ih =>
    rw [regroup] at hv
    split at hv
    · rcases List.mem_cons.1 hv with rfl | hv
      · exact Nat.mod_lt _ (by decide)
      rcases List.mem_cons.1 hv with rfl | hv
      · exact Nat.mod_lt _ (by decide)
      · exact ih hv
    · rcases List.mem_cons.1 hv with rfl | hv
      · exact Nat.mod_lt _ (by decide)
      · exact ih hv

end ReportRelay.Bech32
