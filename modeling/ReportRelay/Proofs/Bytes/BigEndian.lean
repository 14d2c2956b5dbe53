import Mathlib.Data.List.Induction
import Mathlib.Data.Nat.Digits.Defs
import ReportRelay.Bytes

/-!
# Numbers as byte strings

The byte strings of a length stand for the numbers below that power of 256, each number for one of them.
-/

namespace ReportRelay.Bytes

theorem toNat_lt (bytes : Bytes) : bytes.toNat < 256 ^ bytes.length := by
  induction bytes using List.reverseRecOn with
  | nil => decide
  | append_singleton bytes b ih =>
    have hb := b.toNat_lt
    rw [toNat_append_singleton, List.length_append, List.length_singleton, Nat.pow_succ]
    omega

/-- A byte string is the big-endian form of the number that it denotes. -/
theorem bigEndian_toNat (bytes : Bytes) : bigEndian bytes.length bytes.toNat = bytes := by
  induction bytes using List.reverseRecOn with
  | nil => rfl
  | append_singleton bytes b ih =>
    have hb := b.toNat_lt
    have hrest : (256 * toNat bytes + b.toNat) / 256 = toNat bytes := by omega
    have hlast : UInt8.ofNat (256 * toNat bytes + b.toNat) = b := by
      apply UInt8.toNat_inj.1
      rw [UInt8.toNat_ofNat']
      omega
    rw [List.length_append, List.length_singleton, toNat_append_singleton, bigEndian, hrest, hlast, ih]

theorem eq_of_bigEndian_eq {width n m : Nat} (hn : n < 256 ^ width) (hm : m < 256 ^ width)
    (h : bigEndian width n = bigEndian width m) : n = m := by
  have hvalue := congrArg toNat h
  rwa [toNat_bigEndian, toNat_bigEndian, Nat.mod_eq_of_lt hn, Nat.mod_eq_of_lt hm] at hvalue

/-- Two numbers of a fixed number of bytes can be told from what begins with them. -/
theorem bigEndian_append_inj {width n m : Nat} {rest other : Bytes} (hn : n < 256 ^ width) (hm : m < 256 ^ width)
    (h : bigEndian width n ++ rest = bigEndian width m ++ other) : n = m ∧ rest = other := by
  have hlength : (bigEndian width n).length = (bigEndian width m).length := by
    rw [length_bigEndian, length_bigEndian]
  obtain ⟨hnumber, hrest⟩ := List.append_inj h hlength
  exact ⟨eq_of_bigEndian_eq hn hm hnumber, hrest⟩

theorem ofDigits_eq_toNat (bytes : Bytes) : Nat.ofDigits 256 (bytes.reverse.map UInt8.toNat) = bytes.toNat := by
  induction bytes using List.reverseRecOn with
  | nil => rfl
  | append_singleton bytes b ih =>
    rw [List.reverse_append, List.reverse_singleton, List.singleton_append, List.map_cons, Nat.ofDigits_cons, ih,
      toNat_append_singleton, Nat.add_comm]

end ReportRelay.Bytes
