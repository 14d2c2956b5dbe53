import ReportRelay.Protobuf.Wire

/-!
# Variable-length integers

An integer of 64 bits that is written can be read back. An integer that is read has 64 bits, and was written in no
fewer bytes than its own form has.
-/

namespace ReportRelay.Protobuf

theorem writeVarint_of_lt {n : Nat} (h : n < 128) : writeVarint n = [UInt8.ofNat n] := by
  rw [writeVarint, dif_pos h]

theorem writeVarint_of_le {n : Nat} (h : 128 ≤ n) :
    writeVarint n = UInt8.ofNat (n % 128 + 128) :: writeVarint (n / 128) := by
  rw [writeVarint, dif_neg (by omega)]

theorem length_writeVarint_pos (n : Nat) : 0 < (writeVarint n).length := by
  rw [writeVarint]
  split <;> simp

/-- The numbers that may begin at a place within a form: those of the bits that are left of 64. -/
def room (place : Nat) : Nat :=
  2 ^ (64 - 7 * place)

theorem room_succ {place : Nat} (h : place ≤ 8) : room place = 128 * room (place + 1) := by
  have hbits : 64 - 7 * place = 7 + (64 - 7 * (place + 1)) := by omega
  unfold room
  rw [hbits, Nat.pow_add]

theorem lt_room {place n : Nat} (h : place ≤ 8) (hn : n < 128) : n < room place := by
  have hpos : 0 < room (place + 1) := Nat.two_pow_pos _
  rw [room_succ h]
  omega

theorem room_nine : room 9 = 2 := rfl

theorem varintFrom_writeVarint {place n : Nat} (rest : Bytes) (hplace : place ≤ 9) (hn : n < room place) :
    varintFrom place (writeVarint n ++ rest) = .ok (n, rest) := by
  induction n using Nat.strongRecOn generalizing place with
  | ind n ih =>
    rcases Nat.lt_or_ge n 128 with hsmall | hlarge
    · have hbyte : (UInt8.ofNat n).toNat = n := by
        rw [UInt8.toNat_ofNat']
        omega
      -- the tenth byte may only hold the topmost bit
      have hlast : ¬(place = 9 ∧ 1 < n) := by
        rintro ⟨rfl, hlt⟩
        rw [room_nine] at hn
        omega
      rw [writeVarint_of_lt hsmall, List.singleton_append, varintFrom, if_neg (by omega), hbyte, if_pos hsmall,
        if_neg hlast]
    · have hbyte : (UInt8.ofNat (n % 128 + 128)).toNat = n % 128 + 128 := by
        rw [UInt8.toNat_ofNat']
        omega
      have hbefore : place ≤ 8 := by
        rcases Nat.lt_or_ge place 9 with hlt | hlast
        · exact Nat.le_of_lt_succ hlt
        · obtain rfl : place = 9 := Nat.le_antisymm hplace hlast
          rw [room_nine] at hn
          omega
      rw [room_succ hbefore] at hn
      rw [writeVarint_of_le hlarge, List.cons_append, varintFrom, if_neg (by omega), hbyte, if_neg (by omega),
        ih (n / 128) (by omega) (by omega) (by omega)]
      dsimp only
      rw [Nat.add_sub_cancel, Nat.mod_add_div]

theorem readVarint_writeVarint {n : Nat} (rest : Bytes) (h : n < 2 ^ 64) :
    readVarint (writeVarint n ++ rest) = .ok (n, rest) :=
  varintFrom_writeVarint rest (by decide) h

theorem of_varintFrom {place n : Nat} {input rest : Bytes} (h : varintFrom place input = .ok (n, rest)) :
    place ≤ 9 ∧ n < room place ∧ (writeVarint n).length + rest.length ≤ input.length := by
  induction input generalizing place n with
  | nil => cases h
  | cons b input ih =>
    unfold varintFrom at h
    split at h
    · cases h
    next hplace =>
      split at h
      next hsmall =>
        split at h
        · cases h
        next hlast =>
          cases h
          refine ⟨by omega, ?_, ?_⟩
          · rcases Nat.lt_or_ge place 9 with hbefore | hafter
            · exact lt_room (by omega) hsmall
            · obtain rfl : place = 9 := by omega
              rw [room_nine]
              omega
          · rw [writeVarint_of_lt hsmall]
            simp [Nat.add_comm]
      next hlarge =>
        split at h
        · cases h
        next m rest' hm =>
          cases h
          obtain ⟨hplace', hroom, hlength⟩ := ih hm
          have hb := b.toNat_lt
          refine ⟨by omega, ?_, ?_⟩
          · rw [room_succ (by omega)]
            omega
          · rcases Nat.eq_zero_or_pos m with rfl | hpos
            · rw [writeVarint_of_lt (by omega)]
              have := length_writeVarint_pos 0
              simp only [List.length_cons, List.length_nil]
              omega
            · have hdiv : (b.toNat - 128 + 128 * m) / 128 = m := by omega
              rw [writeVarint_of_le (by omega), hdiv]
              simp only [List.length_cons]
              omega

theorem of_readVarint {n : Nat} {input rest : Bytes} (h : readVarint input = .ok (n, rest)) :
    n < 2 ^ 64 ∧ (writeVarint n).length + rest.length ≤ input.length :=
  (of_varintFrom h).2

end ReportRelay.Protobuf
