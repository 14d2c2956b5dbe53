import ReportRelay.Bytes
import ReportRelay.Hash.Words

/-!
# BLAKE2s with a digest of 32 bytes

Every block is mixed into a vector of sixteen words in ten rounds, each with its own order of the
message words. The last block is filled up with zeros and marked as last; an empty message has one block.
-/

namespace ReportRelay.Blake2s

def initial : List UInt32 :=
  [0x6a09e667, 0xbb67ae85, 0x3c6ef372, 0xa54ff53a,
   0x510e527f, 0x9b05688c, 0x1f83d9ab, 0x5be0cd19]

def orders : List (List Nat) :=
  [[0, 1, 2, 3, 4, 5, 6, 7, 8, 9, 10, 11, 12, 13, 14, 15],
   [14, 10, 4, 8, 9, 15, 13, 6, 1, 12, 0, 2, 11, 7, 5, 3],
   [11, 8, 12, 0, 5, 2, 15, 13, 10, 14, 3, 6, 7, 1, 9, 4],
   [7, 9, 3, 1, 13, 12, 11, 14, 2, 6, 5, 10, 4, 0, 15, 8],
   [9, 0, 5, 7, 2, 4, 10, 15, 14, 1, 11, 12, 6, 8, 3, 13],
   [2, 12, 6, 10, 0, 11, 8, 3, 4, 13, 7, 5, 15, 14, 1, 9],
   [12, 5, 1, 15, 14, 13, 4, 10, 0, 7, 6, 3, 9, 2, 8, 11],
   [13, 11, 7, 14, 12, 1, 3, 9, 5, 0, 15, 4, 8, 6, 2, 10],
   [6, 15, 14, 9, 11, 3, 0, 8, 12, 2, 13, 7, 1, 4, 10, 5],
   [10, 2, 8, 4, 7, 6, 1, 5, 15, 11, 9, 14, 3, 12, 13, 0]]

/-- The vector positions that each of the eight mixings of a round works on. -/
def lanes : List (Nat × Nat × Nat × Nat) :=
  [(0, 4, 8, 12), (1, 5, 9, 13), (2, 6, 10, 14), (3, 7, 11, 15),
   (0, 5, 10, 15), (1, 6, 11, 12), (2, 7, 8, 13), (3, 4, 9, 14)]

def mix (v : Array UInt32) (lane : Nat × Nat × Nat × Nat) (x y : UInt32) : Array UInt32 :=
  let (ia, ib, ic, id) := lane
  let a := v.getD ia 0 + v.getD ib 0 + x
  let d := Word.rotateRight (v.getD id 0 ^^^ a) 16
  let c := v.getD ic 0 + d
  let b := Word.rotateRight (v.getD ib 0 ^^^ c) 12
  let a := a + b + y
  let d := Word.rotateRight (d ^^^ a) 8
  let c := c + d
  let b := Word.rotateRight (b ^^^ c) 7
  (((v.setIfInBounds ia a).setIfInBounds ib b).setIfInBounds ic c).setIfInBounds id d

def round (words : Array UInt32) (v : Array UInt32) (order : List Nat) : Array UInt32 :=
  let order := order.toArray
  lanes.zipIdx.foldl (fun v (lane, i) =>
    mix v lane (words.getD (order.getD (2 * i) 0) 0) (words.getD (order.getD (2 * i + 1) 0) 0)) v

/-- `count` is the number of message bytes up to the end of this block. -/
def compress (state : List UInt32) (block : Bytes) (count : Nat) (last : Bool) : List UInt32 :=
  let words := (Word.ofLittleEndian block).toArray
  let low := UInt32.ofNat (count % 2 ^ 32)
  let high := UInt32.ofNat (count / 2 ^ 32)
  let marks := [0, 0, 0, 0, low, high, if last then 0xffffffff else 0, 0]
  let v := (state ++ initial.zipWith (· ^^^ ·) marks).toArray
  let v := orders.foldl (round words) v
  let v := v.toList
  (state.zipWith (· ^^^ ·) (v.take 8)).zipWith (· ^^^ ·) (v.drop 8)

/-- All blocks but the last; `done` is the number of bytes before them. -/
def absorb (state : List UInt32) (done : Nat) : Nat → Bytes → List UInt32
  | 0, bytes =>
    compress state (bytes ++ Bytes.zeros (64 - bytes.length)) (done + bytes.length) true
  | full + 1, bytes =>
    absorb (compress state (bytes.take 64) (done + 64) false) (done + 64) full (bytes.drop 64)

def hash (message : Bytes) : Bytes :=
  let state := initial.zipWith (· ^^^ ·) (0x01010020 :: List.replicate 7 0)
  (absorb state 0 ((message.length - 1) / 64) message).flatMap fun w =>
    Word.littleEndian 4 w.toNat

/-! ## The length of a digest -/

theorem length_littleEndian (width n : Nat) : (Word.littleEndian width n).length = width := by
  simp [Word.littleEndian, Bytes.length_bigEndian]

theorem size_mix (v : Array UInt32) (lane : Nat × Nat × Nat × Nat) (x y : UInt32) :
    (mix v lane x y).size = v.size := by
  obtain ⟨ia, ib, ic, id⟩ := lane
  simp [mix]

theorem size_foldl {α : Type} (f : Array UInt32 → α → Array UInt32)
    (hf : ∀ v a, (f v a).size = v.size) (as : List α) (v : Array UInt32) :
    (as.foldl f v).size = v.size := by
  induction as generalizing v with
  | nil => rfl
  | cons a as ih => rw [List.foldl_cons, ih, hf]

theorem size_round (words v : Array UInt32) (order : List Nat) :
    (round words v order).size = v.size :=
  size_foldl _ (fun v _ => size_mix v _ _ _) _ _

theorem length_compress (state : List UInt32) (block : Bytes) (count : Nat) (last : Bool)
    (h : state.length = 8) : (compress state block count last).length = 8 := by
  simp [compress, size_foldl _ (size_round _), initial, h]

theorem length_absorb (state : List UInt32) (done full : Nat) (bytes : Bytes)
    (h : state.length = 8) : (absorb state done full bytes).length = 8 := by
  induction full generalizing state done bytes with
  | zero => exact length_compress _ _ _ _ h
  | succ full ih => exact ih _ _ _ (length_compress _ _ _ _ h)

theorem length_hash (message : Bytes) : (hash message).length = 32 := by
  have h := length_absorb (initial.zipWith (· ^^^ ·) (0x01010020 :: List.replicate 7 0)) 0
    ((message.length - 1) / 64) message (by decide)
  simp only [hash, List.length_flatMap, length_littleEndian, List.map_const', h]
  rfl

def hash32 (message : Bytes) : Bytes32 :=
  ⟨hash message, length_hash message⟩

end ReportRelay.Blake2s
