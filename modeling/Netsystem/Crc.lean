import Netsystem.Bytes

/-!
# Reflected cyclic redundancy checks

The check as it is defined, one bit of the message at a time, and the form in which programs
compute it, a whole byte added into the register and then shifted out. Nothing here names a
declaration.
-/

namespace Netsystem.Crc

variable {width : Nat}

/-- One clock of the register with nothing fed in. -/
def shift (generator register : BitVec width) : BitVec width :=
  (register >>> 1) ^^^ if register.getLsbD 0 then generator else 0

/-- One clock of the register, with a bit of the message. -/
def feed (generator register : BitVec width) (bit : Bool) : BitVec width :=
  (register >>> 1) ^^^ if register.getLsbD 0 ^^ bit then generator else 0

/-- The bits of a word, least significant first. -/
def bitsOf {size : Nat} (word : BitVec size) : List Bool := (List.range size).map word.getLsbD

/-- The bits of a message in the order of a reflected check. -/
def messageBits (message : Bytes) : List Bool :=
  message.flatMap fun byte => bitsOf byte.toBitVec

/-- The register after a message. -/
def update (generator register : BitVec width) (message : Bytes) : BitVec width :=
  (messageBits message).foldl (feed generator) register

/-- CRC-32, with all ones as the initial value and as the final xor. -/
def crc32 (message : Bytes) : UInt32 :=
  .ofBitVec (BitVec.allOnes 32 ^^^ update 0xedb88320#32 (BitVec.allOnes 32) message)

/-! ## Words at a time -/

/-- A bit of the message may be added into the register beforehand, with those behind it. -/
theorem shift_xor (generator register word : BitVec width) :
    shift generator (register ^^^ word) =
      feed generator register (word.getLsbD 0) ^^^ word >>> 1 := by
  unfold shift feed
  rw [BitVec.getLsbD_xor, BitVec.ushiftRight_xor_distrib]
  ac_rfl

/-- So it is with the first `count` bits. -/
theorem iterate_shift_xor (generator register word : BitVec width) (count : Nat) :
    (shift generator)^[count] (register ^^^ word) =
      ((List.range count).map word.getLsbD).foldl (feed generator) register ^^^ word >>>
        count := by
  induction count with
  | zero => simp
  | succ count ih =>
      have next : (word >>> count).getLsbD 0 = word.getLsbD count := by
        rw [BitVec.getLsbD_ushiftRight, Nat.add_zero]
      rw [Function.iterate_succ_apply', ih, shift_xor, next, List.range_succ, List.map_append,
        List.foldl_append, BitVec.shiftRight_add]
      rfl

/-- A word of the message added into the register and shifted out is the word fed in bit by
bit. -/
theorem iterate_shift_setWidth {size : Nat} (generator register : BitVec width)
    (word : BitVec size) (narrow : size ≤ width) :
    (shift generator)^[size] (register ^^^ word.setWidth width) =
      (bitsOf word).foldl (feed generator) register := by
  have gone : word.setWidth width >>> size = BitVec.ofNat width 0 := by
    apply BitVec.eq_of_getLsbD_eq
    intro index inside
    rw [BitVec.getLsbD_ushiftRight, BitVec.getLsbD_setWidth, BitVec.getLsbD_of_ge _ _ (by omega)]
    simp
  have same : (List.range size).map (word.setWidth width).getLsbD = bitsOf word := by
    unfold bitsOf
    apply List.map_congr_left
    intro index inside
    have small : index < width := by
      rw [List.mem_range] at inside
      omega
    rw [BitVec.getLsbD_setWidth, decide_eq_true small, Bool.true_and]
  rw [iterate_shift_xor, gone, same, BitVec.xor_zero]

/-! ## Messages -/

theorem update_cons (generator register : BitVec width) (byte : UInt8) (back : Bytes) :
    update generator register (byte :: back) =
      update generator ((bitsOf byte.toBitVec).foldl (feed generator) register) back := by
  unfold update messageBits
  rw [List.flatMap_cons, List.foldl_append]

end Netsystem.Crc
