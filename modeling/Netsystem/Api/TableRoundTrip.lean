import Mathlib.Data.Nat.Bitwise
import Netsystem.Stream
import Netsystem.Api.Table

/-!
# Reading a message table back

The server's writer of the message table, and its reader `deserialize_message_table`: whatever is
behind a table, its entries come back in order, and no strict prefix of a table is read.
-/

namespace Netsystem.Api

/-! ## The writer -/

/-- The variable-length form of a `u64`: 7 bits in one byte, 14 in two, 29 in four or 64 in
nine. -/
def encodeInteger (value : Nat) : Bytes :=
  if value < 2 ^ 7 then leBytes 1 (2 * value + 1)
  else if value - 2 ^ 7 < 2 ^ 14 then leBytes 2 (4 * (value - 2 ^ 7) + 2)
  else if value - 2 ^ 7 - 2 ^ 14 < 2 ^ 29 then leBytes 4 (8 * (value - 2 ^ 7 - 2 ^ 14) + 4)
  else 0 :: leBytes 8 value

def encodeEntry (entry : String × UInt16) : Bytes :=
  encodeInteger entry.2.toNat ++ (encodeInteger (toUtf8 entry.1).length ++ toUtf8 entry.1)

def encodeTable (entries : List (String × UInt16)) : Bytes :=
  beBytes 4 entries.length ++ entries.flatMap encodeEntry

/-! ## Integers -/

/-- A mask of one bit tests it. -/
theorem and_bit_ne_zero {byte mask : UInt8} {bit : Nat} (single : mask.toNat = 2 ^ bit) :
    byte &&& mask ≠ 0 ↔ byte.toNat / 2 ^ bit % 2 = 1 := by
  have value : (byte &&& mask).toNat = (byte.toNat.testBit bit).toNat * 2 ^ bit := by
    rw [UInt8.toNat_and, single, Nat.and_two_pow]
  have test : byte.toNat.testBit bit = true ↔ byte.toNat / 2 ^ bit % 2 = 1 := by
    rw [Nat.testBit_eq_decide_div_mod_eq, decide_eq_true_iff]
  rw [ne_eq, ← UInt8.toNat_inj, value, ← test]
  cases byte.toNat.testBit bit with
  | false => simp
  | true => simp

/-- The three tags of an integer, on the low bits of the value under them. -/
theorem tag_ofNat (value : Nat) :
    (UInt8.ofNat value &&& 1 ≠ 0 ↔ value % 2 = 1) ∧
      (UInt8.ofNat value &&& 2 ≠ 0 ↔ value / 2 % 2 = 1) ∧
      (UInt8.ofNat value &&& 4 ≠ 0 ↔ value / 4 % 2 = 1) := by
  have low : (UInt8.ofNat value).toNat = value % 256 := UInt8.toNat_ofNat'
  have first : (1 : UInt8).toNat = 2 ^ 0 := rfl
  have second : (2 : UInt8).toNat = 2 ^ 1 := rfl
  have third : (4 : UInt8).toNat = 2 ^ 2 := rfl
  rw [and_bit_ne_zero first, and_bit_ne_zero second, and_bit_ne_zero third, low]
  omega

theorem reads_take (text : Bytes) : Reader.Reads (Table.take text.length) text text := by
  intro rest
  unfold Table.take
  rw [if_neg (by simp), List.take_left, List.drop_left]

/-- The bytes of a little-endian word behind the first. -/
theorem reads_take_tail (width value : Nat) :
    Reader.Reads (Table.take width) (leBytes width value) (leBytes width value) := by
  have whole := reads_take (leBytes width value)
  rwa [length_leBytes] at whole

/-- `read_integer` behind its first byte. -/
def payload (byte : UInt8) : Table.Decode Nat :=
  if byte &&& 1 ≠ 0 then pure (byte / 2).toNat
  else if byte &&& 2 ≠ 0 then do
    let rest ← Table.take 1
    pure (128 + leNat (byte :: rest) / 4)
  else if byte &&& 4 ≠ 0 then do
    let rest ← Table.take 3
    pure (128 + 16384 + leNat (byte :: rest) / 8)
  else do
    let bytes ← Table.take 8
    pure (leNat bytes)

theorem readInteger_eq :
    Table.readInteger = Table.take 1 >>= fun head => payload (head.headD 0) := rfl

/-- A first byte, and what stands behind it. -/
theorem reads_readInteger_cons {byte : UInt8} {text : Bytes} {value : Nat}
    (behind : Reader.Reads (payload byte) text value) :
    Reader.Reads Table.readInteger (byte :: text) value := by
  rw [readInteger_eq]
  exact (reads_take [byte]).bind behind

/-- Every `u64` is read back from its variable-length form. -/
theorem reads_readInteger {value : Nat} (fits : value < 2 ^ 64) :
    Reader.Reads Table.readInteger (encodeInteger value) value := by
  unfold encodeInteger
  split
  case isTrue small =>
    obtain ⟨first, -, -⟩ := tag_ofNat (2 * value + 1)
    have half : (UInt8.ofNat (2 * value + 1) / 2).toNat = value := by
      have two : (2 : UInt8).toNat = 2 := rfl
      rw [UInt8.toNat_div, UInt8.toNat_ofNat', two]
      omega
    apply reads_readInteger_cons
    unfold payload
    rw [if_pos (first.mpr (by omega)), half]
    exact Reader.Reads.pure value
  case isFalse large =>
  split
  case isTrue small =>
    obtain ⟨first, second, -⟩ := tag_ofNat (4 * (value - 2 ^ 7) + 2)
    have word : leNat (leBytes 2 (4 * (value - 2 ^ 7) + 2)) = 4 * (value - 2 ^ 7) + 2 :=
      leNat_leBytes (by omega)
    have quarter : 128 + (4 * (value - 2 ^ 7) + 2) / 4 = value := by omega
    apply reads_readInteger_cons
    unfold payload
    rw [if_neg (mt first.mp (by omega)), if_pos (second.mpr (by omega))]
    refine (reads_take_tail 1 _).map ?_
    rw [leBytes] at word
    rw [word, quarter]
    exact Reader.Reads.pure value
  case isFalse larger =>
  split
  case isTrue small =>
    obtain ⟨first, second, third⟩ := tag_ofNat (8 * (value - 2 ^ 7 - 2 ^ 14) + 4)
    have word : leNat (leBytes 4 (8 * (value - 2 ^ 7 - 2 ^ 14) + 4)) =
        8 * (value - 2 ^ 7 - 2 ^ 14) + 4 := leNat_leBytes (by omega)
    have eighth : 128 + 16384 + (8 * (value - 2 ^ 7 - 2 ^ 14) + 4) / 8 = value := by omega
    apply reads_readInteger_cons
    unfold payload
    rw [if_neg (mt first.mp (by omega)), if_neg (mt second.mp (by omega)),
      if_pos (third.mpr (by omega))]
    refine (reads_take_tail 3 _).map ?_
    rw [leBytes] at word
    rw [word, eighth]
    exact Reader.Reads.pure value
  case isFalse largest =>
    have word : leNat (leBytes 8 value) = value := leNat_leBytes (by omega)
    apply reads_readInteger_cons
    refine (reads_take_tail 8 value).map ?_
    rw [word]
    exact Reader.Reads.pure value

/-! ## Entries -/

theorem reads_entry {entry : String × UInt16} (short : (toUtf8 entry.1).length < 2 ^ 64) :
    Reader.Reads Table.entry (encodeEntry entry) entry := by
  have id := entry.2.toNat_lt
  refine (reads_readInteger (by omega)).bind ?_
  rw [if_neg (by omega)]
  refine (reads_readInteger short).bind ((reads_take (toUtf8 entry.1)).map ?_)
  rw [fromUtf8_toUtf8]
  have whole : (entry.1, UInt16.ofNat entry.2.toNat) = entry := by
    rw [UInt16.ofNat_toNat]
  simp only [whole]
  exact Reader.Reads.pure entry

theorem reads_entries {entries : List (String × UInt16)}
    (short : ∀ entry ∈ entries, (toUtf8 entry.1).length < 2 ^ 64) :
    Reader.Reads (Table.entries entries.length) (entries.flatMap encodeEntry) entries := by
  induction entries with
  | nil => exact Reader.Reads.pure []
  | cons entry entries ih =>
      obtain ⟨first, rest⟩ := List.forall_mem_cons.mp short
      rw [List.flatMap_cons]
      refine (reads_entry first).bind ((ih rest).map ?_)
      exact Reader.Reads.pure (entry :: entries)

theorem reads_table {entries : List (String × UInt16)} (few : entries.length < 2 ^ 32)
    (short : ∀ entry ∈ entries, (toUtf8 entry.1).length < 2 ^ 64) :
    Reader.Reads Table.table (encodeTable entries) entries := by
  have count := reads_take (beBytes 4 entries.length)
  rw [length_beBytes] at count
  refine count.bind ?_
  rw [beNat_beBytes (by omega)]
  exact reads_entries short

/-! ## Nothing is read ahead -/

theorem local_take (length : Nat) : Reader.Local (Table.take length) := by
  intro input value rest success more
  unfold Table.take at success ⊢
  split at success
  · cases success
  case isFalse enough =>
    cases success
    rw [not_lt] at enough
    have room : ¬(input ++ more).length < length := by
      rw [List.length_append]
      omega
    rw [if_neg room, List.take_append_of_le_length enough, List.drop_append_of_le_length enough]

theorem local_readInteger : Reader.Local Table.readInteger := by
  unfold Table.readInteger
  refine (local_take 1).bind fun head => ?_
  refine Reader.Local.ite (Reader.Local.pure _) (Reader.Local.ite ?_ (Reader.Local.ite ?_ ?_))
  · exact (local_take 1).bind fun rest => Reader.Local.pure _
  · exact (local_take 3).bind fun rest => Reader.Local.pure _
  · exact (local_take 8).bind fun bytes => Reader.Local.pure _

theorem local_entry : Reader.Local Table.entry := by
  unfold Table.entry
  refine local_readInteger.bind fun id => Reader.Local.check ?_
  refine local_readInteger.bind fun length => (local_take length).bind fun text => ?_
  rcases fromUtf8 text with _ | name
  · exact Reader.Local.throw _
  · exact Reader.Local.pure _

theorem local_entries (count : Nat) : Reader.Local (Table.entries count) := by
  induction count with
  | zero => exact Reader.Local.pure []
  | succ count ih =>
      unfold Table.entries
      exact local_entry.bind fun first => ih.bind fun rest => Reader.Local.pure _

theorem local_table : Reader.Local Table.table := by
  unfold Table.table
  exact (local_take 4).bind fun count => local_entries _

/-! ## The table -/

/-- The reader inverts the writer in front of any bytes, and fails on every strict prefix of what
the writer makes. -/
theorem deserializeMessageTable_encodeTable {entries : List (String × UInt16)}
    (few : entries.length < 2 ^ 32)
    (short : ∀ entry ∈ entries, (toUtf8 entry.1).length < 2 ^ 64) :
    (∀ trailing, deserializeMessageTable (encodeTable entries ++ trailing) = .ok entries) ∧
      ∀ front, front <+: encodeTable entries → front ≠ encodeTable entries →
        ∃ reason, deserializeMessageTable front = .error reason := by
  have whole := reads_table few short
  constructor
  · intro trailing
    unfold deserializeMessageTable
    rw [whole trailing]
  · intro front isFront strict
    obtain ⟨reason, rest, failure⟩ := whole.cut local_table isFront strict
    refine ⟨reason, ?_⟩
    unfold deserializeMessageTable
    rw [failure]

/-- The theorem at a table of one entry with an id of two bytes. -/
theorem deserializeMessageTable_encodeTable_ping :
    (∀ trailing, deserializeMessageTable (encodeTable [("ping", 300)] ++ trailing) =
        .ok [("ping", 300)]) ∧
      ∀ front, front <+: encodeTable [("ping", 300)] → front ≠ encodeTable [("ping", 300)] →
        ∃ reason, deserializeMessageTable front = .error reason :=
  deserializeMessageTable_encodeTable (by decide) (by decide)

end Netsystem.Api
