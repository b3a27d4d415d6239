import Mathlib.Data.List.Basic
import Mathlib.Tactic.Ring

/-!
# Byte strings, windows and fixed-width words

A byte string is a `List UInt8`. `window` is the read of a range, `splice` the write of one, and
`leNat`, `leBytes`, `beNat`, `beBytes` are the little- and big-endian readings of a fixed number
of bytes. Nothing here names a format.
-/

namespace Netsystem

abbrev Bytes : Type := List UInt8

/-! ## Windows and splices -/

/-- The `width` bytes at `offset`, fewer where the string ends earlier. -/
def window (bytes : Bytes) (offset width : Nat) : Bytes := (bytes.drop offset).take width

/-- `patch` written over the bytes at `offset`. -/
def splice (bytes : Bytes) (offset : Nat) (patch : Bytes) : Bytes :=
  bytes.take offset ++ patch ++ bytes.drop (offset + patch.length)

theorem length_window {bytes : Bytes} {offset width : Nat}
    (inside : offset + width ≤ bytes.length) : (window bytes offset width).length = width := by
  simp only [window, List.length_take, List.length_drop]
  omega

@[simp] theorem window_zero (bytes : Bytes) (offset : Nat) : window bytes offset 0 = [] := by
  simp [window]

theorem window_succ {bytes : Bytes} {offset width : Nat} (inside : offset < bytes.length) :
    window bytes offset (width + 1) = bytes[offset] :: window bytes (offset + 1) width := by
  simp only [window, List.drop_eq_getElem_cons inside, List.take_succ_cons]

/-- A window of a window. -/
theorem window_window {bytes : Bytes} {offset width inner count : Nat}
    (inside : inner + count ≤ width) :
    window (window bytes offset width) inner count = window bytes (offset + inner) count := by
  simp only [window, List.drop_take, List.take_take, List.drop_drop]
  congr 1
  omega

theorem window_append_left {left right : Bytes} {offset width : Nat}
    (inside : offset + width ≤ left.length) :
    window (left ++ right) offset width = window left offset width := by
  have shorter : width ≤ (left.drop offset).length := by
    rw [List.length_drop]
    omega
  rw [window, window, List.drop_append_of_le_length (by omega),
    List.take_append_of_le_length shorter]

theorem window_append_right (left right : Bytes) (offset width : Nat) :
    window (left ++ right) (left.length + offset) width = window right offset width := by
  simp only [window, List.drop_length_add_append]

/-- A window behind a part of known length. -/
theorem window_behind {left : Bytes} {size : Nat} (same : left.length = size) (right : Bytes)
    (offset width : Nat) : window (left ++ right) (size + offset) width =
      window right offset width := by
  rw [← same, window_append_right]

/-- The window of a part of known length at the front. -/
theorem window_front {left : Bytes} {size : Nat} (same : left.length = size) (right : Bytes) :
    window (left ++ right) 0 size = left := by
  rw [window, List.drop_zero, ← same, List.take_left]

/-- The middle of three parts. -/
theorem window_append_middle (left middle right : Bytes) :
    window (left ++ (middle ++ right)) left.length middle.length = middle := by
  have shifted := window_append_right left (middle ++ right) 0 middle.length
  rw [Nat.add_zero] at shifted
  rw [shifted, window_append_left (by omega), window, List.drop_zero, List.take_length]

/-- The left part of a window. -/
theorem window_left {bytes left right : Bytes} {offset : Nat}
    (whole : window bytes offset (left ++ right).length = left ++ right) :
    window bytes offset left.length = left := by
  have part : 0 + left.length ≤ (left ++ right).length := by simp
  have inner : window (window bytes offset (left ++ right).length) 0 left.length =
      window bytes (offset + 0) left.length := window_window part
  rw [whole, Nat.add_zero, window_append_left (by omega)] at inner
  rw [← inner, window, List.drop_zero, List.take_length]

/-- The right part of a window. -/
theorem window_right {bytes left right : Bytes} {offset : Nat}
    (whole : window bytes offset (left ++ right).length = left ++ right) :
    window bytes (offset + left.length) right.length = right := by
  have part : left.length + right.length ≤ (left ++ right).length := by simp
  have inner : window (window bytes offset (left ++ right).length) left.length right.length =
      window bytes (offset + left.length) right.length := window_window part
  have shifted := window_append_right left right 0 right.length
  rw [Nat.add_zero] at shifted
  rw [whole, shifted] at inner
  rw [← inner, window, List.drop_zero, List.take_length]

theorem length_splice {bytes patch : Bytes} {offset : Nat}
    (inside : offset + patch.length ≤ bytes.length) :
    (splice bytes offset patch).length = bytes.length := by
  simp only [splice, List.length_append, List.length_take, List.length_drop]
  omega

/-- Reading back what was written. -/
theorem window_splice_same {bytes : Bytes} (patch : Bytes) {offset : Nat}
    (inside : offset ≤ bytes.length) :
    window (splice bytes offset patch) offset patch.length = patch := by
  have start : (bytes.take offset).length = offset := by simpa using inside
  rw [splice, List.append_assoc]
  have shifted := window_append_right (bytes.take offset)
    (patch ++ bytes.drop (offset + patch.length)) 0 patch.length
  rw [start, Nat.add_zero] at shifted
  rw [shifted, window_append_left (by omega)]
  simp [window]

/-- A write leaves every window disjoint from it as it was. -/
theorem window_splice_disjoint {bytes patch : Bytes} {offset other width : Nat}
    (inside : offset + patch.length ≤ bytes.length)
    (apart : other + width ≤ offset ∨ offset + patch.length ≤ other) :
    window (splice bytes offset patch) other width = window bytes other width := by
  have start : (bytes.take offset).length = offset := by
    rw [List.length_take]
    omega
  rcases apart with before | after
  · rw [splice, List.append_assoc, window_append_left (by omega)]
    conv_rhs => rw [← List.take_append_drop offset bytes]
    rw [window_append_left (by omega)]
  · have front : (bytes.take offset ++ patch).length = offset + patch.length := by
      rw [List.length_append, start]
    obtain ⟨rest, rfl⟩ := Nat.exists_eq_add_of_le after
    have shifted := window_append_right (bytes.take offset ++ patch)
      (bytes.drop (offset + patch.length)) rest width
    rw [front] at shifted
    rw [splice, shifted]
    simp only [window, List.drop_drop]

@[simp] theorem splice_nil (bytes : Bytes) (offset : Nat) : splice bytes offset [] = bytes := by
  simp [splice]

/-- Two writes one behind the other. -/
theorem splice_splice {bytes : Bytes} (left right : Bytes) {offset : Nat}
    (inside : offset ≤ bytes.length) :
    splice (splice bytes offset left) (offset + left.length) right =
      splice bytes offset (left ++ right) := by
  have front : (bytes.take offset ++ left).length = offset + left.length := by
    rw [List.length_append, List.length_take, Nat.min_eq_left inside]
  have head : (splice bytes offset left).take (offset + left.length) = bytes.take offset ++
      left := by
    rw [splice, ← front, List.take_left]
  have tail : (splice bytes offset left).drop (offset + left.length + right.length) =
      bytes.drop (offset + left.length + right.length) := by
    rw [splice, ← front, List.drop_length_add_append, List.drop_drop]
  rw [splice, head, tail, splice, List.length_append, Nat.add_assoc]
  simp only [List.append_assoc]

/-- What a write from the start leaves in front. -/
theorem take_splice_zero (bytes patch : Bytes) : (splice bytes 0 patch).take patch.length =
    patch := by
  rw [splice, List.take_zero, List.nil_append, List.take_left]

/-! ## Fixed-width words -/

/-- The value of a byte string, least significant byte first. -/
def leNat : Bytes → Nat
  | [] => 0
  | byte :: rest => byte.toNat + 256 * leNat rest

/-- The `width` least significant bytes of a value, least significant first. -/
def leBytes : Nat → Nat → Bytes
  | 0, _ => []
  | width + 1, value => UInt8.ofNat value :: leBytes width (value / 256)

/-- The value of a byte string, most significant byte first. -/
def beNat (bytes : Bytes) : Nat := leNat bytes.reverse

/-- The `width` least significant bytes of a value, most significant first. -/
def beBytes (width value : Nat) : Bytes := (leBytes width value).reverse

@[simp] theorem length_leBytes (width value : Nat) : (leBytes width value).length = width := by
  induction width generalizing value with
  | zero => rfl
  | succ width ih => simp [leBytes, ih]

@[simp] theorem length_beBytes (width value : Nat) : (beBytes width value).length = width := by
  simp [beBytes]

theorem leNat_lt (bytes : Bytes) : leNat bytes < 256 ^ bytes.length := by
  induction bytes with
  | nil => simp [leNat]
  | cons byte rest ih =>
      have small := byte.toNat_lt
      simp only [leNat, List.length_cons, pow_succ]
      omega

theorem leNat_leBytes {width value : Nat} (fits : value < 256 ^ width) :
    leNat (leBytes width value) = value := by
  induction width generalizing value with
  | zero => simp only [pow_zero, Nat.lt_one_iff] at fits; simp [leBytes, leNat, fits]
  | succ width ih =>
      have rest : value / 256 < 256 ^ width := by
        rw [pow_succ] at fits
        omega
      have low : (UInt8.ofNat value).toNat = value % 256 := by simp
      rw [leBytes, leNat, ih rest, low]
      omega

/-- A value too large for the width loses its upper part. -/
theorem leNat_leBytes_mod (width value : Nat) :
    leNat (leBytes width value) = value % 256 ^ width := by
  induction width generalizing value with
  | zero => simp [leBytes, leNat, Nat.mod_one]
  | succ width ih =>
      have low : (UInt8.ofNat value).toNat = value % 256 := by simp
      rw [leBytes, leNat, ih, low, Nat.pow_succ', Nat.mod_mul]

theorem leBytes_leNat (bytes : Bytes) : leBytes bytes.length (leNat bytes) = bytes := by
  induction bytes with
  | nil => rfl
  | cons byte rest ih =>
      have small := byte.toNat_lt
      have high : (byte.toNat + 256 * leNat rest) / 256 = leNat rest := by omega
      have low : UInt8.ofNat (byte.toNat + 256 * leNat rest) = byte := by
        apply UInt8.toNat_inj.mp
        rw [UInt8.toNat_ofNat']
        omega
      rw [leNat, List.length_cons, leBytes, high, ih, low]

/-- A word between two parts. -/
theorem leNat_window_middle {width value : Nat} (left right : Bytes)
    (fits : value < 256 ^ width) :
    leNat (window (left ++ (leBytes width value ++ right)) left.length width) = value := by
  have middle := window_append_middle left (leBytes width value) right
  rw [length_leBytes] at middle
  rw [middle, leNat_leBytes fits]

theorem leNat_window_u64 (left right : Bytes) (value : UInt64) :
    leNat (window (left ++ (leBytes 8 value.toNat ++ right)) left.length 8) = value.toNat :=
  leNat_window_middle left right value.toNat_lt

theorem beNat_beBytes {width value : Nat} (fits : value < 256 ^ width) :
    beNat (beBytes width value) = value := by
  rw [beNat, beBytes, List.reverse_reverse, leNat_leBytes fits]

theorem beNat_beBytes_mod (width value : Nat) :
    beNat (beBytes width value) = value % 256 ^ width := by
  rw [beNat, beBytes, List.reverse_reverse, leNat_leBytes_mod]

/-! ## Text -/

/-- `std::str::from_utf8`, as an owned string. -/
def fromUtf8 (bytes : Bytes) : Option String := String.fromUTF8? ⟨bytes.toArray⟩

/-- `str::as_bytes`. -/
def toUtf8 (text : String) : Bytes := text.toByteArray.data.toList

theorem fromUtf8_toUtf8 (text : String) : fromUtf8 (toUtf8 text) = some text := by
  have same : (⟨(toUtf8 text).toArray⟩ : ByteArray) = text.toByteArray := by
    rw [toUtf8, Array.toArray_toList]
  rw [fromUtf8, same, String.fromUTF8?, dif_pos text.isValidUTF8]
  rfl

/-- What the UTF-8 check lets through is the text of its bytes. -/
theorem fromUtf8_eq_some_iff {bytes : Bytes} {text : String} :
    fromUtf8 bytes = some text ↔ bytes = toUtf8 text := by
  constructor
  · intro valid
    unfold fromUtf8 String.fromUTF8? at valid
    split at valid
    · cases valid
      rfl
    · cases valid
  · rintro rfl
    exact fromUtf8_toUtf8 text

theorem toUtf8_append (front back : String) : toUtf8 (front ++ back) = toUtf8 front ++
    toUtf8 back := by
  unfold toUtf8
  rw [String.toByteArray_append, ByteArray.toList_data_append]

/-- The first NUL after a text without one. -/
theorem findIdx?_solid {bytes rest : Bytes} (solid : 0 ∉ bytes) :
    (bytes ++ 0 :: rest).findIdx? (· == 0) = some bytes.length := by
  induction bytes with
  | nil => simp [List.findIdx?_cons]
  | cons byte bytes ih =>
      rw [List.mem_cons, not_or] at solid
      rw [List.cons_append, List.findIdx?_cons, ih solid.2]
      simp [Ne.symm solid.1]

theorem toUtf8_inj {left right : String} (same : toUtf8 left = toUtf8 right) : left = right := by
  have back := fromUtf8_toUtf8 left
  rw [same, fromUtf8_toUtf8] at back
  exact (Option.some.inj back).symm

/-- The text up to a character boundary. -/
theorem exists_append_of_boundary {text : String} {cut : Nat}
    (boundary : String.Pos.Raw.IsValid text ⟨cut⟩) :
    ∃ front back, text = front ++ back ∧ toUtf8 front = (toUtf8 text).take cut := by
  obtain ⟨front, back, rfl, here⟩ := String.Pos.Raw.isValid_iff_exists_append.mp boundary
  refine ⟨front, back, rfl, ?_⟩
  have size : cut = (toUtf8 front).length := congrArg String.Pos.Raw.byteIdx here
  rw [toUtf8_append, size, List.take_left]

/-- Where the front of a text is a text itself, a character ends. -/
theorem boundary_of_take {text front : String} {cut : Nat} (inside : cut ≤ (toUtf8 text).length)
    (same : toUtf8 front = (toUtf8 text).take cut) : String.Pos.Raw.IsValid text ⟨cut⟩ := by
  rw [String.Pos.Raw.isValid_iff_isValidUTF8_extract_zero]
  refine ⟨inside, ?_⟩
  have bytes : text.toByteArray.extract 0 cut = front.toByteArray := by
    apply ByteArray.ext
    apply Array.toList_inj.mp
    rw [ByteArray.data_extract, Array.toList_extract, List.extract_eq_take_drop]
    exact same.symm
  rw [bytes]
  exact front.isValidUTF8

/-- A NUL starts a character. -/
theorem boundary_of_nul {text : String} {cut : Nat} (nul : (toUtf8 text)[cut]? = some 0) :
    String.Pos.Raw.IsValid text ⟨cut⟩ := by
  obtain ⟨inside, here⟩ := List.getElem?_eq_some_iff.mp nul
  rw [String.Pos.Raw.isValid_iff_isUTF8FirstByte]
  refine .inr ⟨inside, ?_⟩
  have byte : text.getUTF8Byte ⟨cut⟩ inside = 0 := here
  rw [byte]
  decide

/-! ## Lossy text -/

/-- How many bytes `from_utf8_lossy` replaces together where no character stands: the first, and
what could still have gone on with it. -/
def brokenLength : Bytes → Nat
  | [] => 0
  | first :: rest =>
      let continues (index : Nat) (low high : UInt8) : Bool :=
        rest[index]?.any fun byte => low ≤ byte && byte ≤ high
      let second : Bool :=
        if first = 0xe0 then continues 0 0xa0 0xbf
        else if 0xe1 ≤ first ∧ first ≤ 0xec then continues 0 0x80 0xbf
        else if first = 0xed then continues 0 0x80 0x9f
        else if 0xee ≤ first ∧ first ≤ 0xef then continues 0 0x80 0xbf
        else if first = 0xf0 then continues 0 0x90 0xbf
        else if 0xf1 ≤ first ∧ first ≤ 0xf3 then continues 0 0x80 0xbf
        else if first = 0xf4 then continues 0 0x80 0x8f
        else false
      if !second then 1
      else if first < 0xf0 || !continues 1 0x80 0xbf then 2
      else 3

/-- The characters of `from_utf8_lossy`. -/
def lossyChars (bytes : Bytes) : List Char :=
  match bytes with
  | [] => []
  | first :: rest =>
      match (⟨(first :: rest).toArray⟩ : ByteArray).utf8DecodeChar? 0 with
      | some char => char :: lossyChars (rest.drop (char.utf8Size - 1))
      | none => '\uFFFD' :: lossyChars (rest.drop (brokenLength (first :: rest) - 1))
termination_by bytes.length
decreasing_by
  all_goals simp only [List.length_drop, List.length_cons]; omega

/-- `String::from_utf8_lossy`. -/
def fromUtf8Lossy (bytes : Bytes) : String := String.ofList (lossyChars bytes)

theorem lossyChars_utf8 (chars : List Char) :
    lossyChars (toUtf8 (String.ofList chars)) = chars := by
  induction chars with
  | nil => simp [toUtf8, lossyChars]
  | cons char chars ih =>
      have split : toUtf8 (String.ofList (char :: chars)) =
          String.utf8EncodeChar char ++ toUtf8 (String.ofList chars) := by
        unfold toUtf8
        rw [String.toByteArray_ofList, List.utf8Encode_cons, ByteArray.toList_data_append,
          List.utf8Encode_singleton, String.toByteArray_ofList, List.toList_data_toByteArray]
      have decoded :
          (⟨(toUtf8 (String.ofList (char :: chars))).toArray⟩ : ByteArray).utf8DecodeChar? 0 =
          some char := by
        rw [toUtf8, Array.toArray_toList, String.toByteArray_ofList]
        exact List.utf8DecodeChar?_utf8Encode_cons
      have width : (String.utf8EncodeChar char).length = char.utf8Size :=
        String.length_utf8EncodeChar char
      have positive := char.utf8Size_pos
      obtain ⟨first, others, encoded⟩ : ∃ first others, String.utf8EncodeChar char = first ::
        others := by
        apply List.exists_cons_of_length_pos
        omega
      rw [split, encoded, List.cons_append] at decoded ⊢
      rw [lossyChars, decoded]
      have rest : (others ++ toUtf8 (String.ofList chars)).drop (char.utf8Size - 1) =
          toUtf8 (String.ofList chars) := by
        rw [encoded, List.length_cons] at width
        rw [← width, Nat.add_sub_cancel, List.drop_left]
      dsimp only
      rw [rest, ih]

theorem fromUtf8Lossy_toUtf8 (text : String) : fromUtf8Lossy (toUtf8 text) = text := by
  have chars := lossyChars_utf8 text.toList
  rw [String.ofList_toList] at chars
  rw [fromUtf8Lossy, chars, String.ofList_toList]

end Netsystem
