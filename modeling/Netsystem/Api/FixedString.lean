import Netsystem.Api.Message
import Netsystem.Api.RoundTrip

/-!
# Fixed strings

`hammer-binary-api-protocol/src/value.rs`. `from_str` cuts a text by bytes, and `as_str` reads
what is left as UTF-8: `carried_iff` says that this gives a text back exactly where the cut does
not fall inside a character.
-/

namespace Netsystem.Api

/-! ## Arrays of values -/

/-- The values in order. -/
def Repeated.toList {α : Type} : (count : Nat) → Repeated α count → List α
  | 0, _ => []
  | count + 1, value => value.1 :: Repeated.toList count value.2

theorem Repeated.toList_ofFn {α : Type} (count : Nat) (make : Nat → α) :
    Repeated.toList count (Repeated.ofFn count make) = (List.range count).map make := by
  induction count generalizing make with
  | zero => rfl
  | succ count ih =>
      have head : Repeated.toList (count + 1) (Repeated.ofFn (count + 1) make) =
          make 0 :: Repeated.toList count (Repeated.ofFn count fun index => make (index + 1)) :=
            rfl
      rw [head, ih, List.range_succ_eq_map, List.map_cons, List.map_map]
      rfl

theorem Repeated.all_of_forall {α : Type} {holds : α → Prop} (each : ∀ value, holds value)
    (count : Nat) (values : Repeated α count) : Repeated.All holds count values := by
  induction count with
  | zero => exact trivial
  | succ count ih => exact ⟨each values.1, ih values.2⟩

theorem Repeated.length_toList {α : Type} (count : Nat) (values : Repeated α count) :
    (Repeated.toList count values).length = count := by
  induction count with
  | zero => rfl
  | succ count ih => exact congrArg (· + 1) (ih values.2)

/-- A front copied into zeros. -/
theorem map_range_copied {bytes : Bytes} {count total : Nat} (inside : count ≤ bytes.length)
    (room : count ≤ total) :
    (List.range total).map (fun index => if index < count then bytes.getD index 0 else 0) =
      bytes.take count ++ List.replicate (total - count) 0 := by
  apply List.ext_getElem
  · simp only [List.length_map, List.length_range, List.length_append, List.length_take,
      List.length_replicate]
    omega
  intro index left right
  rw [List.getElem_map, List.getElem_range]
  by_cases front : index < count
  · rw [if_pos front, List.getElem_append_left (by rw [List.length_take]; omega),
      List.getElem_take, List.getD_eq_getElem?_getD, List.getElem?_eq_getElem (by omega),
      Option.getD_some]
  · rw [if_neg front, List.getElem_append_right (by rw [List.length_take]; omega),
      List.getElem_replicate]

namespace FixedString

variable {N : Nat}

/-- `FixedString::as_bytes`. -/
def asBytes (value : FixedString N) : Bytes :=
  (Repeated.toList N value.bytes).map UInt8.ofBitVec

/-- The bytes in front of the first NUL. -/
def content (value : FixedString N) : Bytes :=
  value.asBytes.take ((value.asBytes.findIdx? (· == 0)).getD N)

/-- `FixedString::as_str`. -/
def asStr (value : FixedString N) : Option String := fromUtf8 value.content

/-- `FixedString::into_string`. -/
def intoString (value : FixedString N) : String := fromUtf8Lossy value.content

/-- The number of bytes that `from_str` copies. -/
def copied (N : Nat) (text : String) : Nat := min (toUtf8 text).length (N - 1)

theorem asBytes_fromStr (N : Nat) (text : String) :
    (fromStr N text).asBytes =
      (toUtf8 text).take (copied N text) ++ List.replicate (N - copied N text) 0 := by
  have short : copied N text ≤ (toUtf8 text).length := Nat.min_le_left ..
  have small : copied N text ≤ N := by unfold copied; omega
  rw [← map_range_copied short small, asBytes, fromStr, Repeated.toList_ofFn, List.map_map]
  apply List.map_congr_left
  intro index _
  show UInt8.ofBitVec (if index < copied N text then _ else _) = _
  split <;> rfl

theorem length_asBytes (value : FixedString N) : value.asBytes.length = N := by
  rw [asBytes, List.length_map, Repeated.length_toList]

/-- The text is there up to its first NUL, or as far as it was copied. -/
theorem content_fromStr (positive : 0 < N) (text : String) :
    ∃ cut ≤ copied N text, (fromStr N text).content = (toUtf8 text).take cut ∧
      (cut = copied N text ∧ 0 ∉ (toUtf8 text).take (copied N text) ∨
        (toUtf8 text)[cut]? = some 0) := by
  have short : copied N text ≤ (toUtf8 text).length := Nat.min_le_left ..
  have spare : copied N text < N := by unfold copied; omega
  unfold content
  rw [asBytes_fromStr]
  by_cases nul : 0 ∈ (toUtf8 text).take (copied N text)
  · obtain ⟨front, rest, split, solid⟩ := List.eq_append_cons_of_mem nul
    have inside : front.length < copied N text := by
      have length := congrArg List.length split
      simp only [List.length_take, List.length_append, List.length_cons] at length
      omega
    have whole : toUtf8 text = front ++ (0 :: rest ++ (toUtf8 text).drop (copied N text)) := by
      conv_lhs => rw [← List.take_append_drop (copied N text) (toUtf8 text), split]
      rw [List.append_assoc]
    refine ⟨front.length, Nat.le_of_lt inside, ?_, .inr ?_⟩
    · rw [split, List.append_assoc, List.cons_append, findIdx?_solid solid, Option.getD_some,
        List.take_left, whole, List.take_left]
    · rw [whole]
      simp
  · refine ⟨copied N text, Nat.le_refl _, ?_, .inl ⟨rfl, nul⟩⟩
    obtain ⟨spares, some_spare⟩ : ∃ spares, N - copied N text = spares + 1 :=
      ⟨N - copied N text - 1, by omega⟩
    rw [some_spare, List.replicate_succ, findIdx?_solid nul, Option.getD_some, List.take_left]

/-! ## What a fixed string keeps of a text -/

/-- It ends in a NUL. Both readings give one front of the text, which leaves room for the NUL and
which, where the text has no NUL itself, is the longest such front. -/
structure Keeps (text : String) (value : FixedString N) : Prop where
  terminated : value.asBytes.getLast? = some 0
  reads : ∃ front back, text = front ++ back ∧ value.asStr = some front ∧
    value.intoString = front ∧ (toUtf8 front).length ≤ N - 1 ∧
    (0 ∉ toUtf8 text →
      (∀ other rest, text = other ++ rest → (toUtf8 other).length ≤ N - 1 →
        (toUtf8 other).length ≤ (toUtf8 front).length) ∧
      ((toUtf8 text).length < N → front = text))

/-- The cut of `from_str` stands behind a NUL of the text, or between two of its characters. -/
def CutsWhole (N : Nat) (text : String) : Prop :=
  0 ∈ (toUtf8 text).take (copied N text) ∨ String.Pos.Raw.IsValid text ⟨copied N text⟩

theorem keeps_of_content {text front back : String} {value : FixedString N}
    (terminated : value.asBytes.getLast? = some 0) (split : text = front ++ back)
    (content : value.content = toUtf8 front) (room : (toUtf8 front).length ≤ N - 1)
    (longest : 0 ∉ toUtf8 text → N - 1 ≤ (toUtf8 front).length ∨ front = text) :
    Keeps text value := by
  refine ⟨terminated, front, back, split, ?_, ?_, room, fun solid => ⟨?_, ?_⟩⟩
  · rw [asStr, content, fromUtf8_toUtf8]
  · rw [intoString, content, fromUtf8Lossy_toUtf8]
  · intro other rest starts fits
    rcases longest solid with full | whole
    · exact Nat.le_trans fits full
    · rw [whole, starts, toUtf8_append, List.length_append]
      omega
  · intro short
    rcases longest solid with full | whole
    · have length := congrArg (fun text => (toUtf8 text).length) split
      rw [toUtf8_append, List.length_append] at length
      have nothing : toUtf8 back = [] := List.length_eq_zero_iff.mp (by omega)
      apply toUtf8_inj
      rw [split, toUtf8_append, nothing, List.append_nil]
    · exact whole

theorem getLast?_fromStr (positive : 0 < N) (text : String) :
    (fromStr N text).asBytes.getLast? = some 0 := by
  have spare : N - copied N text ≠ 0 := by
    unfold copied
    omega
  rw [asBytes_fromStr, List.getLast?_append, List.getLast?_replicate, if_neg spare]
  rfl

/-- `from_str` keeps a text exactly where it cuts it whole. -/
theorem keeps_fromStr_iff (positive : 0 < N) (text : String) :
    Keeps text (fromStr N text) ↔ CutsWhole N text := by
  obtain ⟨cut, fits, content, why⟩ := content_fromStr positive text
  have short : copied N text ≤ (toUtf8 text).length := Nat.min_le_left ..
  have room : copied N text ≤ N - 1 := Nat.min_le_right ..
  constructor
  · intro kept
    obtain ⟨front, _, _, read, _⟩ := kept.reads
    rw [asStr, fromUtf8_eq_some_iff, content] at read
    rcases why with ⟨rfl, _⟩ | nul
    · exact .inr (boundary_of_take short read.symm)
    · by_cases inside : cut < copied N text
      · refine .inl (List.mem_of_getElem? (i := cut) ?_)
        rw [List.getElem?_take_of_lt inside, nul]
      · have same : cut = copied N text := by omega
        subst same
        exact .inr (boundary_of_nul nul)
  · intro whole
    have boundary : String.Pos.Raw.IsValid text ⟨cut⟩ := by
      rcases why with ⟨rfl, solid⟩ | nul
      · exact whole.resolve_left solid
      · exact boundary_of_nul nul
    obtain ⟨front, back, split, bytes⟩ := exists_append_of_boundary boundary
    have length : (toUtf8 front).length = cut := by
      rw [bytes, List.length_take]
      omega
    refine keeps_of_content (getLast?_fromStr positive text) split (content.trans bytes.symm)
      (by omega) fun solid => ?_
    rcases why with ⟨rfl, _⟩ | nul
    · by_cases long : N - 1 ≤ (toUtf8 text).length
      · rw [copied, Nat.min_eq_right long] at length
        exact .inl (Nat.le_of_eq length.symm)
      · have all : copied N text = (toUtf8 text).length := Nat.min_eq_left (by omega)
        rw [all, List.take_length] at bytes
        exact .inr (toUtf8_inj bytes)
    · exact absurd (List.mem_of_getElem? nul) solid

/-! ## On the wire -/

/-- `serialize_tuple` and `deserialize_tuple`: the bytes one by one. -/
def shape (N : Nat) : Shape := .array N (.int .u8)

theorem encodeArray_u8 (count : Nat) (values : Repeated (BitVec 8) count) :
    encodeArray ((Shape.int .u8).encode false) count values =
      (Repeated.toList count values).map UInt8.ofBitVec := by
  induction count with
  | zero => rfl
  | succ count ih =>
      have byte : UInt8.ofNat values.1.toNat = UInt8.ofBitVec values.1 :=
        UInt8.toBitVec_inj.mp (BitVec.ofNat_toNat ..)
      have head : (Shape.int .u8).encode false values.1 = [UInt8.ofBitVec values.1] :=
        congrArg (fun byte => [byte]) byte
      exact congrArg₂ (· ++ ·) head (ih values.2)

theorem encode_shape (value : FixedString N) :
    (shape N).encode false value.bytes = value.asBytes := encodeArray_u8 N value.bytes

theorem short_shape (value : FixedString N) : (shape N).Short value.bytes :=
  Repeated.all_of_forall (fun _ => trivial) N value.bytes

theorem reread_shape (value : FixedString N) :
    (shape N).reread false false value.bytes = value.bytes := by
  have agrees : (shape N).Agrees false false value.bytes :=
    Repeated.all_of_forall (fun _ => .inl rfl) N value.bytes
  exact (Shape.reread_eq_iff (shape N) false false value.bytes).mpr agrees

/-- The text is kept, by the value and by what the decoder makes of its encoding; the encoding is
the `N` bytes. -/
structure Carried (N : Nat) (text : String) : Prop where
  kept : Keeps text (fromStr N text)
  written : ∀ output : Bytes, N ≤ output.length → output.length < 2 ^ 64 →
    serialize (shape N) (fromStr N text).bytes output =
      (.ok N, some (splice output 0 (fromStr N text).asBytes))
  read : ∀ trailing : Bytes, N + trailing.length < 2 ^ 64 → ∃ back : FixedString N,
    deserialize (shape N) ((fromStr N text).asBytes ++ trailing) = .ok (back.bytes, N) ∧
      Keeps text back

/-- **Fixed strings.** A text is carried exactly when the cut is whole. -/
theorem carried_iff (N : Nat) (text : String) (positive : 0 < N) :
    Carried N text ↔ CutsWhole N text := by
  constructor
  · intro carried
    exact (keeps_fromStr_iff positive text).mp carried.kept
  · intro whole
    have kept := (keeps_fromStr_iff positive text).mpr whole
    have size : ((shape N).encode false (fromStr N text).bytes).length = N := by
      rw [encode_shape, length_asBytes]
    refine ⟨kept, fun output room usize => ?_, fun trailing usize => ?_⟩
    · have room' : ((shape N).encode false (fromStr N text).bytes).length ≤ output.length := by
        rwa [size]
      have written := serialize_eq (short_shape (fromStr N text)) room' usize
      rwa [size, encode_shape] at written
    · have solid : (shape N).Solid := .inr ⟨rfl, trivial⟩
      have fits : ((shape N).encode false (fromStr N text).bytes).length + trailing.length <
          2 ^ 64 := by
        rwa [size]
      have read := deserialize_eq solid (short_shape (fromStr N text)) fits
      rw [size, encode_shape, reread_shape] at read
      exact ⟨fromStr N text, read, kept⟩

/-- A text of four bytes in a string of four: its last byte gives way to the NUL, and the
character of two bytes before it is kept. -/
theorem carried_accent : Carried 4 "née" := by
  refine (carried_iff 4 "née" (by decide)).mpr (.inr ?_)
  have front : toUtf8 "né" = (toUtf8 "née").take (copied 4 "née") := by decide
  exact boundary_of_take (by decide) front

/-- A character of two bytes in a string of two. -/
theorem accent_not_carried : ¬ ∀ (N : Nat) (text : String), 0 < N → Carried N text := by
  intro always
  obtain ⟨front, _, _, read, _⟩ := (always 2 "é" (by decide)).kept.reads
  have unread : (fromStr 2 "é").asStr = none := by decide
  rw [unread] at read
  exact absurd read (by simp)

end FixedString

end Netsystem.Api
