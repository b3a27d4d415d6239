import Netsystem.Api.Table
import Netsystem.Stats.Capacity

/-!
# Reserved counts against the input left

The decoders that reserve room for as many elements as the input says: `deserialize_message_table`
and the calls of the stats client. None of them compares the count with what is left of the input,
as `Deserializer::sequence` does (`sequence_of_truncated`), so a count is covered exactly when the
input was written so (`covered_iff_written`).
-/

namespace Netsystem

namespace Api

/-- The array decoder refuses a count beyond the bytes left before it reads an element. -/
theorem sequence_of_truncated {α : Type} {length : Nat} {visitor : Decode α}
    {deserializer : Deserializer} (beyond : deserializer.remainingBytes < length) :
    sequence length [] visitor deserializer =
      .error (.custom "truncated API array") deserializer := by
  rw [sequence, if_pos ⟨rfl, beyond⟩]

namespace Table

/-- Decoders whose state lists the reservations made, in order, behind the rest of the input. -/
abbrev Reserver : Type → Type := EStateM Error (Bytes × List Reservation)

/-- A decoder that reserves nothing. -/
def plain {α : Type} (decode : Decode α) : Reserver α := fun (input, made) =>
  match decode input with
  | .ok value rest => .ok value (rest, made)
  | .error reason rest => .error reason (rest, made)

/-- `Vec::with_capacity`: the entries are read from the rest of the input. -/
def withCapacity (count : Nat) : Reserver Unit := fun (input, made) =>
  .ok () (input, made ++ [⟨count, input.length⟩])

/-- The body of `deserialize_message_table` with its `Vec::with_capacity`. -/
def reserving : Reserver (List (String × UInt16)) := do
  let count ← plain (take 4)
  withCapacity (beNat count)
  plain (entries (beNat count))

/-- The result and the rest of the input, without the reservations. -/
def erase {α : Type} :
    EStateM.Result Error (Bytes × List Reservation) α → EStateM.Result Error Bytes α
  | .ok value state => .ok value state.1
  | .error reason state => .error reason state.1

/-- The reservations that decoding the input makes. -/
def reservations (input : Bytes) : List Reservation :=
  match reserving (input, []) with
  | .ok _ state => state.2
  | .error _ state => state.2

theorem plain_eq {α : Type} (decode : Decode α) (input : Bytes) (made : List Reservation) :
    plain decode (input, made) =
      match decode input with
      | .ok value rest => .ok value (rest, made)
      | .error reason rest => .error reason (rest, made) := rfl

/-- What the decoder does with a count of four bytes. -/
theorem reserving_of_long {input : Bytes} (long : ¬ input.length < 4) (made : List Reservation) :
    reserving (input, made) =
      plain (entries (beNat (input.take 4)))
        (input.drop 4, made ++ [⟨beNat (input.take 4), input.length - 4⟩]) := by
  have count : plain (take 4) (input, made) = .ok (input.take 4) (input.drop 4, made) := by
    rw [plain_eq, take, if_neg long]
  have rest : (input.drop 4).length = input.length - 4 := List.length_drop
  simp only [reserving, bind, EStateM.bind, count, withCapacity, rest]

theorem reserving_of_short {input : Bytes} (short : input.length < 4) (made : List Reservation) :
    reserving (input, made) =
      .error (.custom "truncated API message table") (input, made) := by
  have count : plain (take 4) (input, made) =
      .error (.custom "truncated API message table") (input, made) := by
    rw [plain_eq, take, if_pos short]
  simp only [reserving, bind, EStateM.bind, count]

/-- The reservation aside, this is the decoder of the table. -/
theorem erase_reserving (input : Bytes) (made : List Reservation) :
    erase (reserving (input, made)) = table input := by
  by_cases short : input.length < 4
  · rw [reserving_of_short short]
    simp only [table, bind, EStateM.bind, take, if_pos short, erase]
  · rw [reserving_of_long short, plain_eq]
    simp only [table, bind, EStateM.bind, take, if_neg short]
    cases entries (beNat (input.take 4)) (input.drop 4) <;> rfl

/-- The decoder reserves once: for the first four bytes as a number. -/
theorem reservations_eq (input : Bytes) :
    reservations input =
      if input.length < 4 then [] else [⟨beNat (input.take 4), input.length - 4⟩] := by
  by_cases short : input.length < 4
  · rw [reservations, reserving_of_short short, if_pos short]
  · rw [reservations, reserving_of_long short, if_neg short, plain_eq]
    cases entries (beNat (input.take 4)) (input.drop 4) <;> rfl

/-- The decoder reserves no more entries than there are bytes left. -/
def Fits (input : Bytes) : Prop := ∀ made ∈ reservations input, made.Covered

instance (input : Bytes) : Decidable (Fits input) :=
  inferInstanceAs (Decidable (∀ made ∈ reservations input, made.Covered))

theorem fits_iff (input : Bytes) :
    Fits input ↔ input.length < 4 ∨ beNat (input.take 4) ≤ input.length - 4 := by
  rw [Fits, reservations_eq]
  split
  · next short => simp [short]
  · next long => simp [long, Reservation.Covered]

end Table

end Api

open Stats Prog

/-- Every count that a decoder reserves for is covered by the input left exactly when the input
spells no larger one at that place. -/
theorem covered_iff_written (input mapping : Bytes) (name : String) :
    (Api.Table.Fits input ↔ input.length < 4 ∨ beNat (input.take 4) ≤ input.length - 4) ∧
      (Fits quiet (Capacity.names (whole mapping)) mapping ↔ Capacity.NamesFit mapping) ∧
      (Fits quiet (Capacity.read (whole mapping) name) mapping ↔
        Capacity.ReadFits mapping name) :=
  ⟨Api.Table.fits_iff input, Capacity.fits_names, Capacity.fits_read name⟩

/-- A segment of 48 bytes whose directory claims 2^32 - 1 entries, with no byte left for them. -/
def hostileDirectory : Bytes :=
  leBytes 8 2 ++ leBytes 8 0 ++ leBytes 8 0 ++ leBytes 8 0 ++ leBytes 8 48 ++
    [255, 255, 255, 255, 0, 0, 0, 0]

/-- A segment of 200 bytes with one entry `a`, whose counter vector claims 2^32 - 1 rows. -/
def hostileVector : Bytes :=
  leBytes 8 2 ++ leBytes 8 0 ++ leBytes 8 0 ++ leBytes 8 0 ++ leBytes 8 48 ++
    [1, 0, 0, 0, 0, 0, 0, 0] ++
    (leBytes 4 2 ++ leBytes 4 0 ++ leBytes 8 200 ++ 97 :: List.replicate 127 0) ++
    [255, 255, 255, 255, 0, 0, 0, 0]

/-- Four bytes make the table decoder reserve for 2^32 - 1 entries that are not there, and a
segment without a byte to read them from makes `names` and `read` do the same. -/
theorem not_covered : ¬ Api.Table.Fits [255, 255, 255, 255] ∧
    ¬ Fits quiet (Capacity.names (whole hostileDirectory)) hostileDirectory ∧
    ¬ Fits quiet (Capacity.read (whole hostileVector) "a") hostileVector := by
  refine ⟨?_, ?_, ?_⟩ <;> decide +kernel

end Netsystem
