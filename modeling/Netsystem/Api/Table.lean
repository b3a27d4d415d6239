import Netsystem.Api.Codec

/-!
# The message table

`hammer-binary-api-protocol/src/table.rs`: the decoder of the server's list of message names. Its
state is what remains of the input.
-/

namespace Netsystem.Api.Table

abbrev Decode : Type → Type := EStateM Error Bytes

/-- `take`. -/
def take (length : Nat) : Decode Bytes := fun input =>
  if input.length < length then .error (.custom "truncated API message table") input
  else .ok (input.take length) (input.drop length)

/-- `read_integer`: 7 bits in one byte, 14 in two, 29 in four or 64 in nine. -/
def readInteger : Decode Nat := do
  let head ← take 1
  let byte := head.headD 0
  if byte &&& 1 ≠ 0 then pure (byte / 2).toNat
  else if byte &&& 2 ≠ 0 then do
    let rest ← take 1
    pure (128 + leNat (byte :: rest) / 4)
  else if byte &&& 4 ≠ 0 then do
    let rest ← take 3
    pure (128 + 16384 + leNat (byte :: rest) / 8)
  else do
    let bytes ← take 8
    pure (leNat bytes)

/-- One pass of the loop over the entries. -/
def entry : Decode (String × UInt16) := do
  let id ← readInteger
  if 2 ^ 16 ≤ id then throw (.tryFromInt)
  let length ← readInteger
  match fromUtf8 (← take length) with
  | none => throw .utf8
  | some name => pure (name, UInt16.ofNat id)

def entries : (count : Nat) → Decode (List (String × UInt16))
  | 0 => pure []
  | count + 1 => do
      let first ← entry
      let rest ← entries count
      pure (first :: rest)

/-- The body of `deserialize_message_table`. -/
def table : Decode (List (String × UInt16)) := do
  let count ← take 4
  entries (beNat count)

end Table

/-- `deserialize_message_table`. -/
def deserializeMessageTable (input : Bytes) : Except Error (List (String × UInt16)) :=
  match Table.table input with
  | .ok entries _ => .ok entries
  | .error reason _ => .error reason

/-- The number of bytes that `deserialize_message_table` takes from its input. -/
def tableLength (input : Bytes) : Nat :=
  match Table.table input with
  | .ok _ remaining => input.length - remaining.length
  | .error _ remaining => input.length - remaining.length

end Netsystem.Api
