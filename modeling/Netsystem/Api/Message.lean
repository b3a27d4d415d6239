import Netsystem.Api.Codec

/-!
# Messages

`hammer-binary-api-protocol/src/api.rs`, `value.rs`, `memclnt.rs`, `control.rs`, `session.rs` and
`vpe.rs`: what a message type declares (`Api`), the key under which a server lists it
(`Api.nameCrc`), and the messages themselves. `Api.OPTIONS` and `Api.FLAGS` are left out, no
function reads them. `Block::validate` is an assertion of the compiler on every block that `crc`
is applied to.
-/

set_option linter.dupNamespace false

namespace Netsystem.Api

/-! ## Declarations -/

structure Service : Type where
  caller : String
  reply : Option String
  stream : Bool
  streamMessage : Option String
  events : List String
  deriving DecidableEq, Repr

mutual

/-- The protocol declaration of a type. -/
inductive Block : Type where
  | fields (fields : List Field)
  | enum (values : List (String × Int))
  | alias

/-- One declared field. -/
inductive Field : Type where
  | mk (name fieldType : String) (block : Option Block) (length : Option Nat)
      (lengthField : Option String)

end

def Field.name : Field → String
  | .mk name _ _ _ _ => name

def Field.fieldType : Field → String
  | .mk _ fieldType _ _ _ => fieldType

def Field.block : Field → Option Block
  | .mk _ _ block _ _ => block

def Field.length : Field → Option Nat
  | .mk _ _ _ length _ => length

def Field.lengthField : Field → Option String
  | .mk _ _ _ _ lengthField => lengthField

mutual

/-- `is_vla`: the declaration ends in variable-length storage. -/
def Block.isVla : Block → Bool
  | .fields parts => anyVla parts
  | .enum _ => false
  | .alias => false

def anyVla : List Field → Bool
  | [] => false
  | .mk _ _ none length lengthField :: rest =>
      lengthField.isSome || length == some 0 || anyVla rest
  | .mk _ _ (some block) length lengthField :: rest =>
      lengthField.isSome || length == some 0 || block.isVla || anyVla rest

end

mutual

/-- `validate`: none of its assertions fails. -/
def Block.validate : Block → Bool
  | .fields parts => validateFields parts
  | .enum _ => true
  | .alias => true

def validateFields : List Field → Bool
  | [] => true
  | .mk _ _ none length lengthField :: rest =>
      (!(lengthField.isSome || length == some 0) || rest.isEmpty) && validateFields rest
  | .mk _ _ (some block) length lengthField :: rest =>
      block.validate &&
        (!(lengthField.isSome || length == some 0 || block.isVla) || rest.isEmpty) &&
        validateFields rest

end

/-! ## The CRC of a declaration -/

/-- One turn of the loop over the bits of a byte. -/
def shiftCrc (crc : UInt32) : UInt32 := (crc >>> 1) ^^^ (0xedb88320 &&& (0 - (crc &&& 1)))

def byteCrc (crc : UInt32) (byte : UInt8) : UInt32 :=
  (List.range 8).foldl (fun crc _ => shiftCrc crc) (crc ^^^ byte.toUInt32)

def textCrc (crc : UInt32) (text : String) : UInt32 := (toUtf8 text).foldl byteCrc crc

/-- The byte of a character of ASCII. -/
def ascii (char : Char) : UInt8 := char.toUInt8

def quotedCrc (crc : UInt32) (text : String) : UInt32 :=
  byteCrc (textCrc (byteCrc crc (ascii '\'')) text) (ascii '\'')

/-- The first loop of `integer_crc`. -/
def leadingDivisor (value divisor : Nat) : Nat :=
  if 10 ≤ value / divisor then leadingDivisor value (divisor * 10) else divisor
termination_by value / divisor
decreasing_by
  rw [← Nat.div_div_eq_div_mul]
  omega

/-- The second loop of `integer_crc`; the divisor is a power of ten. -/
def digitsCrc (crc : UInt32) (value divisor : Nat) : UInt32 :=
  let crc := byteCrc crc (ascii '0' + UInt8.ofNat (value / divisor % 10))
  if divisor ≤ 1 then crc else digitsCrc crc value (divisor / 10)

def integerCrc (crc : UInt32) (value : Nat) : UInt32 :=
  digitsCrc crc value (leadingDivisor value 1)

/-- The bytes of one field in `block_crc`. -/
def fieldCrc (crc : UInt32) (field : Field) : UInt32 :=
  let crc := textCrc crc "['"
  let crc := if field.block.isSome then textCrc crc "vl_api_" else crc
  let crc := textCrc crc field.fieldType
  let crc := if field.block.isSome then textCrc crc "_t" else crc
  let crc := quotedCrc (textCrc crc "', ") field.name
  let crc :=
    match field.length with
    | none => crc
    | some length =>
        let crc := textCrc (integerCrc (textCrc crc ", ") length) ", "
        match field.lengthField with
        | some name => quotedCrc crc name
        | none => textCrc crc "None"
  byteCrc crc (ascii ']')

/-- The bytes of one value of an enumeration in `block_crc`. -/
def valueCrc (crc : UInt32) (value : String × Int) : UInt32 :=
  let crc := textCrc (quotedCrc (byteCrc crc (ascii '[')) value.1) ", "
  let crc := if value.2 < 0 then byteCrc crc (ascii '-') else crc
  byteCrc (integerCrc crc value.2.natAbs) (ascii ']')

/-- The loop over the parts of a block, with a separator before all but the first. -/
def partsCrc {α : Type} (part : UInt32 → α → UInt32) (crc : UInt32) : List α → UInt32
  | [] => crc
  | first :: rest =>
      rest.foldl (fun crc next => part (textCrc crc ", ") next) (part crc first)

def blockCrc (crc : UInt32) (block : Block) : UInt32 :=
  let crc := byteCrc crc (ascii '[')
  let crc :=
    match block with
    | .fields fields => partsCrc fieldCrc crc fields
    | .enum values => partsCrc valueCrc crc values
    | .alias => crc
  byteCrc crc (ascii ']')

mutual

/-- `fold`: the blocks of the referenced types, in field order. -/
def Block.fold : Block → UInt32 → UInt32
  | .fields fields, crc => foldFields fields crc
  | .enum _, crc => crc
  | .alias, crc => crc

def foldFields : List Field → UInt32 → UInt32
  | [], crc => crc
  | .mk _ _ none _ _ :: rest, crc => foldFields rest crc
  | .mk _ _ (some dependency) _ _ :: rest, crc =>
      foldFields rest (dependency.fold (blockCrc crc dependency))

end

/-- `Block::crc`. -/
def Block.crc (block : Block) : UInt32 := ~~~ block.fold (blockCrc (~~~ 0) block)

def hexDigit (value : UInt32) : Char := "0123456789abcdef".toList.getD value.toNat '0'

/-- `name_crc`: the name, an underscore and eight digits. -/
def nameCrcOf (name : String) (crc : UInt32) : String :=
  name ++ "_" ++ String.ofList
    ((List.range 8).map fun digit => hexDigit ((crc >>> UInt32.ofNat ((7 - digit) * 4)) &&& 15))

/-! ## Message types -/

/-- The trait `Api`, with the codec that serde derives for the message. `setRequestHeader` and
`context` have the trait's defaults. -/
class Api (Message : Type) where
  name : String
  block : Block
  service : Option Service := none
  shape : Shape
  toVal : Message → shape.Val
  ofVal : shape.Val → Message
  setRequestHeader : Message → (id : UInt16) → (clientIndex context : UInt32) → Message :=
    fun message _ _ _ => message
  context : Message → Option UInt32 := fun _ => none

section

variable (Message : Type) [Api Message]

/-- `Api::CRC`. -/
def Api.crc : UInt32 := (Api.block Message).crc

/-- `Api::NAME_CRC`. -/
def Api.nameCrc : String := nameCrcOf (Api.name Message) (Api.crc Message)

end

/-- What `MsgBuf::decode` makes of the bytes of a payload. -/
def decode (Message : Type) [Api Message] (bytes : Bytes) : Except Error Message :=
  match (Api.shape Message).deserialize (.new bytes) with
  | .error reason _ => .error reason
  | .ok value decoder =>
      if decoder.remainingBytes ≠ 0 then
        .error (.custom "API message has trailing payload bytes")
      else .ok (Api.ofVal value)

/-- What `message_id` makes of the bytes of a payload. -/
def messageId (bytes : Bytes) : Except Error UInt16 :=
  match deserialize (.int .u16) bytes with
  | .error reason => .error reason
  | .ok (value, _) => .ok (UInt16.ofBitVec value)

/-- A payload of two bytes or more has a message id, a shorter one has none. -/
theorem messageId_eq (bytes : Bytes) :
    messageId bytes =
      if 2 ≤ bytes.length then .ok (UInt16.ofNat (beNat (bytes.take 2)))
      else .error (.custom "truncated API message") := by
  by_cases long : 2 ≤ bytes.length
  · have reading : read 2 (.new bytes) =
        .ok (bytes.take 2) { Deserializer.new bytes with offset := 2 } := by
      unfold read
      simp only [Deserializer.new, Nat.zero_add, window, List.drop_zero]
      exact if_pos ⟨by decide, long⟩
    simp only [messageId, deserialize, Shape.deserialize, deserializeInteger, Integer.size, bind,
      EStateM.bind, reading, if_pos long]
    rfl
  · have reading : read 2 (.new bytes) =
        .error (.custom "truncated API message") (.new bytes) := by
      unfold read
      simp only [Deserializer.new, Nat.zero_add]
      exact if_neg fun fits => long fits.2
    simp only [messageId, deserialize, Shape.deserialize, deserializeInteger, Integer.size, bind,
      EStateM.bind, reading, if_neg long]

/-! ## Fixed strings -/

/-- `count` values, each made from its index. -/
def Repeated.ofFn {α : Type} : (count : Nat) → (Nat → α) → Repeated α count
  | 0, _ => ()
  | count + 1, make => (make 0, Repeated.ofFn count fun index => make (index + 1))

/-- `FixedString<N>`: `N` bytes. -/
structure FixedString (N : Nat) : Type where
  bytes : Repeated (BitVec 8) N

/-- `FixedString::from_str`: the text's first `N - 1` bytes and zeros. -/
def FixedString.fromStr (N : Nat) (value : String) : FixedString N :=
  let length := min (toUtf8 value).length (N - 1)
  { bytes := Repeated.ofFn N fun index =>
      if index < length then ((toUtf8 value).getD index 0).toBitVec else 0 }

/-! ## The messages of a connection -/

def scalar (name fieldType : String) : Field := .mk name fieldType none none none

def array (name fieldType : String) (length : Nat) : Field :=
  .mk name fieldType none (some length) none

def string (name : String) (length : Nat) : Field := .mk name "string" none (some length) none

/-- The service of a request with one reply. -/
def replied (caller reply : String) : Option Service :=
  some
    { caller := caller, reply := some reply, stream := false, streamMessage := none
      events := [] }

def memclntCreateV2Id : UInt16 := 25

def memclntCreateV2ReplyId : UInt16 := 26

structure MemclntCreateV2Reply : Type where
  id : UInt16
  context : UInt32
  response : Int32
  handle : UInt64
  index : UInt32
  messageTable : UInt64

instance : Api MemclntCreateV2Reply where
  name := "memclnt_create_v2_reply"
  block := .fields [scalar "context" "u32", scalar "response" "i32", scalar "handle" "u64",
    scalar "index" "u32", scalar "message_table" "u64"]
  shape := .struct (.cons "id" (.int .u16) (.cons "context" (.int .u32)
    (.cons "response" (.int .i32) (.cons "handle" (.int .u64) (.cons "index" (.int .u32)
    (.cons "message_table" (.int .u64) .nil))))))
  toVal message := (message.id.toBitVec, message.context.toBitVec, message.response.toBitVec,
    message.handle.toBitVec, message.index.toBitVec, message.messageTable.toBitVec, ())
  ofVal value :=
    { id := .ofBitVec value.1, context := .ofBitVec value.2.1, response := .ofBitVec value.2.2.1
      handle := .ofBitVec value.2.2.2.1, index := .ofBitVec value.2.2.2.2.1
      messageTable := .ofBitVec value.2.2.2.2.2.1 }
  context message := some message.context

structure MemclntCreateV2 : Type where
  id : UInt16
  context : UInt32
  ctxQuota : Int32
  inputQueue : UInt64
  name : FixedString 64
  apiVersions : Repeated (BitVec 32) 8
  keepalive : Bool

instance : Api MemclntCreateV2 where
  name := "memclnt_create_v2"
  block := .fields [scalar "context" "u32", scalar "ctx_quota" "i32", scalar "input_queue" "u64",
    string "name" 64, array "api_versions" "u32" 8, scalar "keepalive" "bool"]
  service := replied "memclnt_create_v2" (Api.name MemclntCreateV2Reply)
  shape := .struct (.cons "id" (.int .u16) (.cons "context" (.int .u32)
    (.cons "ctx_quota" (.int .i32) (.cons "input_queue" (.int .u64)
    (.cons "name" (.array 64 (.int .u8)) (.cons "api_versions" (.array 8 (.int .u32))
    (.cons "keepalive" .bool .nil)))))))
  toVal message := (message.id.toBitVec, message.context.toBitVec, message.ctxQuota.toBitVec,
    message.inputQueue.toBitVec, message.name.bytes, message.apiVersions, message.keepalive, ())
  ofVal value :=
    { id := .ofBitVec value.1, context := .ofBitVec value.2.1, ctxQuota := .ofBitVec value.2.2.1
      inputQueue := .ofBitVec value.2.2.2.1, name := { bytes := value.2.2.2.2.1 }
      apiVersions := value.2.2.2.2.2.1, keepalive := value.2.2.2.2.2.2.1 }
  setRequestHeader message id _ context := { message with id := id, context := context }
  context message := some message.context

structure MemclntDeleteReply : Type where
  id : UInt16
  response : Int32
  handle : UInt64

instance : Api MemclntDeleteReply where
  name := "memclnt_delete_reply"
  block := .fields [scalar "response" "i32", scalar "handle" "u64"]
  shape := .struct (.cons "id" (.int .u16) (.cons "response" (.int .i32)
    (.cons "handle" (.int .u64) .nil)))
  toVal message := (message.id.toBitVec, message.response.toBitVec, message.handle.toBitVec, ())
  ofVal value :=
    { id := .ofBitVec value.1, response := .ofBitVec value.2.1, handle := .ofBitVec value.2.2.1 }

structure MemclntDelete : Type where
  id : UInt16
  index : UInt32
  handle : UInt64
  doCleanup : Bool

instance : Api MemclntDelete where
  name := "memclnt_delete"
  block := .fields [scalar "index" "u32", scalar "handle" "u64", scalar "do_cleanup" "bool"]
  service := replied "memclnt_delete" (Api.name MemclntDeleteReply)
  shape := .struct (.cons "id" (.int .u16) (.cons "index" (.int .u32)
    (.cons "handle" (.int .u64) (.cons "do_cleanup" .bool .nil))))
  toVal message := (message.id.toBitVec, message.index.toBitVec, message.handle.toBitVec,
    message.doCleanup, ())
  ofVal value :=
    { id := .ofBitVec value.1, index := .ofBitVec value.2.1, handle := .ofBitVec value.2.2.1
      doCleanup := value.2.2.2.1 }
  setRequestHeader message id _ _ := { message with id := id }

structure MemclntKeepaliveReply : Type where
  id : UInt16
  context : UInt32
  retval : Int32

instance : Api MemclntKeepaliveReply where
  name := "memclnt_keepalive_reply"
  block := .fields [scalar "context" "u32", scalar "retval" "i32"]
  shape := .struct (.cons "id" (.int .u16) (.cons "context" (.int .u32)
    (.cons "retval" (.int .i32) .nil)))
  toVal message := (message.id.toBitVec, message.context.toBitVec, message.retval.toBitVec, ())
  ofVal value :=
    { id := .ofBitVec value.1, context := .ofBitVec value.2.1, retval := .ofBitVec value.2.2.1 }
  context message := some message.context

structure MemclntKeepalive : Type where
  id : UInt16
  clientIndex : UInt32
  context : UInt32

instance : Api MemclntKeepalive where
  name := "memclnt_keepalive"
  block := .fields [scalar "client_index" "u32", scalar "context" "u32"]
  service := replied "memclnt_keepalive" (Api.name MemclntKeepaliveReply)
  shape := .struct (.cons "id" (.int .u16) (.cons "client_index" (.int .u32)
    (.cons "context" (.int .u32) .nil)))
  toVal message :=
    (message.id.toBitVec, message.clientIndex.toBitVec, message.context.toBitVec, ())
  ofVal value :=
    { id := .ofBitVec value.1, clientIndex := .ofBitVec value.2.1,
      context := .ofBitVec value.2.2.1 }
  setRequestHeader message id clientIndex context :=
    { message with id := id, clientIndex := clientIndex, context := context }
  context message := some message.context

/-! ## The control ping -/

structure ControlPingReply : Type where
  id : UInt16
  context : UInt32
  retval : Int32
  clientIndex : UInt32
  vpePid : UInt32
  deriving DecidableEq

instance : Api ControlPingReply where
  name := "control_ping_reply"
  block := .fields [scalar "context" "u32", scalar "retval" "i32", scalar "client_index" "u32",
    scalar "vpe_pid" "u32"]
  shape := .struct (.cons "id" (.int .u16) (.cons "context" (.int .u32)
    (.cons "retval" (.int .i32) (.cons "client_index" (.int .u32)
    (.cons "vpe_pid" (.int .u32) .nil)))))
  toVal message := (message.id.toBitVec, message.context.toBitVec, message.retval.toBitVec,
    message.clientIndex.toBitVec, message.vpePid.toBitVec, ())
  ofVal value :=
    { id := .ofBitVec value.1, context := .ofBitVec value.2.1, retval := .ofBitVec value.2.2.1
      clientIndex := .ofBitVec value.2.2.2.1, vpePid := .ofBitVec value.2.2.2.2.1 }
  context message := some message.context

structure ControlPing : Type where
  id : UInt16
  clientIndex : UInt32
  context : UInt32
  deriving DecidableEq

instance : Api ControlPing where
  name := "control_ping"
  block := .fields [scalar "client_index" "u32", scalar "context" "u32"]
  service := replied "control_ping" (Api.name ControlPingReply)
  shape := .struct (.cons "id" (.int .u16) (.cons "client_index" (.int .u32)
    (.cons "context" (.int .u32) .nil)))
  toVal message :=
    (message.id.toBitVec, message.clientIndex.toBitVec, message.context.toBitVec, ())
  ofVal value :=
    { id := .ofBitVec value.1, clientIndex := .ofBitVec value.2.1,
      context := .ofBitVec value.2.2.1 }
  setRequestHeader message id clientIndex context :=
    { message with id := id, clientIndex := clientIndex, context := context }
  context message := some message.context

/-! ## Application namespaces -/

/-- A field of a declared type. -/
def declared (name fieldType : String) (block : Block) : Field :=
  .mk name fieldType (some block) none none

structure InterfaceIndex : Type where
  value : UInt32

/-- `InterfaceIndex::NAME`. -/
def InterfaceIndex.name : String := "interface_index"

/-- `InterfaceIndex::BLOCK`. -/
def InterfaceIndex.block : Block := .alias

structure AppNamespaceAddDelReply : Type where
  id : UInt16
  context : UInt32
  retval : Int32
  appnsIndex : UInt32

instance : Api AppNamespaceAddDelReply where
  name := "app_namespace_add_del_v4_reply"
  block := .fields [scalar "context" "u32", scalar "retval" "i32", scalar "appns_index" "u32"]
  shape := .struct (.cons "id" (.int .u16) (.cons "context" (.int .u32)
    (.cons "retval" (.int .i32) (.cons "appns_index" (.int .u32) .nil))))
  toVal message := (message.id.toBitVec, message.context.toBitVec, message.retval.toBitVec,
    message.appnsIndex.toBitVec, ())
  ofVal value :=
    { id := .ofBitVec value.1, context := .ofBitVec value.2.1, retval := .ofBitVec value.2.2.1
      appnsIndex := .ofBitVec value.2.2.2.1 }
  context message := some message.context

structure AppNamespaceAddDel : Type where
  id : UInt16
  clientIndex : UInt32
  context : UInt32
  secret : UInt64
  isAdd : Bool
  swIfIndex : InterfaceIndex
  ip4FibId : UInt32
  ip6FibId : UInt32
  namespaceId : FixedString 64
  sockName : String

instance : Api AppNamespaceAddDel where
  name := "app_namespace_add_del_v4"
  block := .fields [scalar "client_index" "u32", scalar "context" "u32", scalar "secret" "u64",
    scalar "is_add" "bool", declared "sw_if_index" InterfaceIndex.name InterfaceIndex.block,
    scalar "ip4_fib_id" "u32", scalar "ip6_fib_id" "u32", string "namespace_id" 64,
    string "sock_name" 0]
  service := replied "app_namespace_add_del_v4" (Api.name AppNamespaceAddDelReply)
  shape := .struct (.cons "id" (.int .u16) (.cons "client_index" (.int .u32)
    (.cons "context" (.int .u32) (.cons "secret" (.int .u64) (.cons "is_add" .bool
    (.cons "sw_if_index" (.newtype (.int .u32)) (.cons "ip4_fib_id" (.int .u32)
    (.cons "ip6_fib_id" (.int .u32) (.cons "namespace_id" (.array 64 (.int .u8))
    (.cons "sock_name" .str .nil))))))))))
  toVal message := (message.id.toBitVec, message.clientIndex.toBitVec, message.context.toBitVec,
    message.secret.toBitVec, message.isAdd, message.swIfIndex.value.toBitVec,
    message.ip4FibId.toBitVec, message.ip6FibId.toBitVec, message.namespaceId.bytes,
    message.sockName, ())
  ofVal value :=
    { id := .ofBitVec value.1, clientIndex := .ofBitVec value.2.1,
      context := .ofBitVec value.2.2.1
      secret := .ofBitVec value.2.2.2.1, isAdd := value.2.2.2.2.1
      swIfIndex := { value := .ofBitVec value.2.2.2.2.2.1 }
      ip4FibId := .ofBitVec value.2.2.2.2.2.2.1, ip6FibId := .ofBitVec value.2.2.2.2.2.2.2.1
      namespaceId := { bytes := value.2.2.2.2.2.2.2.2.1 }
      sockName := value.2.2.2.2.2.2.2.2.2.1 }
  setRequestHeader message id clientIndex context :=
    { message with id := id, clientIndex := clientIndex, context := context }
  context message := some message.context

/-! ## The server's version -/

structure ShowVersionReply : Type where
  id : UInt16
  context : UInt32
  retval : Int32
  program : FixedString 32
  version : FixedString 32
  buildDate : FixedString 32
  buildDirectory : FixedString 256

instance : Api ShowVersionReply where
  name := "show_version_reply"
  block := .fields [scalar "context" "u32", scalar "retval" "i32", string "program" 32,
    string "version" 32, string "build_date" 32, string "build_directory" 256]
  shape := .struct (.cons "id" (.int .u16) (.cons "context" (.int .u32)
    (.cons "retval" (.int .i32) (.cons "program" (.array 32 (.int .u8))
    (.cons "version" (.array 32 (.int .u8)) (.cons "build_date" (.array 32 (.int .u8))
    (.cons "build_directory" (.array 256 (.int .u8)) .nil)))))))
  toVal message := (message.id.toBitVec, message.context.toBitVec, message.retval.toBitVec,
    message.program.bytes, message.version.bytes, message.buildDate.bytes,
    message.buildDirectory.bytes, ())
  ofVal value :=
    { id := .ofBitVec value.1, context := .ofBitVec value.2.1, retval := .ofBitVec value.2.2.1
      program := { bytes := value.2.2.2.1 }, version := { bytes := value.2.2.2.2.1 }
      buildDate := { bytes := value.2.2.2.2.2.1 }
      buildDirectory := { bytes := value.2.2.2.2.2.2.1 } }
  context message := some message.context

structure ShowVersion : Type where
  id : UInt16
  clientIndex : UInt32
  context : UInt32

instance : Api ShowVersion where
  name := "show_version"
  block := .fields [scalar "client_index" "u32", scalar "context" "u32"]
  service := replied "show_version" (Api.name ShowVersionReply)
  shape := .struct (.cons "id" (.int .u16) (.cons "client_index" (.int .u32)
    (.cons "context" (.int .u32) .nil)))
  toVal message :=
    (message.id.toBitVec, message.clientIndex.toBitVec, message.context.toBitVec, ())
  ofVal value :=
    { id := .ofBitVec value.1, clientIndex := .ofBitVec value.2.1,
      context := .ofBitVec value.2.2.1 }
  setRequestHeader message id clientIndex context :=
    { message with id := id, clientIndex := clientIndex, context := context }
  context message := some message.context

/-! ## The declared message types -/

/-- The types that implement `Api` in `memclnt`, `control`, `session` and `vpe`. -/
inductive MessageType : Type where
  | memclntCreateV2 | memclntCreateV2Reply | memclntDelete | memclntDeleteReply
  | memclntKeepalive | memclntKeepaliveReply | controlPing | controlPingReply
  | appNamespaceAddDel | appNamespaceAddDelReply | showVersion | showVersionReply
  deriving DecidableEq, Repr

def MessageType.Message : MessageType → Type
  | .memclntCreateV2 => MemclntCreateV2
  | .memclntCreateV2Reply => MemclntCreateV2Reply
  | .memclntDelete => MemclntDelete
  | .memclntDeleteReply => MemclntDeleteReply
  | .memclntKeepalive => MemclntKeepalive
  | .memclntKeepaliveReply => MemclntKeepaliveReply
  | .controlPing => ControlPing
  | .controlPingReply => ControlPingReply
  | .appNamespaceAddDel => AppNamespaceAddDel
  | .appNamespaceAddDelReply => AppNamespaceAddDelReply
  | .showVersion => ShowVersion
  | .showVersionReply => ShowVersionReply

instance : (type : MessageType) → Api type.Message
  | .memclntCreateV2 => inferInstanceAs (Api MemclntCreateV2)
  | .memclntCreateV2Reply => inferInstanceAs (Api MemclntCreateV2Reply)
  | .memclntDelete => inferInstanceAs (Api MemclntDelete)
  | .memclntDeleteReply => inferInstanceAs (Api MemclntDeleteReply)
  | .memclntKeepalive => inferInstanceAs (Api MemclntKeepalive)
  | .memclntKeepaliveReply => inferInstanceAs (Api MemclntKeepaliveReply)
  | .controlPing => inferInstanceAs (Api ControlPing)
  | .controlPingReply => inferInstanceAs (Api ControlPingReply)
  | .appNamespaceAddDel => inferInstanceAs (Api AppNamespaceAddDel)
  | .appNamespaceAddDelReply => inferInstanceAs (Api AppNamespaceAddDelReply)
  | .showVersion => inferInstanceAs (Api ShowVersion)
  | .showVersionReply => inferInstanceAs (Api ShowVersionReply)

/-- The field `id` of a message. -/
def MessageType.id : (type : MessageType) → type.Message → UInt16
  | .memclntCreateV2, message => MemclntCreateV2.id message
  | .memclntCreateV2Reply, message => MemclntCreateV2Reply.id message
  | .memclntDelete, message => MemclntDelete.id message
  | .memclntDeleteReply, message => MemclntDeleteReply.id message
  | .memclntKeepalive, message => MemclntKeepalive.id message
  | .memclntKeepaliveReply, message => MemclntKeepaliveReply.id message
  | .controlPing, message => ControlPing.id message
  | .controlPingReply, message => ControlPingReply.id message
  | .appNamespaceAddDel, message => AppNamespaceAddDel.id message
  | .appNamespaceAddDelReply, message => AppNamespaceAddDelReply.id message
  | .showVersion, message => ShowVersion.id message
  | .showVersionReply, message => ShowVersionReply.id message

/-- The codec of a declared type loses nothing in either direction. -/
theorem MessageType.ofVal_toVal (type : MessageType) (message : type.Message) :
    Api.ofVal (Api.toVal message) = message := by
  cases type <;> rfl

theorem MessageType.toVal_ofVal (type : MessageType) (value : (Api.shape type.Message).Val) :
    Api.toVal (Api.ofVal value : type.Message) = value := by
  cases type <;> rfl

/-- No declaration trips the assertion of the compiler. -/
theorem MessageType.validate_block (type : MessageType) :
    (Api.block type.Message).validate = true := by
  cases type <;> rfl

end Netsystem.Api
