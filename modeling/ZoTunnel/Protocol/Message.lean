import ZoTunnel.Lib.JsonText

/-!
# Protocol messages

The control-channel messages with their payload encodings: four JSON structs, a raw UTF-8 text and
three kinds without a payload. `Data` has a type byte but no message, so a frame that declares it
is refused by `Message.decode`.

`serde_json` is not part of the repository. It enters as `SerdeJson`, a codec for each of the four
payload structs, and all that is ever assumed of it is `SerdeJson.Lawful`: it decodes what it
encodes.
-/

namespace ZoTunnel

/-! ## Constants -/

def protocolVersion : UInt8 := 1

/-- Maximum payload size (16 MB). -/
def maxPayloadSize : UInt32 := 16 * 1024 * 1024

def heartbeatIntervalSecs : ℕ := 15

/-- Heartbeat timeout in seconds (5 missed heartbeats). -/
def heartbeatTimeoutSecs : ℕ := 90

/-- Consecutive missed heartbeats from which a session no longer counts as healthy. -/
def takeoverAfterMissedHeartbeats : ℕ := 2

/-- Wall-clock fallback if the driver stops updating miss counts. -/
def sessionStaleSecs : ℕ := heartbeatTimeoutSecs

/-- Stream type markers for yamux streams. -/
def streamTypeProxy : UInt8 := 0x00

def streamTypeHeartbeat : UInt8 := 0x01

/-! ## Message types -/

inductive MessageType
  | authReq | authRes | newConn | data | ping | pong | close | error | acceptConn
  deriving DecidableEq, Repr

namespace MessageType

/-- The type byte, `msg_type as u8`. -/
def toByte : MessageType → UInt8
  | authReq => 0x01
  | authRes => 0x02
  | newConn => 0x03
  | data => 0x04
  | ping => 0x05
  | pong => 0x06
  | close => 0x07
  | error => 0x08
  | acceptConn => 0x09

/-- `MessageType::try_from`; `none` is its error. -/
def tryFrom (value : UInt8) : Option MessageType :=
  if value = 0x01 then some authReq
  else if value = 0x02 then some authRes
  else if value = 0x03 then some newConn
  else if value = 0x04 then some data
  else if value = 0x05 then some ping
  else if value = 0x06 then some pong
  else if value = 0x07 then some close
  else if value = 0x08 then some error
  else if value = 0x09 then some acceptConn
  else none

@[simp] theorem tryFrom_toByte (t : MessageType) : tryFrom t.toByte = some t := by
  cases t <;> rfl

/-- The name the source's error contexts use. -/
def name : MessageType → String
  | authReq => "AuthReq"
  | authRes => "AuthRes"
  | newConn => "NewConn"
  | data => "Data"
  | ping => "Ping"
  | pong => "Pong"
  | close => "Close"
  | error => "Error"
  | acceptConn => "AcceptConn"

end MessageType

/-! ## Payloads -/

/-- Authentication request from the client. A missing or `null` version is `none`. -/
structure AuthReq where
  clientId : String
  token : String
  version : Option String
  deriving DecidableEq, Repr

/-- Whether the client version supports heartbeats and stream type markers. Legacy clients do not
send a version field. -/
def AuthReq.supportsHeartbeat (auth : AuthReq) : Bool := auth.version.isSome

/-- Authentication response from the server. -/
structure AuthRes where
  success : Bool
  message : String
  publicPort : Option UInt16
  assignedRoute : Option String
  deriving DecidableEq, Repr

/-- A 128-bit identifier. -/
structure Uuid where
  val : Fin (16 ^ 32)
  deriving DecidableEq, Repr

structure NewConn where
  connId : Uuid
  deriving DecidableEq, Repr

structure AcceptConn where
  connId : Uuid
  clientId : String
  deriving DecidableEq, Repr

/-! ## Errors -/

/-- What `read_message` and `write_message` can fail with, apart from a writer's own error. -/
inductive ProtocolError
  | encode (kind : MessageType)
  | payloadTooLarge (payloadLen : UInt32)
  | readHeader
  | versionMismatch (version : UInt8)
  | unknownMessageType (value : UInt8)
  | readPayload
  | decode (kind : MessageType)
  | dataMessage
  deriving DecidableEq, Repr

namespace ProtocolError

/-- The outermost text of the error, as the source words it. -/
def text : ProtocolError → String
  | encode kind => "encode " ++ kind.name
  | payloadTooLarge n =>
    "Payload too large: " ++ toString n.toNat ++ " bytes (max " ++ toString maxPayloadSize.toNat
      ++ ")"
  | readHeader => "read message header"
  | versionMismatch v =>
    "Protocol version mismatch: got " ++ toString v.toNat ++ ", expected "
      ++ toString protocolVersion.toNat
  | unknownMessageType v =>
    "Unknown message type: 0x" ++ String.ofList (JsonText.hexPrint 2 v.toNat)
  | readPayload => "read message payload"
  | decode kind => "decode " ++ kind.name
  | dataMessage => "DATA messages should not go through Message::decode"

/-- The input ended before the frame did. -/
def isTruncated : ProtocolError → Bool
  | readHeader | readPayload => true
  | _ => false

end ProtocolError

/-! ## The JSON dependency -/

/-- `serde_json::to_vec` and `from_slice` at one type. -/
structure JsonCodec (α : Type) where
  toVec : α → Option Bytes
  fromSlice : Bytes → Option α

/-- It decodes what it encodes. -/
def JsonCodec.Lawful {α : Type} (c : JsonCodec α) : Prop :=
  ∀ x b, c.toVec x = some b → c.fromSlice b = some x

/-- `serde_json` at the four payload structs. -/
structure SerdeJson where
  authReq : JsonCodec AuthReq
  authRes : JsonCodec AuthRes
  newConn : JsonCodec NewConn
  acceptConn : JsonCodec AcceptConn

/-- `serde_json` decodes what it encodes for the four payload structs. -/
structure SerdeJson.Lawful (serde : SerdeJson) : Prop where
  authReq : serde.authReq.Lawful
  authRes : serde.authRes.Lawful
  newConn : serde.newConn.Lawful
  acceptConn : serde.acceptConn.Lawful

/-! ## Messages -/

inductive Message
  | authReq (p : AuthReq)
  | authRes (p : AuthRes)
  | newConn (p : NewConn)
  | acceptConn (p : AcceptConn)
  | ping
  | pong
  | close
  | error (msg : String)
  deriving DecidableEq, Repr

namespace Message

/-- The message type byte. -/
def msgType : Message → MessageType
  | authReq _ => .authReq
  | authRes _ => .authRes
  | newConn _ => .newConn
  | acceptConn _ => .acceptConn
  | ping => .ping
  | pong => .pong
  | close => .close
  | error _ => .error

/-- A JSON payload, or the error of the given kind. -/
private def orError {α : Type} (e : ProtocolError) : Option α → Except ProtocolError α
  | some b => .ok b
  | none => .error e

variable (serde : SerdeJson)

/-- Serialize the payload to bytes. -/
def encodePayload : Message → Except ProtocolError Bytes
  | authReq p => orError (.encode .authReq) (serde.authReq.toVec p)
  | authRes p => orError (.encode .authRes) (serde.authRes.toVec p)
  | newConn p => orError (.encode .newConn) (serde.newConn.toVec p)
  | acceptConn p => orError (.encode .acceptConn) (serde.acceptConn.toVec p)
  | error msg => .ok (Framing.utf8 msg)
  | ping | pong | close => .ok []

/-- Deserialize from type and payload bytes. -/
def decode (msgType : MessageType) (payload : Bytes) : Except ProtocolError Message :=
  match msgType with
  | .authReq => (orError (.decode .authReq) (serde.authReq.fromSlice payload)).map authReq
  | .authRes => (orError (.decode .authRes) (serde.authRes.fromSlice payload)).map authRes
  | .newConn => (orError (.decode .newConn) (serde.newConn.fromSlice payload)).map newConn
  | .acceptConn =>
    (orError (.decode .acceptConn) (serde.acceptConn.fromSlice payload)).map acceptConn
  | .error => .ok (.error (Framing.fromUtf8Lossy payload))
  | .ping => .ok .ping
  | .pong => .ok .pong
  | .close => .ok .close
  | .data => .error .dataMessage

variable {serde}

private theorem orError_eq_ok {α : Type} {e : ProtocolError} {o : Option α} {b : α} :
    orError e o = .ok b ↔ o = some b := by
  cases o <;> simp [orError]

/-- **The payload round trip**, over all eight kinds. -/
theorem decode_encodePayload (hserde : serde.Lawful) {m : Message} {payload : Bytes}
    (h : m.encodePayload serde = .ok payload) : decode serde m.msgType payload = .ok m := by
  cases m with
  | authReq p =>
    simp only [msgType, decode, hserde.authReq p payload (orError_eq_ok.mp h)]
    rfl
  | authRes p =>
    simp only [msgType, decode, hserde.authRes p payload (orError_eq_ok.mp h)]
    rfl
  | newConn p =>
    simp only [msgType, decode, hserde.newConn p payload (orError_eq_ok.mp h)]
    rfl
  | acceptConn p =>
    simp only [msgType, decode, hserde.acceptConn p payload (orError_eq_ok.mp h)]
    rfl
  | error msg =>
    simp only [encodePayload, Except.ok.injEq] at h
    rw [← h, msgType, decode, Framing.fromUtf8Lossy_utf8]
  | ping => rfl
  | pong => rfl
  | close => rfl

end Message

end ZoTunnel
