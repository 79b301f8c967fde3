import ZoTunnel.Protocol.Serde

/-!
# Frames

```text
version (1 byte) | type (1 byte) | length (4 bytes, big endian) | payload
```

`writeMessage` gives the buffer handed to the writer, `readMessage` the outcome together with the
bytes left unread, also where it fails. `readMessage_writeMessage` is the round trip in front of
every continuation; the message-list form follows from the general concatenation lemma, and is what
keeps the multiplexer's bytes behind the two authentication frames intact.
-/

namespace ZoTunnel

open Framing

variable (serde : SerdeJson)

/-- The buffer `write_message` hands to the writer. The length is narrowed to 32 bits *before* it
is compared with the maximum. -/
def writeMessage (msg : Message) : Except ProtocolError Bytes :=
  match msg.encodePayload serde with
  | .error e => .error e
  | .ok payload =>
    let payloadLen := UInt32.ofNat payload.length
    if payloadLen > maxPayloadSize then .error (.payloadTooLarge payloadLen)
    else .ok (protocolVersion :: msg.msgType.toByte :: (be32 payloadLen ++ payload))

/-- `read_message` on the bytes a connection delivers, with the bytes it leaves unread. -/
def readMessage : Bytes → Except ProtocolError Message × Bytes
  | version :: msgTypeByte :: l₀ :: l₁ :: l₂ :: l₃ :: rest =>
    let payloadLen := ofBe32 l₀ l₁ l₂ l₃
    if version ≠ protocolVersion then (.error (.versionMismatch version), rest)
    else
      match MessageType.tryFrom msgTypeByte with
      | none => (.error (.unknownMessageType msgTypeByte), rest)
      | some msgType =>
        if payloadLen > maxPayloadSize then (.error (.payloadTooLarge payloadLen), rest)
        else
          match readExact payloadLen.toNat rest with
          | none => (.error .readPayload, [])
          | some (payload, rest') => (Message.decode serde msgType payload, rest')
  | _ => (.error .readHeader, [])

/-- Write a list of messages one after the other. -/
def writeMessages : List Message → Except ProtocolError Bytes
  | [] => .ok []
  | m :: ms =>
    match writeMessage serde m with
    | .error e => .error e
    | .ok frame =>
      match writeMessages ms with
      | .error e => .error e
      | .ok frames => .ok (frame ++ frames)

/-- Read `n` messages one after the other. -/
def readMessages : ℕ → Bytes → Except ProtocolError (List Message) × Bytes :=
  decodeMany (readMessage serde)

variable {serde}

/-- Within the size limit narrowing loses nothing, and the frame is header and payload. -/
theorem writeMessage_of_le {m : Message} {payload : Bytes}
    (hpay : m.encodePayload serde = .ok payload) (hle : payload.length ≤ maxPayloadSize.toNat) :
    writeMessage serde m = .ok (protocolVersion :: m.msgType.toByte
      :: (be32 (UInt32.ofNat payload.length) ++ payload)) := by
  have hmax : maxPayloadSize.toNat = 16777216 := rfl
  have hnat : (UInt32.ofNat payload.length).toNat = payload.length := by
    rw [UInt32.toNat_ofNat']
    omega
  have hnot : ¬ UInt32.ofNat payload.length > maxPayloadSize := by
    rw [gt_iff_lt, UInt32.lt_iff_toNat_lt, hnat]
    omega
  rw [writeMessage, hpay]
  simp only [if_neg hnot]

theorem readMessage_frame {m : Message} {payload : Bytes}
    (hle : payload.length ≤ maxPayloadSize.toNat) (s : Bytes) :
    readMessage serde (protocolVersion :: m.msgType.toByte
      :: (be32 (UInt32.ofNat payload.length) ++ payload) ++ s)
      = (Message.decode serde m.msgType payload, s) := by
  have hmax : maxPayloadSize.toNat = 16777216 := rfl
  have hnat : (UInt32.ofNat payload.length).toNat = payload.length := by
    rw [UInt32.toNat_ofNat']
    omega
  have hnot : ¬ UInt32.ofNat payload.length > maxPayloadSize := by
    rw [gt_iff_lt, UInt32.lt_iff_toNat_lt, hnat]
    omega
  simp only [be32, List.cons_append, List.nil_append, readMessage, ofBe32_be32, ne_eq,
    not_true_eq_false, if_false, MessageType.tryFrom_toByte, if_neg hnot, hnat,
    readExact_append]

/-- **One frame.** What is written is read back, and what follows stays unread. -/
theorem readMessage_writeMessage (hserde : serde.Lawful) {m : Message} {payload : Bytes}
    (hpay : m.encodePayload serde = .ok payload) (hle : payload.length ≤ maxPayloadSize.toNat) :
    ∃ frame, writeMessage serde m = .ok frame ∧
      ∀ s, readMessage serde (frame ++ s) = (.ok m, s) := by
  refine ⟨_, writeMessage_of_le hpay hle, fun s ↦ ?_⟩
  rw [readMessage_frame hle, Message.decode_encodePayload hserde hpay]

/-! ## Lists of messages -/

/-- A message whose encoded payload respects the size limit. -/
def Message.Fits (serde : SerdeJson) (m : Message) : Prop :=
  ∃ payload, m.encodePayload serde = .ok payload ∧ payload.length ≤ maxPayloadSize.toNat

private theorem writeMessages_eq_flatMap {ms : List Message} {enc : Message → Bytes}
    (h : ∀ m ∈ ms, writeMessage serde m = .ok (enc m)) :
    writeMessages serde ms = .ok (ms.flatMap enc) := by
  induction ms with
  | nil => rfl
  | cons m ms ih =>
    rw [writeMessages, h m List.mem_cons_self, ih fun m' hm' ↦ h m' (List.mem_cons_of_mem m hm')]
    rfl

/-- **The stream round trip.** Messages within the size limit, written one after the other and
followed by any bytes, are read back in order, and exactly those bytes stay unread. -/
theorem readMessages_writeMessages (hserde : serde.Lawful) (ms : List Message)
    (hfits : ∀ m ∈ ms, m.Fits serde) (s : Bytes) :
    ∃ w, writeMessages serde ms = .ok w ∧
      readMessages serde ms.length (w ++ s) = (.ok ms, s) := by
  have hframe : ∀ m ∈ ms, ∃ frame, writeMessage serde m = .ok frame ∧
      ∀ t, readMessage serde (frame ++ t) = (.ok m, t) := by
    intro m hm
    obtain ⟨payload, hpay, hle⟩ := hfits m hm
    exact readMessage_writeMessage hserde hpay hle
  -- The frames as a function of the message, so that the concatenation lemma applies.
  let enc : Message → Bytes := fun m ↦ (writeMessage serde m).toOption.getD []
  have henc : ∀ m ∈ ms, writeMessage serde m = .ok (enc m) := by
    intro m hm
    obtain ⟨frame, hw, -⟩ := hframe m hm
    simp only [enc, hw]
    rfl
  refine ⟨ms.flatMap enc, writeMessages_eq_flatMap henc, decodeMany_flatMap ?_ s⟩
  intro m hm t
  obtain ⟨frame, hw, hread⟩ := hframe m hm
  have : enc m = frame := Except.ok.inj ((henc m hm).symm.trans hw)
  rw [this]
  exact hread t

theorem readMessages_writeMessages_handshake :
    ∃ w, writeMessages compactSerde [.authReq ⟨"app", "t", some "1.0.0"⟩,
        .authRes ⟨true, "OK", some 6210, some "app"⟩, .error "é", .ping] = .ok w ∧
      readMessages compactSerde 4 (w ++ [0, 1])
        = (.ok [.authReq ⟨"app", "t", some "1.0.0"⟩,
            .authRes ⟨true, "OK", some 6210, some "app"⟩, .error "é", .ping], [0, 1]) := by
  refine readMessages_writeMessages compactSerde_lawful _ (fun m hm ↦ ?_) [0, 1]
  simp only [List.mem_cons, List.not_mem_nil, or_false] at hm
  rcases hm with rfl | rfl | rfl | rfl
  all_goals exact ⟨_, rfl, by decide⟩

/-! ## Bytes that arrive later

`handle_client` reads the first frame from a connection that may still be delivering. Once the
bytes so far decide the outcome, later bytes cannot change it. -/

theorem readMessage_append {b rest : Bytes} {r : Except ProtocolError Message}
    (h : readMessage serde b = (r, rest)) (hr : ∀ e, r = .error e → e.isTruncated = false)
    (t : Bytes) : readMessage serde (b ++ t) = (r, rest ++ t) := by
  rcases b with _ | ⟨v, _ | ⟨ty, _ | ⟨l₀, _ | ⟨l₁, _ | ⟨l₂, _ | ⟨l₃, body⟩⟩⟩⟩⟩⟩
  case cons.cons.cons.cons.cons.cons =>
    simp only [List.cons_append, readMessage] at h ⊢
    split at h
    · rw [Prod.mk.injEq] at h
      obtain ⟨rfl, rfl⟩ := h
      rename_i hv
      rw [if_pos hv]
    rename_i hv
    rw [if_neg hv]
    cases hty : MessageType.tryFrom ty with
    | none =>
      simp only [hty, Prod.mk.injEq] at h ⊢
      exact ⟨h.1, by rw [h.2]⟩
    | some msgType =>
      simp only [hty] at h ⊢
      split at h
      · rename_i hlen
        rw [Prod.mk.injEq] at h
        obtain ⟨rfl, rfl⟩ := h
        rw [if_pos hlen]
      rename_i hlen
      rw [if_neg hlen]
      cases hread : readExact (ofBe32 l₀ l₁ l₂ l₃).toNat body with
      | none =>
        simp only [hread, Prod.mk.injEq] at h
        have := hr .readPayload h.1.symm
        simp [ProtocolError.isTruncated] at this
      | some q =>
        obtain ⟨payload, body'⟩ := q
        simp only [hread, Prod.mk.injEq] at h
        simp only [readExact_append_right hread t, Prod.mk.injEq]
        exact ⟨h.1, by rw [h.2]⟩
  all_goals
    simp only [readMessage, Prod.mk.injEq] at h
    have := hr .readHeader h.1.symm
    simp [ProtocolError.isTruncated] at this

end ZoTunnel
