import ZoTunnel.Protocol.Frame

/-!
# What is written, and what is read

Two statements about single frames. `write_message` is meant to emit a message exactly when its
payload respects the maximum. It compares the length after narrowing it to 32 bits, so from 4 GiB on
a payload of the wrong size passes as long as its low bits are small, and the frame then announces
less than it carries (`writeSound_iff`).

`read_message` accepts a language of its own: `IsFrame` spells it out, and `readMessage_sound` says
that it is accepted exactly, to the byte, and what happens to everything else. `readMessageLog` is
`readMessage` once more, together with what it asks of the connection and of the allocator.
-/

namespace ZoTunnel

open Framing

variable (serde : SerdeJson)

/-! ## Writing -/

/-- `write_message` with a writer that takes all it is given: the result, and what has been written
by then. -/
def writeMessageTo (written : Bytes) (msg : Message) : Except ProtocolError Unit × Bytes :=
  match writeMessage serde msg with
  | .error e => (.error e, written)
  | .ok buf => (.ok (), written ++ buf)

/-- A message is written if and only if its payload respects the maximum, with its true length; and
nothing is written otherwise. -/
structure WriteSound (written : Bytes) (msg : Message) : Prop where
  ok_iff : (writeMessageTo serde written msg).1 = .ok () ↔
    ∃ payload, msg.encodePayload serde = .ok payload ∧ payload.length ≤ maxPayloadSize.toNat
  frame : (writeMessageTo serde written msg).1 = .ok () →
    ∃ payload n, msg.encodePayload serde = .ok payload ∧ UInt32.toNat n = payload.length ∧
      (writeMessageTo serde written msg).2 =
        written ++ protocolVersion :: msg.msgType.toByte :: (be32 n ++ payload)
  refused : (writeMessageTo serde written msg).1 ≠ .ok () →
    (writeMessageTo serde written msg).2 = written

variable {serde} {written : Bytes} {msg : Message} {payload : Bytes}

private theorem writeSound_of_error {e : ProtocolError}
    (hpay : msg.encodePayload serde = .error e) :
    WriteSound serde written msg := by
  have hwrite : writeMessageTo serde written msg = (.error e, written) := by
    rw [writeMessageTo, writeMessage, hpay]
  refine ⟨?_, fun hok ↦ ?_, fun _ ↦ by rw [hwrite]⟩
  · rw [hwrite, hpay]
    simp
  · rw [hwrite] at hok
    cases hok

/-- What the comparison of the narrowed length decides. -/
private theorem writeMessageTo_of_ok (hpay : msg.encodePayload serde = .ok payload) :
    writeMessageTo serde written msg =
      if payload.length % 2 ^ 32 ≤ maxPayloadSize.toNat then
        (.ok (), written ++ protocolVersion :: msg.msgType.toByte ::
          (be32 (.ofNat payload.length) ++ payload))
      else (.error (.payloadTooLarge (.ofNat payload.length)), written) := by
  have hlt : UInt32.ofNat payload.length > maxPayloadSize ↔
      ¬ payload.length % 2 ^ 32 ≤ maxPayloadSize.toNat := by
    rw [gt_iff_lt, UInt32.lt_iff_toNat_lt, UInt32.toNat_ofNat', not_le]
  rw [writeMessageTo, writeMessage, hpay]
  by_cases hle : payload.length % 2 ^ 32 ≤ maxPayloadSize.toNat
  · simp only [if_neg (mt hlt.mp (not_not.mpr hle)), if_pos hle]
  · simp only [if_pos (hlt.mpr hle), if_neg hle]

private theorem writeSound_of_ok (hpay : msg.encodePayload serde = .ok payload) :
    WriteSound serde written msg ↔
      payload.length < 2 ^ 32 ∨ maxPayloadSize.toNat < payload.length % 2 ^ 32 := by
  have hmax : maxPayloadSize.toNat = 16777216 := rfl
  have hwrite : writeMessageTo serde written msg = _ := writeMessageTo_of_ok hpay
  have hfits : (∃ payload', msg.encodePayload serde = .ok payload' ∧
      payload'.length ≤ maxPayloadSize.toNat) ↔ payload.length ≤ maxPayloadSize.toNat := by
    rw [hpay]
    exact ⟨fun ⟨_, heq, hle⟩ ↦ Except.ok.inj heq ▸ hle, fun hle ↦ ⟨payload, rfl, hle⟩⟩
  by_cases hle : payload.length % 2 ^ 32 ≤ maxPayloadSize.toNat
  · rw [if_pos hle] at hwrite
    constructor
    · intro hsound
      have hlen := hfits.mp (hsound.ok_iff.mp (by rw [hwrite]))
      omega
    · intro hlt
      have hlen : payload.length < 2 ^ 32 := hlt.resolve_right (not_lt.mpr hle)
      refine ⟨?_, fun _ ↦ ⟨payload, .ofNat payload.length, hpay, ?_, by rw [hwrite]⟩, ?_⟩
      · rw [hwrite, hfits]
        rw [Nat.mod_eq_of_lt hlen] at hle
        exact iff_of_true rfl hle
      · rw [UInt32.toNat_ofNat', Nat.mod_eq_of_lt hlen]
      · intro hne
        rw [hwrite] at hne
        exact absurd rfl hne
  · rw [if_neg hle] at hwrite
    refine iff_of_true ⟨?_, fun hok ↦ ?_, fun _ ↦ by rw [hwrite]⟩ (.inr (not_le.mp hle))
    · rw [hwrite, hfits]
      exact iff_of_false nofun (by omega)
    · rw [hwrite] at hok
      cases hok

/-- **When a message is written as it should be**: exactly when its payload is shorter than 4 GiB,
or the low 32 bits of its length exceed the maximum. -/
theorem writeSound_iff : WriteSound serde written msg ↔
    ∀ payload, msg.encodePayload serde = .ok payload →
      payload.length < 2 ^ 32 ∨ maxPayloadSize.toNat < payload.length % 2 ^ 32 := by
  cases hpay : msg.encodePayload serde with
  | error e => exact iff_of_true (writeSound_of_error hpay) nofun
  | ok payload =>
    rw [writeSound_of_ok hpay]
    refine ⟨fun h payload' heq ↦ ?_, fun h ↦ h payload rfl⟩
    cases heq
    exact h

/-- A text of `n` letters. -/
def letters (n : ℕ) : String := .ofList (List.replicate n 'a')

private theorem length_utf8_letters (n : ℕ) : (utf8 (letters n)).length = n := by
  have hascii : ∀ c ∈ List.replicate n 'a', c.toNat < 128 := by
    intro c hc
    rw [List.eq_of_mem_replicate hc]
    decide
  rw [letters, utf8_eq_flatMap, String.toList_ofList, flatMap_utf8EncodeChar hascii,
    List.length_map, List.length_replicate]

/-- **A frame that announces nothing and carries 4 GiB.** -/
theorem write_unsound_4GiB : ¬ WriteSound compactSerde [] (.error (letters (2 ^ 32))) := by
  have hpay : (Message.error (letters (2 ^ 32))).encodePayload compactSerde =
      .ok (utf8 (letters (2 ^ 32))) := rfl
  rw [writeSound_of_ok hpay, length_utf8_letters]
  decide

/-! ## Reading -/

variable (serde) in
/-- The bytes of one frame with its message, and more behind it: version 1, one of the eight type
bytes in use, a length up to the maximum, and that many bytes that decode to the message. -/
def IsFrame (m : Message) (b rest : Bytes) : Prop :=
  ∃ typeByte ∈ ([1, 2, 3, 5, 6, 7, 8, 9] : List UInt8), ∃ t n p,
    MessageType.tryFrom typeByte = some t ∧ n ≤ maxPayloadSize ∧ p.length = n.toNat ∧
    b = 1 :: typeByte :: (be32 n ++ (p ++ rest)) ∧ Message.decode serde t p = .ok m

/-- What `read_message` asks for. -/
inductive ReadEffect
  /-- `n` bytes of the connection -/
  | readExact (n : ℕ)
  /-- a buffer of `n` bytes -/
  | alloc (n : ℕ)
  deriving DecidableEq, Repr

variable (serde) in
/-- `read_message`, with what it asks for on the way. -/
def readMessageLog : Bytes → (Except ProtocolError Message × Bytes) × List ReadEffect
  | version :: msgTypeByte :: l₀ :: l₁ :: l₂ :: l₃ :: rest =>
    let payloadLen := ofBe32 l₀ l₁ l₂ l₃
    if version ≠ protocolVersion then
      ((.error (.versionMismatch version), rest), [.readExact 6])
    else
      match MessageType.tryFrom msgTypeByte with
      | none => ((.error (.unknownMessageType msgTypeByte), rest), [.readExact 6])
      | some msgType =>
        if payloadLen > maxPayloadSize then
          ((.error (.payloadTooLarge payloadLen), rest), [.readExact 6])
        else if payloadLen > 0 then
          let log := [.readExact 6, .alloc payloadLen.toNat, .readExact payloadLen.toNat]
          match readExact payloadLen.toNat rest with
          | none => ((.error .readPayload, []), log)
          | some (payload, rest') => ((Message.decode serde msgType payload, rest'), log)
        else ((Message.decode serde msgType [], rest), [.readExact 6, .alloc payloadLen.toNat])
  | _ => ((.error .readHeader, []), [.readExact 6])

private theorem readMessageLog_fst (b : Bytes) :
    (readMessageLog serde b).1 = readMessage serde b := by
  rcases b with _ | ⟨v, _ | ⟨t, _ | ⟨l₀, _ | ⟨l₁, _ | ⟨l₂, _ | ⟨l₃, rest⟩⟩⟩⟩⟩⟩
  case cons.cons.cons.cons.cons.cons =>
    simp only [readMessageLog, readMessage]
    split
    · rfl
    cases MessageType.tryFrom t with
    | none => rfl
    | some msgType =>
      simp only
      split
      · rfl
      · by_cases hpos : ofBe32 l₀ l₁ l₂ l₃ > 0
        · rw [if_pos hpos]
          cases readExact (ofBe32 l₀ l₁ l₂ l₃).toNat rest with
          | none => rfl
          | some q => rfl
        · -- Nothing is read for an empty payload, which comes to the same.
          have hzero : (ofBe32 l₀ l₁ l₂ l₃).toNat = 0 := by
            rw [gt_iff_lt, UInt32.lt_iff_toNat_lt] at hpos
            exact Nat.eq_zero_of_not_pos hpos
          rw [if_neg hpos, hzero]
          rfl
  all_goals rfl

/-- What a header with the right version, a known type and an admissible length leads to. -/
private theorem readMessage_header {typeByte : UInt8} {t : MessageType} {n : UInt32} {rest : Bytes}
    (ht : MessageType.tryFrom typeByte = some t) (hn : n ≤ maxPayloadSize) :
    readMessage serde (1 :: typeByte :: (be32 n ++ rest)) =
      match readExact n.toNat rest with
      | none => (.error .readPayload, [])
      | some (payload, rest') => (Message.decode serde t payload, rest') := by
  have hle : ¬ n > maxPayloadSize := UInt32.not_lt.mpr hn
  simp only [be32, List.cons_append, List.nil_append, readMessage, ofBe32_be32, ht, if_neg hle]
  rfl

private theorem toByte_of_tryFrom {typeByte : UInt8} {t : MessageType}
    (ht : MessageType.tryFrom typeByte = some t) : typeByte = t.toByte := by
  rw [MessageType.tryFrom] at ht
  split_ifs at ht with h h h h h h h h h <;>
  · rw [Option.some.injEq] at ht
    rw [h, ← ht]
    rfl

/-- The type byte `4` is declared, and no message has it. -/
private theorem typeByte_mem {typeByte : UInt8} {t : MessageType} {p : Bytes} {m : Message}
    (ht : MessageType.tryFrom typeByte = some t) (hm : Message.decode serde t p = .ok m) :
    typeByte ∈ ([1, 2, 3, 5, 6, 7, 8, 9] : List UInt8) := by
  obtain rfl := toByte_of_tryFrom ht
  cases t with
  | data => cases hm
  | _ => decide

private theorem readMessage_ok_iff {b rest : Bytes} {m : Message} :
    readMessage serde b = (.ok m, rest) ↔ IsFrame serde m b rest := by
  constructor
  · intro h
    rcases b with _ | ⟨v, _ | ⟨typeByte, _ | ⟨l₀, _ | ⟨l₁, _ | ⟨l₂, _ | ⟨l₃, body⟩⟩⟩⟩⟩⟩
    case cons.cons.cons.cons.cons.cons =>
      simp only [readMessage] at h
      split at h
      · cases h
      rename_i hversion
      obtain rfl := not_not.mp hversion
      cases ht : MessageType.tryFrom typeByte with
      | none =>
        rw [ht] at h
        cases h
      | some t =>
        simp only [ht] at h
        split at h
        · cases h
        rename_i hn
        cases hread : readExact (ofBe32 l₀ l₁ l₂ l₃).toNat body with
        | none =>
          rw [hread] at h
          cases h
        | some q =>
          obtain ⟨p, rest'⟩ := q
          simp only [hread, Prod.mk.injEq] at h
          obtain ⟨hm, rfl⟩ := h
          obtain ⟨hlen, rfl⟩ := readExact_eq_some_iff.mp hread
          refine ⟨typeByte, typeByte_mem ht hm, t, ofBe32 l₀ l₁ l₂ l₃, p, ht, UInt32.not_lt.mp hn,
            hlen, ?_, hm⟩
          rw [be32_ofBe32]
          rfl
    all_goals cases h
  · rintro ⟨typeByte, -, t, n, p, ht, hn, hlen, rfl, hm⟩
    rw [readMessage_header ht hn, readExact_append_of_length rest hlen]
    exact congrArg (·, rest) hm

variable (serde) in
/-- What `read_message` does with any bytes. -/
structure ReadSound (b : Bytes) : Prop where
  log : (readMessageLog serde b).1 = readMessage serde b
  /-- A message comes of a frame, and exactly the frame is consumed. -/
  ok_iff : ∀ m rest, readMessage serde b = (.ok m, rest) ↔ IsFrame serde m b rest
  /-- A header that is refused is all that is read, and nothing is allocated. -/
  refused : ∀ v t l₀ l₁ l₂ l₃ rest, b = v :: t :: l₀ :: l₁ :: l₂ :: l₃ :: rest →
    v ≠ 1 ∨ MessageType.tryFrom t = none ∨ maxPayloadSize < ofBe32 l₀ l₁ l₂ l₃ →
    ∃ e, readMessageLog serde b = ((.error e, rest), [.readExact 6])
  truncated : (b.length < 6 ∨ ∃ v t l₀ l₁ l₂ l₃ rest,
      b = v :: t :: l₀ :: l₁ :: l₂ :: l₃ :: rest ∧ rest.length < (ofBe32 l₀ l₁ l₂ l₃).toNat) →
    ∃ e, (readMessage serde b).1 = .error e

private theorem readMessageLog_refused {v t l₀ l₁ l₂ l₃ : UInt8} {rest : Bytes}
    (h : v ≠ 1 ∨ MessageType.tryFrom t = none ∨ maxPayloadSize < ofBe32 l₀ l₁ l₂ l₃) :
    ∃ e, readMessageLog serde (v :: t :: l₀ :: l₁ :: l₂ :: l₃ :: rest) =
      ((.error e, rest), [.readExact 6]) := by
  simp only [readMessageLog]
  by_cases hv : v ≠ protocolVersion
  · exact ⟨_, if_pos hv⟩
  rw [if_neg hv]
  cases ht : MessageType.tryFrom t with
  | none => exact ⟨_, rfl⟩
  | some msgType =>
    have hlen : maxPayloadSize < ofBe32 l₀ l₁ l₂ l₃ := by
      rcases h with h | h | h
      · exact absurd h hv
      · rw [ht] at h
        cases h
      · exact h
    exact ⟨_, if_pos hlen⟩

/-- A message takes all the bytes that its frame announces. -/
private theorem length_of_ok {b rest : Bytes} {m : Message}
    (h : readMessage serde b = (.ok m, rest)) :
    ∃ v t l₀ l₁ l₂ l₃ body, b = v :: t :: l₀ :: l₁ :: l₂ :: l₃ :: body ∧
      (ofBe32 l₀ l₁ l₂ l₃).toNat ≤ body.length := by
  obtain ⟨typeByte, -, t, n, p, -, -, hlen, rfl, -⟩ := readMessage_ok_iff.mp h
  refine ⟨1, typeByte, _, _, _, _, p ++ rest, rfl, ?_⟩
  rw [ofBe32_be32, List.length_append, hlen]
  exact Nat.le_add_right _ _

/-- **The accepted language of `read_message`**, for every byte string: what is accepted, how much
of the input goes into it, and how the rest fails. -/
theorem readMessage_sound (serde : SerdeJson) (b : Bytes) : ReadSound serde b where
  log := readMessageLog_fst b
  ok_iff m rest := readMessage_ok_iff
  refused v t l₀ l₁ l₂ l₃ rest hb h := by
    subst hb
    exact readMessageLog_refused h
  truncated h := by
    cases hread : readMessage serde b with
    | mk r rest =>
      cases r with
      | error e => exact ⟨e, rfl⟩
      | ok m =>
        obtain ⟨v, t, l₀, l₁, l₂, l₃, body, rfl, hlen⟩ := length_of_ok hread
        rcases h with h | ⟨v', t', l₀', l₁', l₂', l₃', body', heq, hlt⟩
        · simp only [List.length_cons] at h
          omega
        · simp only [List.cons.injEq] at heq
          obtain ⟨-, -, rfl, rfl, rfl, rfl, rfl⟩ := heq
          omega

/-- A `Ping` with three bytes of payload, and one byte behind it. -/
example : readMessage compactSerde [1, 5, 0, 0, 0, 3, 7, 7, 7, 9] = (.ok .ping, [9]) := by decide

end ZoTunnel
