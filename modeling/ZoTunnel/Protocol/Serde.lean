import ZoTunnel.Protocol.Message

/-!
# The payload structs as compact JSON

`compactSerde` writes each struct the way `serde_json::to_vec` does: the fields in declaration
order, no white space, strings escaped, `None` as `null`, a UUID as its hyphenated lower-case
text. It reads back that text only, which is all a lawful instance needs; the theorems about the
protocol are stated for every lawful `SerdeJson`, and this one shows that there is one.
-/

namespace ZoTunnel

open JsonText

/-- A field name with its colon, after the text that separates it from what stands before. -/
private def key (before name : String) : List Char :=
  before.toList ++ '"' :: (name.toList ++ ['"', ':'])

/-- `{"client_id":…,"token":…,"version":…}` -/
def authReqJson : Codec AuthReq :=
  (((Codec.str.after (key "\x7b" "client_id")).seq
    ((Codec.str.after (key "," "token")).seq
      (Codec.optStr.after (key "," "version")))).upTo ['\x7d']).iso
    (fun p ↦ some ⟨p.1, p.2.1, p.2.2⟩) (fun a ↦ (a.clientId, a.token, a.version)) fun _ ↦ rfl

private theorem decComma_not_null (bound : ℕ) (n : Fin bound) (rest : List Char) :
    ¬ ['n', 'u', 'l', 'l'] <+: (Codec.decComma bound).print n ++ rest := by
  have hdigit : ∀ d < 10, hexDigit d ≠ 'n' := by decide
  intro hpre
  have hhead : ((Codec.decComma bound).print n ++ rest).head? = some 'n' := by
    obtain ⟨t, ht⟩ := hpre
    rw [← ht]
    rfl
  have hne : decPrint n.val ≠ [] := by
    rw [decPrint]
    split
    · simp
    · rename_i hn
      simpa [Nat.digits_ne_nil_iff_ne_zero] using hn
  have hfirst : (decPrint n.val).head? = some 'n' := by
    rw [← hhead]
    cases hdigits : decPrint n.val with
    | nil => exact absurd hdigits hne
    | cons c cs => simp [Codec.decComma, hdigits]
  have hmem : 'n' ∈ decPrint n.val := List.mem_of_mem_head? hfirst
  rw [decPrint] at hmem
  split at hmem
  · simp at hmem
  · obtain ⟨d, hd, heq⟩ := List.mem_map.mp hmem
    exact hdigit d (Nat.digits_lt_base (by decide) (List.mem_reverse.mp hd)) heq

/-- A `u16` or `null`, up to and including the comma behind it. -/
private def optU16Comma : Codec (Option UInt16) :=
  ((Codec.decComma (2 ^ 16)).orNull [','] (decComma_not_null _)).iso
    (fun o ↦ some (o.map fun n ↦ UInt16.ofNat n.val))
    (fun o ↦ o.map fun n ↦ ⟨n.toNat, n.toNat_lt⟩) fun o ↦ by cases o <;> simp

/-- `{"success":…,"message":…,"public_port":…,"assigned_route":…}` -/
def authResJson : Codec AuthRes :=
  (((Codec.bool.after (key "\x7b" "success")).seq
    ((Codec.str.after (key "," "message")).seq
      ((optU16Comma.after (key "," "public_port")).seq
        (Codec.optStr.after (key "" "assigned_route"))))).upTo ['\x7d']).iso
    (fun p ↦ some ⟨p.1, p.2.1, p.2.2.1, p.2.2.2⟩)
    (fun r ↦ (r.success, r.message, r.publicPort, r.assignedRoute)) fun _ ↦ rfl

/-- A UUID, quoted: 8, 4, 4, 4 and 12 digits with hyphens between them. -/
private def uuidJson : Codec Uuid :=
  (((Codec.hex 8).after ['"']).seq (((Codec.hex 4).after ['-']).seq
    (((Codec.hex 4).after ['-']).seq (((Codec.hex 4).after ['-']).seq
      (((Codec.hex 12).after ['-']).upTo ['"']))))).iso
    (fun p ↦
      let n := (((p.1.val * 16 ^ 4 + p.2.1.val) * 16 ^ 4 + p.2.2.1.val) * 16 ^ 4
        + p.2.2.2.1.val) * 16 ^ 12 + p.2.2.2.2.val
      if h : n < 16 ^ 32 then some ⟨⟨n, h⟩⟩ else none)
    (fun u ↦ (⟨u.val / 16 ^ 24, by have := u.val.isLt; omega⟩,
      ⟨u.val / 16 ^ 20 % 16 ^ 4, by omega⟩, ⟨u.val / 16 ^ 16 % 16 ^ 4, by omega⟩,
      ⟨u.val / 16 ^ 12 % 16 ^ 4, by omega⟩, ⟨u.val % 16 ^ 12, by omega⟩))
    fun u ↦ by
      have hlt := u.val.isLt
      have hsum : (((u.val.val / 16 ^ 24 * 16 ^ 4 + u.val.val / 16 ^ 20 % 16 ^ 4) * 16 ^ 4
          + u.val.val / 16 ^ 16 % 16 ^ 4) * 16 ^ 4 + u.val.val / 16 ^ 12 % 16 ^ 4) * 16 ^ 12
          + u.val.val % 16 ^ 12 = u.val.val := by omega
      simp only [hsum, hlt, dif_pos]

/-- `{"conn_id":…}` -/
def newConnJson : Codec NewConn :=
  ((uuidJson.after (key "\x7b" "conn_id")).upTo ['\x7d']).iso
    (fun u ↦ some ⟨u⟩) (fun n ↦ n.connId) fun _ ↦ rfl

/-- `{"conn_id":…,"client_id":…}` -/
def acceptConnJson : Codec AcceptConn :=
  (((uuidJson.after (key "\x7b" "conn_id")).seq (Codec.str.after (key "," "client_id"))).upTo
    ['\x7d']).iso (fun p ↦ some ⟨p.1, p.2⟩) (fun a ↦ (a.connId, a.clientId)) fun _ ↦ rfl

/-- A compact text codec as a serializer. -/
def JsonCodec.ofText {α : Type} (c : Codec α) : JsonCodec α where
  toVec x := some (c.toBytes x)
  fromSlice := c.ofBytes

theorem JsonCodec.ofText_lawful {α : Type} (c : Codec α) : (JsonCodec.ofText c).Lawful := by
  intro x b h
  simp only [JsonCodec.ofText, Option.some.injEq] at h
  subst h
  exact c.ofBytes_toBytes x

/-- The compact text of the four payload structs. -/
def compactSerde : SerdeJson where
  authReq := .ofText authReqJson
  authRes := .ofText authResJson
  newConn := .ofText newConnJson
  acceptConn := .ofText acceptConnJson

theorem compactSerde_lawful : compactSerde.Lawful where
  authReq := JsonCodec.ofText_lawful _
  authRes := JsonCodec.ofText_lawful _
  newConn := JsonCodec.ofText_lawful _
  acceptConn := JsonCodec.ofText_lawful _

example : compactSerde.authRes.toVec ⟨true, "a\"b", some 6210, none⟩ = some (Framing.utf8
    "\x7b\"success\":true,\"message\":\"a\\\"b\",\"public_port\":6210,\"assigned_route\":null\x7d") := by
  decide

end ZoTunnel
