import ZoTunnel.Lib.Framing
import ZoTunnel.Server.Routing

/-!
# The forwarded request

A public request that is routed to a client goes to it with two headers of the server's own: the id
of the client, by which a service behind the tunnel knows where the request came in, and
`Connection: close`. Whatever the caller has put there is replaced.

The id header is only written if the id is a legal header value. An id out of a `Host` header is, so
a caller can never speak for another client (`forwarded_headers`).

`Uri` and `HeaderValue::from_str` are the `http` crate's. They are parameters; of `from_str` it is
assumed that it takes visible ASCII, blanks and tabs.
-/

namespace ZoTunnel

namespace Forward

/-! ## Header maps -/

/-- `HeaderMap::insert`: the first entry of the name gets the value, and any others go. -/
def insert : List (String × HeaderValue) → String → HeaderValue → List (String × HeaderValue)
  | [], name, v => [(name, v)]
  | (n, w) :: headers, name, v =>
    if n = name then (name, v) :: headers.filter (·.1 ≠ name)
    else (n, w) :: insert headers name v

/-- The values of a header field, in order. -/
def valuesOf (headers : List (String × HeaderValue)) (name : String) : List HeaderValue :=
  (headers.filter (·.1 = name)).map (·.2)

section Insert

variable (headers : List (String × HeaderValue)) {name other : String} (v : HeaderValue)

theorem valuesOf_insert_self : valuesOf (insert headers name v) name = [v] := by
  induction headers with
  | nil => simp [insert, valuesOf]
  | cons p headers ih =>
    obtain ⟨n, w⟩ := p
    rw [insert]
    by_cases hn : n = name
    · have hnone : (headers.filter (·.1 ≠ name)).filter (·.1 = name) = [] := by
        rw [List.filter_eq_nil_iff]
        intro p hp
        simpa using (List.mem_filter.mp hp).2
      rw [if_pos hn, valuesOf, List.filter_cons_of_pos (by simp), hnone]
      rfl
    · rw [if_neg hn, valuesOf, List.filter_cons_of_neg (by simpa using hn)]
      exact ih

/-- The entries of the other names stay, in their order. -/
theorem filter_insert (p : String → Bool) (hp : p name = false) :
    (insert headers name v).filter (fun e ↦ p e.1) = headers.filter fun e ↦ p e.1 := by
  induction headers with
  | nil => rw [insert, List.filter_cons_of_neg (by simp [hp])]
  | cons e headers ih =>
    obtain ⟨n, w⟩ := e
    rw [insert]
    by_cases hn : n = name
    · have hsame : (headers.filter (·.1 ≠ name)).filter (fun e ↦ p e.1) =
          headers.filter fun e ↦ p e.1 := by
        rw [List.filter_filter]
        refine List.filter_congr fun e _ ↦ ?_
        by_cases he : e.1 = name
        · rw [he, hp, Bool.false_and]
        · rw [decide_eq_true he, Bool.and_true]
      rw [if_pos hn, List.filter_cons_of_neg (by simp [hp]), hsame,
        List.filter_cons_of_neg (by simp [hn, hp])]
    · rw [if_neg hn, List.filter_cons, List.filter_cons, ih]

theorem valuesOf_insert_of_ne (hne : other ≠ name) :
    valuesOf (insert headers name v) other = valuesOf headers other := by
  rw [valuesOf, valuesOf,
    filter_insert headers v (fun n ↦ decide (n = other)) (decide_eq_false (Ne.symm hne))]

end Insert

/-! ## The request -/

/-- A request with everything that goes on to the client. -/
structure Request (Uri Body : Type) where
  method : String
  uri : Uri
  headers : List (String × HeaderValue)
  body : Body

/-- What is used of the `http` crate. -/
structure Http (Uri : Type) where
  path : Uri → String
  query : Uri → Option String
  parseUri : String → Option Uri
  fromStr : String → Option HeaderValue

variable {Uri Body : Type} (http : Http Uri)

/-- What routing reads of a request. -/
def Request.toHttpRequest (req : Request Uri Body) : HttpRequest := ⟨req.headers, http.path req.uri⟩

/-- `close`. -/
def close : HeaderValue := ⟨[99, 108, 111, 115, 101], by decide +kernel⟩

def buildForwardedRequest (req : Request Uri Body) (path clientId : String) :
    Except String (Request Uri Body) :=
  let query := match http.query req.uri with
    | some q => "?" ++ q
    | none => ""
  match http.parseUri (path ++ query) with
  | none => .error "build forwarded uri"
  | some newUri =>
    let headers := match http.fromStr clientId with
      | some val => insert req.headers "x-zo-tunnel-client" val
      | none => req.headers
    .ok { req with uri := newUri, headers := insert headers "connection" close }

/-! ## The id is a header value -/

/-- Visible ASCII, blanks and tabs. -/
def IsHeaderText (text : String) : Prop :=
  ∀ c ∈ text.toList, c = '\t' ∨ 32 ≤ c.toNat ∧ c.toNat < 127

/-- `from_str` takes every text of visible ASCII, blanks and tabs, and the value has its bytes. -/
def Http.AcceptsText : Prop :=
  ∀ text, IsHeaderText text → ∃ v, http.fromStr text = some v ∧ v.bytes = Framing.utf8 text

theorem isHeaderText_of_toStr {v : HeaderValue} {text : String} (h : v.toStr = some text) :
    IsHeaderText text := by
  rw [HeaderValue.toStr] at h
  split at h
  next hall =>
    obtain rfl := Option.some.inj h
    intro c hc
    rw [String.toList_ofList, List.mem_map] at hc
    obtain ⟨b, hb, rfl⟩ := hc
    have hvis := List.all_eq_true.mp hall b hb
    have hlt : b.toNat < 256 := b.toNat_lt
    have hvalid : b.toNat.isValidChar := .inl (by omega)
    have hnat : (Char.ofNat b.toNat).toNat = b.toNat := by
      rw [Char.ofNat, dif_pos hvalid]
      rfl
    rw [isVisibleAscii, Bool.or_eq_true, Bool.and_eq_true, decide_eq_true_eq, decide_eq_true_eq,
      beq_iff_eq] at hvis
    rcases hvis with ⟨hlow, hhigh⟩ | rfl
    · refine .inr ?_
      rw [hnat]
      exact ⟨UInt8.le_iff_toNat_le.mp hlow, UInt8.lt_iff_toNat_lt.mp hhigh⟩
    · exact .inl rfl
  next => cases h

/-- **The branch that leaves the header alone is dead.** An id that routing has taken from a `Host`
header is a legal header value. -/
theorem isHeaderText_of_routed {req : HttpRequest} {domain clientId path : String}
    (h : extractRouting req domain = some (clientId, path)) : IsHeaderText clientId := by
  obtain ⟨⟨host, hhost, hname⟩, -⟩ := extractRouting_eq_some.mp h
  rw [HttpRequest.host, Option.bind_eq_some_iff] at hhost
  obtain ⟨v, -, hv⟩ := hhost
  intro c hc
  refine isHeaderText_of_toStr hv c ?_
  have hmem : c ∈ (hostNoPort host).toList := by
    rw [hname, String.toList_append, String.toList_append]
    exact List.mem_append_left _ (List.mem_append_left _ hc)
  rw [toList_hostNoPort] at hmem
  exact List.takeWhile_subset _ hmem

/-- **Who the request is for, and nobody else's word on it.** A request that is routed to a client
goes out with exactly one id header, which is that client's id, exactly one `Connection` header,
which is `close`, the other headers as they came, and its method and body. -/
theorem forwarded_headers (haccepts : http.AcceptsText) (req : Request Uri Body)
    (domain clientId path : String)
    (hrouted : extractRouting (req.toHttpRequest http) domain = some (clientId, path))
    (out : Request Uri Body)
    (hout : buildForwardedRequest http req path clientId = .ok out) :
    (∃ v, valuesOf out.headers "x-zo-tunnel-client" = [v] ∧ v.bytes = Framing.utf8 clientId) ∧
    valuesOf out.headers "connection" = [close] ∧
    (∀ p : String → Bool, p "x-zo-tunnel-client" = false → p "connection" = false →
      out.headers.filter (fun e ↦ p e.1) = req.headers.filter fun e ↦ p e.1) ∧
    out.method = req.method ∧ out.body = req.body := by
  obtain ⟨v, hv, hbytes⟩ := haccepts clientId (isHeaderText_of_routed hrouted)
  rw [buildForwardedRequest] at hout
  split at hout
  next => cases hout
  next newUri _ =>
    rw [hv] at hout
    obtain rfl := Except.ok.inj hout
    refine ⟨⟨v, ?_, hbytes⟩, valuesOf_insert_self _ _, fun p hclient hconnection ↦ ?_, rfl, rfl⟩
    · rw [valuesOf_insert_of_ne _ _ (by decide), valuesOf_insert_self]
    · rw [filter_insert _ _ p hconnection, filter_insert _ _ p hclient]

/-! ## A caller that claims to be somebody -/

/-- A byte that a header value may have. -/
def isHeaderByte (b : UInt8) : Bool := b == 9 || (decide (32 ≤ b) && b != 127)

theorem isHeaderByte_iff {b : UInt8} : isHeaderByte b = true ↔ b = 9 ∨ 32 ≤ b ∧ b ≠ 127 := by
  simp [isHeaderByte]

/-- Texts as URIs, and `from_str` as it is. -/
def plainHttp : Http String where
  path uri := String.ofList (uri.toList.takeWhile (· != '?'))
  query uri :=
    if '?' ∈ uri.toList then some (String.ofList ((uri.toList.dropWhile (· != '?')).drop 1))
    else none
  parseUri text := some text
  fromStr text :=
    if h : (Framing.utf8 text).all isHeaderByte = true then
      some ⟨Framing.utf8 text, fun b hb ↦ isHeaderByte_iff.mp (List.all_eq_true.mp h b hb)⟩
    else none

theorem plainHttp_acceptsText : plainHttp.AcceptsText := by
  intro text htext
  have hlt : ∀ c ∈ text.toList, c.toNat < 128 := by
    intro c hc
    rcases htext c hc with rfl | ⟨-, hlt⟩
    · decide
    · omega
  suffices hall : ∀ b ∈ Framing.utf8 text, b = 9 ∨ 32 ≤ b ∧ b ≠ 127 from
    ⟨⟨Framing.utf8 text, hall⟩,
      dif_pos (List.all_eq_true.mpr fun b hb ↦ isHeaderByte_iff.mpr (hall b hb)), rfl⟩
  rw [Framing.utf8_eq_flatMap, Framing.flatMap_utf8EncodeChar hlt]
  intro b hb
  obtain ⟨c, hc, rfl⟩ := List.mem_map.mp hb
  rcases htext c hc with rfl | ⟨hlow, hhigh⟩
  · exact .inl rfl
  · refine .inr ?_
    have hnat : (UInt8.ofNat c.toNat).toNat = c.toNat := by
      rw [UInt8.toNat_ofNat']
      omega
    rw [UInt8.le_iff_toNat_le, Ne, ← UInt8.toNat_inj, hnat]
    exact ⟨hlow, by simp only [UInt8.toNat_ofNat]; omega⟩

/-- A request to `a.d.io` with two ids of its own, `b` and `c`, and `Connection: x`. -/
def spoofed : Request String Unit where
  method := "GET"
  uri := "/p?q"
  headers :=
    [("x-zo-tunnel-client", ⟨[98], by decide +kernel⟩),
      ("host", ⟨[97, 46, 100, 46, 105, 111], by decide +kernel⟩),
      ("connection", ⟨[120], by decide +kernel⟩),
      ("x-zo-tunnel-client", ⟨[99], by decide +kernel⟩)]
  body := ()

theorem forwarded_headers_spoofed : ∃ out v,
    buildForwardedRequest plainHttp spoofed "/p" "a" = .ok out ∧
    valuesOf out.headers "x-zo-tunnel-client" = [v] ∧ v.bytes = Framing.utf8 "a" := by
  have hrouted : extractRouting (spoofed.toHttpRequest plainHttp) "d.io" = some ("a", "/p") := by
    decide +kernel
  obtain ⟨out, hout⟩ : ∃ out, buildForwardedRequest plainHttp spoofed "/p" "a" = .ok out := ⟨_, rfl⟩
  obtain ⟨⟨v, hv, hbytes⟩, -⟩ := forwarded_headers plainHttp plainHttp_acceptsText spoofed "d.io"
    "a" "/p" hrouted out hout
  exact ⟨out, v, hout, hv, hbytes⟩

end Forward

end ZoTunnel
