import Mathlib.Data.List.Basic
import ZoTunnel.Server.Config

/-!
# Routing by host name

Two functions read the `Host` header of a public request. `serve_http` decides between the
dashboard and the tunnels, and `extract_routing` finds the client id. Each parses the header for
itself, so that they agree is a theorem: they read the same text, and what one of them takes for the
dashboard the other one can only take for an id that nobody can register.

A header value is bytes. Only one that is visible ASCII throughout has a text; any other value
counts as absent.
-/

namespace ZoTunnel

/-- The value of a header field, as the HTTP library admits it: no control characters but tabs. -/
structure HeaderValue where
  bytes : List UInt8
  valid : ∀ b ∈ bytes, b = 9 ∨ 32 ≤ b ∧ b ≠ 127
  deriving DecidableEq, Repr

/-- A visible ASCII character, a space or a tab. -/
def isVisibleAscii (b : UInt8) : Bool := decide (32 ≤ b) && decide (b < 127) || b == 9

/-- `to_str`: the text of a value that is visible ASCII throughout. -/
def HeaderValue.toStr (v : HeaderValue) : Option String :=
  if v.bytes.all isVisibleAscii then
    some (String.ofList (v.bytes.map fun b ↦ Char.ofNat b.toNat))
  else none

/-- What routing reads of a public request. Field names are in lower case. -/
structure HttpRequest where
  headers : List (String × HeaderValue)
  path : String
  deriving DecidableEq, Repr

/-- The first value of a header field. -/
def HttpRequest.header (req : HttpRequest) (name : String) : Option HeaderValue :=
  req.headers.lookup name

/-- The text of the `Host` header. -/
def HttpRequest.host (req : HttpRequest) : Option String :=
  (req.header "host").bind HeaderValue.toStr

/-- The text up to the first colon. -/
def hostNoPort (host : String) : String := String.ofList (host.toList.takeWhile fun c ↦ c != ':')

/-- The text before a suffix. -/
def stripSuffix (text suffix : String) : Option String :=
  (text.toList.dropSuffix? suffix.toList).map String.ofList

/-- The client id and the path of a request to `<client_id>.<domain>`. -/
def extractRouting (req : HttpRequest) (domain : String) : Option (String × String) :=
  match req.host with
  | none => none
  | some host =>
    match stripSuffix (hostNoPort host) ("." ++ domain) with
    | none => none
    | some clientId => if clientId = "" then none else some (clientId, req.path)

/-- Who serves a request. -/
inductive Service
  | dashboard
  | proxy
  deriving DecidableEq, Repr

/-- The decision of `serve_http`. -/
def serveHttp (req : HttpRequest) (domain : String) : Service :=
  let host := hostNoPort (req.host.getD "")
  if host = "dashboard." ++ domain ∨ host = domain then .dashboard else .proxy

variable {req : HttpRequest} {domain clientId path : String}

@[simp] theorem toList_hostNoPort (host : String) :
    (hostNoPort host).toList = host.toList.takeWhile fun c ↦ c != ':' := String.toList_ofList

theorem stripSuffix_eq_some {text suffix rest : String} :
    stripSuffix text suffix = some rest ↔ text = rest ++ suffix := by
  rw [stripSuffix, Option.map_eq_some_iff]
  constructor
  · rintro ⟨l, hl, rfl⟩
    obtain ⟨l', htext, heq⟩ := List.dropSuffix?_eq_some_iff.mp hl
    rw [← String.toList_inj, String.toList_append, String.toList_ofList, htext, eq_of_beq heq]
  · rintro rfl
    exact ⟨rest.toList, List.dropSuffix?_eq_some_iff.mpr ⟨suffix.toList, String.toList_append,
      BEq.rfl⟩, String.ofList_toList⟩

/-- **The host names the client.** `extract_routing` gives a client id exactly when the header has a
text, and that is the id, a dot and the domain up to the first colon. -/
theorem extractRouting_eq_some : extractRouting req domain = some (clientId, path) ↔
    (∃ host, req.host = some host ∧ hostNoPort host = clientId ++ "." ++ domain) ∧
      clientId ≠ "" ∧ path = req.path := by
  rw [extractRouting]
  cases hhost : req.host with
  | none => simp
  | some host =>
    have happ : clientId ++ "." ++ domain = clientId ++ ("." ++ domain) := String.append_assoc
    simp only [Option.some.injEq, exists_eq_left', happ, ← stripSuffix_eq_some]
    cases hstrip : stripSuffix (hostNoPort host) ("." ++ domain) with
    | none => simp
    | some rest =>
      simp only [Option.ite_none_left_eq_some, Option.some.injEq, Prod.mk.injEq]
      constructor
      · rintro ⟨hne, rfl, rfl⟩
        exact ⟨rfl, hne, rfl⟩
      · rintro ⟨rfl, hne, rfl⟩
        exact ⟨hne, rfl, rfl⟩

/-- **The host names the dashboard.** A request without a text goes to the proxy, as the domain is
not empty. -/
theorem serveHttp_eq_dashboard (hdomain : domain ≠ "") : serveHttp req domain = .dashboard ↔
    ∃ host, req.host = some host ∧
      (hostNoPort host = domain ∨ hostNoPort host = "dashboard." ++ domain) := by
  rw [serveHttp]
  cases hhost : req.host with
  | none =>
    have hempty : hostNoPort "" = "" := rfl
    have hdash : "" ≠ "dashboard." ++ domain := by
      intro heq
      have := congrArg String.toList heq
      rw [String.toList_append] at this
      simp at this
    simp [hempty, hdash, hdomain.symm]
  | some host =>
    simp only [Option.getD_some, Option.some.injEq, exists_eq_left']
    by_cases h₁ : hostNoPort host = domain <;>
      by_cases h₂ : hostNoPort host = "dashboard." ++ domain <;> simp [h₁, h₂]

/-- A host under the domain is that of the dashboard only for the id of the dashboard. -/
theorem eq_dashboard_of_append (heq : clientId ++ "." ++ domain = domain ∨
    clientId ++ "." ++ domain = "dashboard." ++ domain) : clientId = "dashboard" := by
  rw [← String.toList_inj, ← String.toList_inj] at heq
  simp only [String.toList_append] at heq
  rcases heq with heq | heq
  · -- The domain cannot be longer than itself.
    have := congrArg List.length heq
    simp only [List.length_append] at this
    have hdot : (".".toList).length = 1 := rfl
    omega
  · have hsplit : "dashboard.".toList = "dashboard".toList ++ ".".toList := rfl
    rw [hsplit, List.append_left_inj, List.append_left_inj] at heq
    exact String.toList_inj.mp heq

/-- **The two parsers agree.** A request of the dashboard names no client, or the one that is called
like the dashboard. -/
theorem clientId_of_dashboard (hdomain : domain ≠ "")
    (hserve : serveHttp req domain = .dashboard)
    (hroute : extractRouting req domain = some (clientId, path)) : clientId = "dashboard" := by
  obtain ⟨host, hhost, heq⟩ := (serveHttp_eq_dashboard hdomain).mp hserve
  obtain ⟨⟨host', hhost', heq'⟩, -, -⟩ := extractRouting_eq_some.mp hroute
  rw [hhost, Option.some.injEq] at hhost'
  subst hhost'
  exact eq_dashboard_of_append (heq' ▸ heq)

end ZoTunnel
