import Mathlib.Data.List.TakeWhile
import ZoTunnel.Server.Delivery

/-!
# Host names

Which hosts reach what they name. The server announces `<client_id>.<domain>` to every client that
it admits, and it reserves the dashboard's name for itself. Neither is tied to what the parsers of
the `Host` header do: registration compares the id with a list and takes any other string, and the
parsers compare exact strings, up to the first colon, of a header that must be ASCII.

The results say exactly for which ids the announced host reaches the session, and for which
spellings the dashboard's host reaches the dashboard.
-/

namespace ZoTunnel

/-! ## Texts as header values -/

/-- ASCII throughout. -/
def IsAscii (text : String) : Prop := ∀ c ∈ text.toList, c.toNat < 128

instance (text : String) : Decidable (IsAscii text) := List.decidableBAll _ _

/-- No port, or a colon and decimal digits. -/
def IsPort (text : String) : Prop :=
  text = "" ∨ ∃ port, text = ":" ++ port ∧ ∀ c ∈ port.toList, c.isDigit = true

/-- The header value is this text. -/
def HeaderValue.IsText (v : HeaderValue) (text : String) : Prop := v.bytes = Framing.utf8 text

private theorem toNat_ofNat_of_lt {n : ℕ} (hn : n < 128) : (UInt8.ofNat n).toNat = n := by
  rw [UInt8.toNat_ofNat']
  exact Nat.mod_eq_of_lt (by omega)

/-- The encoding of any other character has a byte that is not ASCII. -/
theorem exists_mem_utf8EncodeChar {c : Char} (hc : ¬c.toNat < 128) :
    ∃ b ∈ String.utf8EncodeChar c, 128 ≤ b.toNat := by
  have hle : ¬c.val.toNat ≤ 0x7f := fun h ↦ hc (Nat.lt_succ_of_le h)
  rw [String.utf8EncodeChar, if_neg hle]
  split
  · exact ⟨_, List.mem_cons_self, by rw [UInt8.toNat_ofNat']; omega⟩
  · split
    · exact ⟨_, List.mem_cons_self, by rw [UInt8.toNat_ofNat']; omega⟩
    · exact ⟨_, List.mem_cons_self, by rw [UInt8.toNat_ofNat']; omega⟩

theorem HeaderValue.toStr_of_isAscii {v : HeaderValue} {text : String} (hv : v.IsText text)
    (ha : IsAscii text) : v.toStr = some text := by
  have hbytes : v.bytes = text.toList.map fun c ↦ UInt8.ofNat c.toNat := by
    rw [hv, Framing.utf8_eq_flatMap, Framing.flatMap_utf8EncodeChar ha]
  have hvisible : v.bytes.all isVisibleAscii = true := by
    rw [List.all_eq_true]
    intro b hb
    have hvalid := v.valid b hb
    rw [hbytes, List.mem_map] at hb
    obtain ⟨c, hc, rfl⟩ := hb
    have hlt := ha c hc
    have hnat := toNat_ofNat_of_lt hlt
    simp only [isVisibleAscii, Bool.or_eq_true, Bool.and_eq_true, decide_eq_true_eq, beq_iff_eq,
      UInt8.lt_iff_toNat_lt, UInt8.le_iff_toNat_le, ← UInt8.toNat_inj, hnat, UInt8.toNat_ofNat,
      ne_eq] at hvalid ⊢
    omega
  rw [toStr, if_pos hvisible, hbytes, List.map_map, Option.some.injEq]
  conv_rhs => rw [← String.ofList_toList (s := text), ← List.map_id text.toList]
  refine congrArg _ (List.map_congr_left fun c hc ↦ ?_)
  rw [Function.comp_apply, toNat_ofNat_of_lt (ha c hc), Char.ofNat_toNat, id]

theorem HeaderValue.toStr_of_not_isAscii {v : HeaderValue} {text : String} (hv : v.IsText text)
    (ha : ¬IsAscii text) : v.toStr = none := by
  obtain ⟨c, hc⟩ := not_forall.mp ha
  rw [Classical.not_imp] at hc
  obtain ⟨b, hb, hle⟩ := exists_mem_utf8EncodeChar hc.2
  refine if_neg fun hall ↦ ?_
  have hmem : b ∈ v.bytes := by
    rw [hv, Framing.utf8_eq_flatMap]
    exact List.mem_flatMap.mpr ⟨c, hc.1, hb⟩
  have hvis := List.all_eq_true.mp hall b hmem
  simp only [isVisibleAscii, Bool.or_eq_true, Bool.and_eq_true, decide_eq_true_eq, beq_iff_eq,
    UInt8.lt_iff_toNat_lt, UInt8.le_iff_toNat_le, ← UInt8.toNat_inj, UInt8.toNat_ofNat] at hvis
  omega

/-! ## Names and ports -/

theorem IsPort.isAscii {port : String} (hp : IsPort port) : IsAscii port := by
  intro c hc
  rcases hp with rfl | ⟨port, rfl, hdigits⟩
  · simp at hc
  · rw [String.toList_append, List.mem_append] at hc
    rcases hc with hc | hc
    · have hcolon : c = ':' := List.mem_singleton.mp hc
      rw [hcolon]
      decide
    · have hdigit := hdigits c hc
      rw [Char.isDigit, Bool.and_eq_true, decide_eq_true_eq, decide_eq_true_eq] at hdigit
      have hle : c.toNat ≤ 57 := hdigit.2
      omega

theorem isAscii_append {a b : String} : IsAscii (a ++ b) ↔ IsAscii a ∧ IsAscii b := by
  simp only [IsAscii, String.toList_append, List.mem_append, or_imp, forall_and]

theorem hostNoPort_append {name port : String} (hname : ':' ∉ name.toList) (hp : IsPort port) :
    hostNoPort (name ++ port) = name := by
  have hpass : ∀ c ∈ name.toList, (c != ':') = true := by
    intro c hc
    apply bne_iff_ne.mpr
    rintro rfl
    exact hname hc
  rw [← String.toList_inj, toList_hostNoPort, String.toList_append,
    List.takeWhile_append_of_pos hpass]
  rcases hp with rfl | ⟨port, rfl, -⟩
  · rw [String.toList_empty, List.takeWhile_nil, List.append_nil]
  · rw [String.toList_append]
    exact List.append_nil _

theorem colon_not_mem_hostNoPort (host : String) : ':' ∉ (hostNoPort host).toList := by
  rw [toList_hostNoPort]
  exact fun hmem ↦ by simpa using List.mem_takeWhile_imp hmem

/-! ## Letter case -/

/-- Two names that differ in the case of ASCII letters at most. -/
def EqIgnoreAsciiCase (a b : String) : Prop :=
  a.toList.map Char.toLower = b.toList.map Char.toLower

private theorem toLower_cases (c : Char) :
    c.toLower = c ∨ 65 ≤ c.toNat ∧ c.toNat ≤ 90 ∧ c.toLower.toNat = c.toNat + 32 := by
  delta Char.toLower
  split
  · rename_i hupper
    have hle : 65 ≤ c.toNat := UInt32.le_iff_toNat_le.mp hupper.1
    have hge : c.toNat ≤ 90 := UInt32.le_iff_toNat_le.mp hupper.2
    refine .inr ⟨hle, hge, ?_⟩
    change (c.val + ('a'.val - 'A'.val)).toNat = c.toNat + 32
    rw [UInt32.toNat_add]
    exact Nat.mod_eq_of_lt (by change c.toNat + 32 < _; omega)
  · exact .inl rfl

private theorem toLower_ne_colon (c : Char) : c.toLower ≠ ':' ↔ c ≠ ':' := by
  rcases toLower_cases c with h | ⟨hle, hge, hnat⟩
  · rw [h]
  · refine ⟨fun _ heq ↦ ?_, fun _ heq ↦ ?_⟩
    · have : c.toNat = 58 := heq ▸ rfl
      omega
    · have : c.toLower.toNat = 58 := heq ▸ rfl
      omega

private theorem toLower_lt (c : Char) : c.toLower.toNat < 128 ↔ c.toNat < 128 := by
  rcases toLower_cases c with h | ⟨hle, hge, hnat⟩
  · rw [h]
  · omega

namespace EqIgnoreAsciiCase

variable {a b : String}

theorem length (heq : EqIgnoreAsciiCase a b) : a.toList.length = b.toList.length := by
  rw [← List.length_map Char.toLower, heq, List.length_map]

theorem forall_iff {P : Char → Prop} (heq : EqIgnoreAsciiCase a b)
    (hP : ∀ c : Char, P c.toLower ↔ P c) : (∀ c ∈ a.toList, P c) ↔ ∀ c ∈ b.toList, P c := by
  have hlower : ∀ l : List Char, (∀ c ∈ l, P c) ↔ ∀ c ∈ l.map Char.toLower, P c := by
    intro l
    rw [List.forall_mem_map]
    exact forall₂_congr fun c _ ↦ (hP c).symm
  rw [hlower, heq, ← hlower]

theorem isAscii (heq : EqIgnoreAsciiCase a b) : IsAscii a ↔ IsAscii b := heq.forall_iff toLower_lt

theorem colon (heq : EqIgnoreAsciiCase a b) : ':' ∉ a.toList ↔ ':' ∉ b.toList := by
  have hmem : ∀ l : List Char, ':' ∉ l ↔ ∀ c ∈ l, c ≠ ':' := fun l ↦
    ⟨fun hnot c hc heq ↦ hnot (heq ▸ hc), fun hall hc ↦ hall _ hc rfl⟩
  rw [hmem, hmem]
  exact heq.forall_iff toLower_ne_colon

end EqIgnoreAsciiCase

/-! ## The announced host -/

/-- A host name in visible ASCII, without a colon. -/
def IsPlainDomain (domain : String) : Prop :=
  ∀ c ∈ domain.toList, c ≠ ':' ∧ 33 ≤ c.toNat ∧ c.toNat < 127

instance (domain : String) : Decidable (IsPlainDomain domain) := List.decidableBAll _ _

/-- The ids under which a session can be reached by name. -/
def IsRoutableId (clientId : String) : Prop :=
  clientId ≠ "" ∧ ∀ c ∈ clientId.toList, c ≠ ':' ∧ c.toNat < 128

instance (clientId : String) : Decidable (IsRoutableId clientId) :=
  @instDecidableAnd _ _ _ (List.decidableBAll _ _)

namespace Proxy

variable {serde : SerdeJson} {config : ServerConfig} {routes : RouteFiles} {h : List Event}
  {s : State} {req : HttpRequest} {v : HeaderValue} {r : ReqId} {c : ConnId}

/-- The request is routed to the session of an entry: `serve_http` gives it to the proxy,
`extract_routing` finds an id, and the slot of that id holds the entry. -/
structure Routed (config : ServerConfig) (s : State) (req : HttpRequest) (e : ClientEntry) :
    Prop where
  served : serveHttp req config.domain = .proxy
  found : ∃ clientId path, extractRouting req config.domain = some (clientId, path) ∧
    s.control.registry.get clientId = some e

/-- **The announced host reaches the session, exactly.** Of the ids that `register` takes, those
that are not empty, are ASCII and have no colon. -/
theorem announced_host_routed_iff (serde : SerdeJson) (config : ServerConfig) (routes : RouteFiles)
    (h : List Event) (s : State) (clientId : String) (e : ClientEntry) (req : HttpRequest)
    (v : HeaderValue) (port : String) (hr : (machine serde config routes).Reach h s)
    (hdomain : IsPlainDomain config.domain) (he : s.control.registry.get clientId = some e)
    (hv : req.header "host" = some v) (hport : IsPort port)
    (htext : v.IsText (clientId ++ "." ++ config.domain ++ port)) :
    Routed config s req e ↔ IsRoutableId clientId := by
  have hg : Control.Gate serde config (controlEvents h) s.control := .of_reach (control_reach hr)
  have hhost : req.host = v.toStr := by rw [HttpRequest.host, hv, Option.bind_some]
  constructor
  · rintro ⟨-, clientId', path, hroute, he'⟩
    obtain ⟨⟨host, hsome, hname⟩, hne, -⟩ := extractRouting_eq_some.mp hroute
    -- The slot of the id that the host names is the slot of the session.
    obtain rfl : clientId' = clientId := by
      obtain ⟨hid, -⟩ := hg.entry clientId e he
      obtain ⟨hid', -⟩ := hg.entry clientId' e he'
      rw [← hid, hid']
    have hascii : IsAscii (clientId' ++ "." ++ config.domain ++ port) := by
      by_contra hnot
      rw [hhost, HeaderValue.toStr_of_not_isAscii htext hnot] at hsome
      cases hsome
    rw [isAscii_append, isAscii_append, isAscii_append] at hascii
    refine ⟨hne, fun c hc ↦ ⟨?_, hascii.1.1.1 c hc⟩⟩
    rintro rfl
    apply colon_not_mem_hostNoPort host
    rw [hname, String.toList_append, String.toList_append]
    exact List.mem_append_left _ (List.mem_append_left _ hc)
  · rintro ⟨hne, hchars⟩
    have hascii : IsAscii (clientId ++ "." ++ config.domain ++ port) := by
      rw [isAscii_append, isAscii_append, isAscii_append]
      refine ⟨⟨⟨fun c hc ↦ (hchars c hc).2, ?_⟩, fun c hc ↦ ?_⟩, hport.isAscii⟩
      · decide
      · have := hdomain c hc
        omega
    have hname : hostNoPort (clientId ++ "." ++ config.domain ++ port) =
        clientId ++ "." ++ config.domain := by
      refine hostNoPort_append (fun hmem ↦ ?_) hport
      rw [String.toList_append, String.toList_append, List.mem_append, List.mem_append] at hmem
      rcases hmem with (hmem | hmem) | hmem
      · exact (hchars _ hmem).1 rfl
      · simp at hmem
      · exact (hdomain _ hmem).1 rfl
    rw [HeaderValue.toStr_of_isAscii htext hascii] at hhost
    refine ⟨?_, clientId, req.path, extractRouting_eq_some.mpr ⟨⟨_, hhost, hname⟩, hne, rfl⟩, he⟩
    rw [serveHttp, hhost, Option.getD_some, hname, if_neg]
    intro heq
    exact hg.unreserved he (eq_dashboard_of_append heq.symm ▸ by decide)

/-- A session that is registered under an id, and nothing else. -/
def registeredRun (auth : AuthReq) : List Act :=
  (Control.answerSegments 0 auth ++ Control.registerSegments 0 0).map .control

/-- The id `app`, with a port behind its host. -/
theorem announced_host_routed_iff_app : ∃ h s e,
    (machine compactSerde Control.sampleConfig fun _ ↦ none).run
      (start Control.sampleConfig fun _ ↦ none) (registeredRun ⟨"app", "t", some "1"⟩) =
        some (s, h) ∧
    s.control.registry.get "app" = some e ∧
    Routed Control.sampleConfig s (hostRequest appHost) e := by
  have hrun : ((machine compactSerde Control.sampleConfig fun _ ↦ none).run
      (start Control.sampleConfig fun _ ↦ none) (registeredRun ⟨"app", "t", some "1"⟩)).map
      (fun p ↦ p.1.control.registry.get "app") = some (some ⟨"app", 1, 0, true⟩) := by
    decide +kernel
  obtain ⟨⟨s, h⟩, hsh, he⟩ := Option.map_eq_some_iff.mp hrun
  have hdomain : IsPlainDomain Control.sampleConfig.domain := by decide
  have hid : IsRoutableId "app" := by decide
  exact ⟨h, s, _, hsh, he, (announced_host_routed_iff compactSerde Control.sampleConfig _ h s
    "app" _ (hostRequest appHost) appHost ":80" (.of_run hsh) hdomain he rfl
    (.inr ⟨"80", rfl, List.all_eq_true.mp (by decide)⟩)
    (by unfold HeaderValue.IsText; decide +kernel)).mpr hid⟩

/-- The host `my:app.d.io`. -/
def colonHost : HeaderValue :=
  ⟨[109, 121, 58, 97, 112, 112, 46, 100, 46, 105, 111], by decide +kernel⟩

/-- **An announced host that reaches nobody.** The id `my:app` is admitted and registered, and the
host `my:app.d.io` is cut at the colon. -/
theorem announced_host_not_routed : ∃ h s e,
    (machine compactSerde Control.sampleConfig fun _ ↦ none).run
      (start Control.sampleConfig fun _ ↦ none) (registeredRun ⟨"my:app", "t", some "1"⟩) =
        some (s, h) ∧
    (∃ res, .control (.answered 0 res) ∈ h ∧ res.message = "OK — my:app.d.io") ∧
    s.control.registry.get "my:app" = some e ∧
    colonHost.IsText ("my:app" ++ "." ++ Control.sampleConfig.domain) ∧
    ¬Routed Control.sampleConfig s (hostRequest colonHost) e := by
  have hrun : ((machine compactSerde Control.sampleConfig fun _ ↦ none).run
      (start Control.sampleConfig fun _ ↦ none) (registeredRun ⟨"my:app", "t", some "1"⟩)).map
      (fun p ↦ (p.1.control.registry.get "my:app", decide (.control (.answered 0
        (Control.successRes Control.sampleConfig ⟨"my:app", "t", some "1"⟩)) ∈ p.2))) =
      some (some ⟨"my:app", 1, 0, true⟩, true) := by
    decide +kernel
  obtain ⟨⟨s, h⟩, hsh, heq⟩ := Option.map_eq_some_iff.mp hrun
  rw [Prod.mk.injEq, decide_eq_true_eq] at heq
  refine ⟨h, s, _, hsh, ⟨_, heq.2, rfl⟩, heq.1, by unfold HeaderValue.IsText; decide +kernel, ?_⟩
  rintro ⟨-, clientId, path, hroute, -⟩
  have hnone : extractRouting (hostRequest colonHost) Control.sampleConfig.domain = none := by
    decide +kernel
  rw [hnone] at hroute
  cases hroute

/-! ## The host of the dashboard -/

/-- **A spelling of the dashboard's host reaches the dashboard, exactly**: the one in the letters of
the configured domain, if that is ASCII and has no colon. -/
theorem dashboard_host_served_iff (serde : SerdeJson) (config : ServerConfig) (routes : RouteFiles)
    (h : List Event) (s : State) (r : ReqId) (req : HttpRequest) (v : HeaderValue)
    (name port target : String) (hr : (machine serde config routes).Reach h s)
    (harr : .arrived r req ∈ h) (hv : req.header "host" = some v) (hport : IsPort port)
    (htext : v.IsText (name ++ port))
    (htarget : target = config.domain ∨ target = "dashboard." ++ config.domain)
    (hcase : EqIgnoreAsciiCase name target) :
    (.toDashboard r ∈ h ∧ ∀ c, .contacted r c ∉ h) ↔
      name = target ∧ IsAscii config.domain ∧ ':' ∉ config.domain.toList := by
  have hserved : (.toDashboard r ∈ h ∧ ∀ c, .contacted r c ∉ h) ↔
      hostNoPort (req.host.getD "") = "dashboard." ++ config.domain ∨
        hostNoPort (req.host.getD "") = config.domain := by
    rw [and_iff_left_of_imp fun hd c ↦ not_contacted_of_toDashboard hr hd, toDashboard_iff hr harr,
      serveHttp]
    split
    · rename_i heq
      exact iff_of_true rfl heq
    · rename_i heq
      exact iff_of_false (fun h ↦ by cases h) heq
  have hhost : req.host = v.toStr := by rw [HttpRequest.host, hv, Option.bind_some]
  have hdash : IsAscii "dashboard." ∧ ':' ∉ "dashboard.".toList := by
    decide
  -- The two targets are told apart by their lengths.
  have hlen : ("dashboard." ++ config.domain).toList.length = config.domain.toList.length + 10 := by
    rw [String.toList_append, List.length_append, Nat.add_comm]
    rfl
  have htargetAscii : IsAscii target ↔ IsAscii config.domain := by
    rcases htarget with rfl | rfl
    · rfl
    · rw [isAscii_append, and_iff_right hdash.1]
  have htargetColon : ':' ∉ target.toList ↔ ':' ∉ config.domain.toList := by
    rcases htarget with rfl | rfl
    · rfl
    · rw [String.toList_append, List.mem_append, not_or, and_iff_right hdash.2]
  rw [hserved]
  constructor
  · intro hname
    by_cases hascii : IsAscii (name ++ port)
    · rw [hhost, HeaderValue.toStr_of_isAscii htext hascii, Option.getD_some] at hname
      have hcolon : ':' ∉ config.domain.toList := by
        have hnot := colon_not_mem_hostNoPort (name ++ port)
        rcases hname with heq | heq
        · rw [heq, String.toList_append, List.mem_append, not_or] at hnot
          exact hnot.2
        · rwa [heq] at hnot
      rw [hostNoPort_append (hcase.colon.mpr (htargetColon.mpr hcolon)) hport] at hname
      rw [isAscii_append, hcase.isAscii, htargetAscii] at hascii
      refine ⟨?_, hascii.1, hcolon⟩
      have hsame := hcase.length
      rcases htarget with rfl | rfl
      · refine hname.resolve_left fun heq ↦ ?_
        rw [heq, hlen] at hsame
        omega
      · refine hname.resolve_right fun heq ↦ ?_
        rw [heq, hlen] at hsame
        omega
    · rw [hhost, HeaderValue.toStr_of_not_isAscii htext hascii, Option.getD_none] at hname
      have hempty : config.domain = "" := by
        refine (hname.resolve_left fun heq ↦ ?_).symm
        have := congrArg (fun x ↦ x.toList.length) heq
        rw [hlen] at this
        cases this
      refine absurd (isAscii_append.mpr ⟨?_, hport.isAscii⟩) hascii
      rw [hcase.isAscii, htargetAscii, hempty]
      intro c hc
      simp at hc
  · rintro ⟨rfl, hascii, hcolon⟩
    have htextAscii := isAscii_append.mpr ⟨htargetAscii.mpr hascii, hport.isAscii⟩
    rw [hhost, HeaderValue.toStr_of_isAscii htext htextAscii, Option.getD_some,
      hostNoPort_append (htargetColon.mpr hcolon) hport]
    exact htarget.symm

/-- The host `DASHBOARD.d.io`. -/
def upperHost : HeaderValue :=
  ⟨[68, 65, 83, 72, 66, 79, 65, 82, 68, 46, 100, 46, 105, 111], by decide +kernel⟩

/-- The host `dashboard.d.io:443`. -/
def lowerHost : HeaderValue :=
  ⟨[100, 97, 115, 104, 98, 111, 97, 114, 100, 46, 100, 46, 105, 111, 58, 52, 52, 51],
    by decide +kernel⟩

theorem dashboard_host_served_iff_lower : ∃ h s,
    (machine compactSerde Control.sampleConfig fun _ ↦ none).run
      (start Control.sampleConfig fun _ ↦ none) [.arrive 0 (hostRequest lowerHost)] = some (s, h) ∧
    .toDashboard 0 ∈ h ∧ ∀ c, .contacted 0 c ∉ h := by
  have hrun : ((machine compactSerde Control.sampleConfig fun _ ↦ none).run
      (start Control.sampleConfig fun _ ↦ none) [.arrive 0 (hostRequest lowerHost)]).map
      (fun p ↦ decide (.arrived 0 (hostRequest lowerHost) ∈ p.2)) = some true := by decide +kernel
  obtain ⟨⟨s, h⟩, hsh, hmem⟩ := Option.map_eq_some_iff.mp hrun
  rw [decide_eq_true_eq] at hmem
  exact ⟨h, s, hsh, (dashboard_host_served_iff compactSerde Control.sampleConfig _ h s 0
    (hostRequest lowerHost) lowerHost "dashboard.d.io" ":443" "dashboard.d.io" (.of_run hsh) hmem
    rfl (.inr ⟨"443", rfl, List.all_eq_true.mp (by decide)⟩)
    (by unfold HeaderValue.IsText; decide +kernel) (.inr rfl) rfl).mpr ⟨rfl, by decide, by decide⟩⟩

/-- **The dashboard's host is handed to a client**, who has registered it in capital letters. -/
theorem dashboard_host_captured : ∃ h s,
    (machine compactSerde Control.sampleConfig fun _ ↦ none).run
      (start Control.sampleConfig fun _ ↦ none) (registeredRun ⟨"DASHBOARD", "t", some "1"⟩ ++
        [.arrive 0 (hostRequest upperHost), .limit 0 0, .lookup 0, .openStream 0]) = some (s, h) ∧
    upperHost.IsText "DASHBOARD.d.io" ∧
    EqIgnoreAsciiCase "DASHBOARD.d.io" ("dashboard." ++ Control.sampleConfig.domain) ∧
    .control (.swapped 0 "DASHBOARD" 1) ∈ h ∧ .contacted 0 0 ∈ h ∧ .toDashboard 0 ∉ h := by
  have hrun : ((machine compactSerde Control.sampleConfig fun _ ↦ none).run
      (start Control.sampleConfig fun _ ↦ none) (registeredRun ⟨"DASHBOARD", "t", some "1"⟩ ++
        [.arrive 0 (hostRequest upperHost), .limit 0 0, .lookup 0, .openStream 0])).map
      (fun p ↦ (decide (.control (.swapped 0 "DASHBOARD" 1) ∈ p.2), decide (.contacted 0 0 ∈ p.2),
        decide (.toDashboard 0 ∈ p.2))) = some (true, true, false) := by decide +kernel
  obtain ⟨⟨s, h⟩, hsh, heq⟩ := Option.map_eq_some_iff.mp hrun
  simp only [Prod.mk.injEq, decide_eq_true_eq, decide_eq_false_iff_not] at heq
  exact ⟨h, s, hsh, by unfold HeaderValue.IsText; decide +kernel, by
    unfold EqIgnoreAsciiCase; decide +kernel, heq⟩

end Proxy

end ZoTunnel
