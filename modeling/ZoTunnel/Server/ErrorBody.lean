import ZoTunnel.Lib.Json
import ZoTunnel.Server.Counters

/-!
# The bodies of the proxy's own errors

Whatever goes wrong with a public request, `handle_proxy_request` answers with a JSON object that
has the message under `error` and the status under `status`. The object is put together as text,
and nothing in the message is escaped. Five of the messages have a text of somebody else in them:
the id out of the `Host` header, or the ids of all clients with the domain.

A message that is plain comes out as it is, and no other does (`isErrorBody_iff`). What is fixed in
the messages is plain, so it is the ids and the domain that decide (`error_body_iff`). A header
value may have a quote in it, so everybody can have a body that is no JSON (`offline_not_json`).
-/

namespace ZoTunnel

namespace Proxy

open Json

/-- An answer of the proxy's own. -/
structure Response where
  status : ℕ
  headers : List (String × String)
  body : String
  deriving DecidableEq, Repr

def errorResponse (status : ℕ) (msg : String) : Response where
  status := status
  headers := [("content-type", "application/json"), ("x-powered-by", "zo-tunnel")]
  body := "\x7b\"error\":\"" ++ msg ++ "\",\"status\":" ++ toString status ++ "\x7d"

/-- The body is a JSON object that says this status and this message. Whatever reader takes the
first or the last of two members of one name, it finds nothing else. -/
def IsErrorBody (res : Response) (msg : String) : Prop :=
  ∃ ms, Reads res.body.toList (.obj ms) ∧
    (∀ v, ("error".toList, v) ∈ ms ↔ v = .str msg.toList) ∧
    ∀ v, ("status".toList, v) ∈ ms ↔ v = .num res.status 0

/-! ## Plain messages -/

/-- The second member, without its first quote, and what is behind it. -/
private def tail (status : ℕ) : List Char :=
  ['s', 't', 'a', 't', 'u', 's'] ++ '"' :: ':' :: (Nat.toDigits 10 status ++ ['\x7d'])

private theorem toList_body (status : ℕ) (msg : String) : (errorResponse status msg).body.toList =
    '\x7b' :: '"' :: (['e', 'r', 'r', 'o', 'r'] ++ '"' :: ':' :: '"' ::
      (msg.toList ++ '"' :: ',' :: '"' :: tail status)) := by
  have hopen : "\x7b\"error\":\"".toList = ['\x7b', '"', 'e', 'r', 'r', 'o', 'r', '"', ':', '"'] :=
    Framing.toList_lit rfl
  have hmid : "\",\"status\":".toList =
      ['"', ',', '"', 's', 't', 'a', 't', 'u', 's', '"', ':'] := Framing.toList_lit rfl
  have hclose : "\x7d".toList = ['\x7d'] := Framing.toList_lit rfl
  have hnum : (toString status).toList = Nat.toDigits 10 status := Nat.toList_repr
  simp only [errorResponse, String.toList_append, hopen, hmid, hclose, hnum, tail,
    List.append_assoc, List.cons_append, List.nil_append]

private theorem members_tail (depth status : ℕ) : members (depth + 2) ('"' :: tail status) =
    some ([(['s', 't', 'a', 't', 'u', 's'], .num status 0)], []) := by
  obtain ⟨c, cs, hc⟩ := List.exists_cons_of_ne_nil
    (Nat.toDigits_ne_nil (n := status) (b := 10))
  have hdigit : c.isDigit = true :=
    Nat.isDigit_of_mem_toDigits (b := 10) (n := status) (by decide) (by decide)
      (hc ▸ List.mem_cons_self)
  have hvalue : value (depth + 1) (skip (Nat.toDigits 10 status ++ ['\x7d'])) =
      some (.num status 0, ['\x7d']) := by
    rw [hc, List.cons_append, skip_of_isBlank _ (isBlank_of_isDigit hdigit),
      value_digit _ _ hdigit, ← List.cons_append, ← hc, number_toDigits _ _ rfl (by decide)]
  rw [tail, members_cons _ _ (by decide), hvalue]
  rfl

/-- The reader goes into the object and takes the message for a string. -/
private theorem value_body (depth status : ℕ) (msg : String) :
    value (depth + 3) (skip (errorResponse status msg).body.toList) =
      ((string (msg.toList ++ '"' :: ',' :: '"' :: tail status)).bind fun m ↦
        match skip m.2 with
        | ',' :: s => (members (depth + 1) (skip s)).map fun r ↦
          ((['e', 'r', 'r', 'o', 'r'], .str m.1) :: r.1, r.2)
        | '\x7d' :: s => some ([(['e', 'r', 'r', 'o', 'r'], .str m.1)], s)
        | _ => none).map fun r ↦ (.obj r.1, r.2) := by
  rw [toList_body, skip_of_isBlank _ rfl, value_obj, members_cons _ _ (by decide),
    skip_of_isBlank _ rfl, value_string, Option.bind_map]
  rfl

/-- Behind the quotes of the second name comes nothing that ends a member. -/
private theorem not_closed {status : ℕ} {more rest : List Char}
    (h : ',' :: '"' :: tail status = more ++ '"' :: rest) (s : List Char) :
    ¬(skip rest = ',' :: s ∨ skip rest = '\x7d' :: s) := by
  have hquote : '"' ∉ ':' :: (Nat.toDigits 10 status ++ ['\x7d']) := by
    simp only [List.mem_cons, List.mem_append, List.not_mem_nil, or_false, not_or]
    refine ⟨by decide, fun hmem ↦ ?_, by decide⟩
    cases Nat.isDigit_of_mem_toDigits (by decide) (by decide) hmem
  rcases eq_or_append_of_append_quote (s := [',']) (by decide) h with rfl | ⟨more, h⟩
  · rw [tail, List.cons_append, skip_of_isBlank _ rfl]
    rintro (heq | heq) <;> cases heq
  · rcases eq_or_append_of_append_quote (by decide) h with rfl | ⟨more, h⟩
    · rw [skip_of_isBlank _ rfl]
      rintro (heq | heq) <;> cases heq
    · exact absurd (h ▸ List.mem_append_right _ List.mem_cons_self) hquote

/-- **Plain messages, and no others, come out.** -/
theorem isErrorBody_iff (status : ℕ) (msg : String) :
    IsErrorBody (errorResponse status msg) msg ↔ Plain msg.toList := by
  have herror : "error".toList = ['e', 'r', 'r', 'o', 'r'] := Framing.toList_lit rfl
  have hstatus : "status".toList = ['s', 't', 'a', 't', 'u', 's'] := Framing.toList_lit rfl
  rw [IsErrorBody, herror, hstatus]
  constructor
  · rintro ⟨ms, ⟨depth, rest, hvalue, -⟩, hmsg, -⟩
    rcases depth with _ | _ | _ | depth
    · cases hvalue
    · rw [toList_body, skip_of_isBlank _ rfl, value_obj] at hvalue
      cases hvalue
    · rw [toList_body, skip_of_isBlank _ rfl, value_obj, members_cons _ _ (by decide)] at hvalue
      cases hvalue
    · rw [value_body] at hvalue
      obtain ⟨⟨ms', rest'⟩, hms, heq⟩ := Option.map_eq_some_iff.mp hvalue
      obtain ⟨⟨m, rest''⟩, hstring, hms⟩ := Option.bind_eq_some_iff.mp hms
      -- the first member has to be the message
      have hmem : (['e', 'r', 'r', 'o', 'r'], .str m) ∈ ms' ∧
          ∃ s, skip rest'' = ',' :: s ∨ skip rest'' = '\x7d' :: s := by
        split at hms
        next s hs =>
          obtain ⟨r, -, hr⟩ := Option.map_eq_some_iff.mp hms
          obtain ⟨rfl, -⟩ := Prod.mk.inj hr
          exact ⟨List.mem_cons_self, s, .inl hs⟩
        next s hs =>
          obtain ⟨rfl, -⟩ := Prod.mk.inj (Option.some.inj hms)
          exact ⟨List.mem_cons_self, s, .inr hs⟩
        next => cases hms
      obtain ⟨hmem, s, hs⟩ := hmem
      obtain rfl := Json.obj.inj (congrArg Prod.fst heq)
      obtain rfl := Json.str.inj ((hmsg _).mp hmem)
      rcases string_append_quote hstring with ⟨hplain, -⟩ | ⟨more, hmore⟩
      · exact hplain
      · exact absurd hs (not_closed hmore s)
  · intro hplain
    have hread : value 4 (skip (errorResponse status msg).body.toList) =
        some (.obj [(['e', 'r', 'r', 'o', 'r'], .str msg.toList),
          (['s', 't', 'a', 't', 'u', 's'], .num status 0)], []) := by
      rw [value_body, string_plain hplain, Option.bind_some]
      simp only [skip_of_isBlank _ (show isBlank ',' = false from rfl),
        skip_of_isBlank _ (show isBlank '"' = false from rfl), members_tail 0]
      rfl
    refine ⟨_, ⟨4, [], hread, rfl⟩, fun v ↦ ?_, fun v ↦ ?_⟩ <;> simp [errorResponse]

/-! ## The answers of a run -/

variable {serde : SerdeJson} {config : ServerConfig} {routes : RouteFiles} {h : List Event}
  {s t : State} {a : Act} {es : List Event} {r : ReqId} {q : Request} {reply : Reply}

/-- The steps in which `handle_proxy_request` and the dashboard return, and what they return. -/
inductive Returns (config : ServerConfig) (s : State) (q : Request) : Act → Reply → Prop
  | dashboard (r : ReqId) : Returns config s q (.dashboardReply r) .dashboard
  | unroutable (r : ReqId) {ids : List String} (hids : ids.Perm s.control.registry.ids) :
      Returns config s q (.hint r ids) (hintReply config.domain ids)
  | limited (r : ReqId) (now : ℕ) : Returns config s q (.limit r now) limitedReply
  | offline (r : ReqId) {clientId path : String} (hroute : q.phase.route = some (clientId, path)) :
      Returns config s q (.lookup r) (offlineReply clientId)
  | notOpened (r : ReqId) {clientId path : String}
      (hroute : q.phase.route = some (clientId, path)) :
      Returns config s q (.opened r) (connectionReply clientId)
  | notMarked (r : ReqId) {clientId path : String}
      (hroute : q.phase.route = some (clientId, path)) :
      Returns config s q (.mark r false) (connectionReply clientId)
  | noHandshake (r : ReqId) : Returns config s q (.handshake r false) handshakeReply
  | notBuilt (r : ReqId) : Returns config s q (.build r false) buildReply
  | silent (r : ReqId) {clientId path : String} (hroute : q.phase.route = some (clientId, path)) :
      Returns config s q (.send r false) (silentReply clientId)
  | forwarded (r : ReqId) : Returns config s q (.send r true) .forwarded

/-- A request that has just got its answer has got it from the segment that ran. -/
private theorem returns_of_requestStep (hstep : requestStep serde config s r q a = some (t, es))
    (ht : t.requests r = some ⟨q.req, .answered reply⟩) : Returns config s q a reply := by
  have hset : ∀ {s₀ : State} {p : Phase}, (s₀.setPhase r q p).requests r =
      some ⟨q.req, .answered reply⟩ → p = .answered reply := by
    intro s₀ p heq
    rw [State.setPhase, setRequest_requests, if_pos rfl, Option.some.injEq] at heq
    exact congrArg Request.phase heq
  cases a with
  | control | arrive => cases hstep
  | dashboardReply r' =>
    simp only [requestStep] at hstep
    split at hstep
    · obtain ⟨rfl, rfl⟩ := Prod.mk.inj (Option.some.inj hstep)
      cases hset ht
      exact .dashboard r'
    · cases hstep
  | hint r' ids =>
    simp only [requestStep] at hstep
    split at hstep
    · split at hstep
      · rename_i hids
        obtain ⟨rfl, rfl⟩ := Prod.mk.inj (Option.some.inj hstep)
        obtain rfl := Phase.answered.inj (hset ht)
        exact .unroutable r' hids
      · cases hstep
    · cases hstep
  | limit r' now =>
    simp only [requestStep] at hstep
    split at hstep
    · split at hstep
      · obtain ⟨rfl, rfl⟩ := Prod.mk.inj (Option.some.inj hstep)
        cases hset ht
      · obtain ⟨rfl, rfl⟩ := Prod.mk.inj (Option.some.inj hstep)
        obtain rfl := Phase.answered.inj (hset ht)
        exact .limited r' now
    · cases hstep
  | lookup r' =>
    simp only [requestStep] at hstep
    split at hstep
    · rename_i hphase
      split at hstep
      · obtain ⟨rfl, rfl⟩ := Prod.mk.inj (Option.some.inj hstep)
        obtain rfl := Phase.answered.inj (hset ht)
        exact .offline r' (by rw [hphase]; rfl)
      · obtain ⟨rfl, rfl⟩ := Prod.mk.inj (Option.some.inj hstep)
        cases hset ht
    · cases hstep
  | openStream r' =>
    simp only [requestStep] at hstep
    split at hstep
    · split at hstep
      · cases hstep
      · obtain ⟨rfl, rfl⟩ := Prod.mk.inj (Option.some.inj hstep)
        cases hset ht
    · cases hstep
  | opened r' =>
    simp only [requestStep] at hstep
    split at hstep
    · rename_i hphase
      split at hstep
      · cases hstep
      · obtain ⟨rfl, rfl⟩ := Prod.mk.inj (Option.some.inj hstep)
        obtain rfl := Phase.answered.inj (hset ht)
        exact .notOpened r' (by rw [hphase]; rfl)
      · split at hstep
        · obtain ⟨rfl, rfl⟩ := Prod.mk.inj (Option.some.inj hstep)
          cases hset ht
        · obtain ⟨rfl, rfl⟩ := Prod.mk.inj (Option.some.inj hstep)
          cases hset ht
    · cases hstep
  | mark r' ok =>
    simp only [requestStep] at hstep
    split at hstep
    · rename_i hphase
      cases ok with
      | true =>
        obtain ⟨rfl, rfl⟩ := Prod.mk.inj (Option.some.inj hstep)
        cases hset ht
      | false =>
        obtain ⟨rfl, rfl⟩ := Prod.mk.inj (Option.some.inj hstep)
        obtain rfl := Phase.answered.inj (hset ht)
        exact .notMarked r' (by rw [hphase]; rfl)
    · cases hstep
  | handshake r' ok =>
    simp only [requestStep] at hstep
    split at hstep
    · cases ok with
      | true =>
        obtain ⟨rfl, rfl⟩ := Prod.mk.inj (Option.some.inj hstep)
        cases hset ht
      | false =>
        obtain ⟨rfl, rfl⟩ := Prod.mk.inj (Option.some.inj hstep)
        obtain rfl := Phase.answered.inj (hset ht)
        exact .noHandshake r'
    · cases hstep
  | build r' ok =>
    simp only [requestStep] at hstep
    split at hstep
    · cases ok with
      | true =>
        obtain ⟨rfl, rfl⟩ := Prod.mk.inj (Option.some.inj hstep)
        cases hset ht
      | false =>
        obtain ⟨rfl, rfl⟩ := Prod.mk.inj (Option.some.inj hstep)
        obtain rfl := Phase.answered.inj (hset ht)
        exact .notBuilt r'
    · cases hstep
  | send r' ok =>
    simp only [requestStep] at hstep
    split at hstep
    · rename_i hphase
      obtain ⟨rfl, rfl⟩ := Prod.mk.inj (Option.some.inj hstep)
      obtain rfl := Phase.answered.inj (hset ht)
      cases ok with
      | true => exact .forwarded r'
      | false => exact .silent r' (by rw [hphase]; rfl)
    · cases hstep
  | drop r' =>
    simp only [requestStep] at hstep
    split at hstep
    iterate 4
      · obtain ⟨rfl, rfl⟩ := Prod.mk.inj (Option.some.inj hstep)
        cases hset ht
    · split at hstep
      · obtain ⟨rfl, rfl⟩ := Prod.mk.inj (Option.some.inj hstep)
        cases hset ht
      · obtain ⟨rfl, rfl⟩ := Prod.mk.inj (Option.some.inj hstep)
        cases hset ht
    · cases hstep

/-- **What an answering step can do.** -/
theorem returns_of_step (hstep : step serde config s a = some (t, es))
    (hs : s.requests r = some q) (hne : q.phase ≠ .answered reply)
    (ht : t.requests r = some ⟨q.req, .answered reply⟩) : Returns config s q a reply := by
  have hmoved : t.requests r ≠ s.requests r := by
    rw [ht, hs]
    intro heq
    exact hne (congrArg Request.phase (Option.some.inj heq)).symm
  have hreq : a.req = some r := by
    cases ha : a.req with
    | none => exact absurd (congrFun (frame_of_control hstep ha).1 r) hmoved
    | some r' =>
      by_contra hrr
      refine hmoved ((posted_of_step (h := []) hstep ha).frame r fun heq ↦ hrr ?_)
      rw [heq]
  suffices hseg : requestStep serde config s r q a = some (t, es) from
    returns_of_requestStep hseg ht
  cases a with
  | control => cases hreq
  | arrive =>
    obtain rfl := Option.some.inj hreq
    rw [step, hs] at hstep
    cases hstep
  | _ =>
    obtain rfl := Option.some.inj hreq
    simpa only [step, Act.req, hs] using hstep

/-! ## What is in the messages -/

/-- What the message takes from elsewhere, if the action answers a request: the ids of the clients
and the domain, or the id in the `Host` header. -/
def spliced (config : ServerConfig) (s : State) (req : HttpRequest) : Act → List String
  | .hint .. =>
    if s.control.registry.ids = [] then [] else config.domain :: s.control.registry.ids
  | .lookup _ | .opened _ | .mark .. | .send .. =>
    ((extractRouting req config.domain).map Prod.fst).toList
  | _ => []

private theorem plain_named (clientId : String) {rest : String} (hrest : Plain rest.toList) :
    Plain ("Tunnel '" ++ clientId ++ rest).toList ↔ Plain clientId.toList := by
  have hopen : Plain "Tunnel '".toList := by
    rw [Framing.toList_lit rfl]
    decide
  rw [String.toList_append, String.toList_append, plain_append, plain_append]
  exact ⟨fun hp ↦ hp.1.2, fun hp ↦ ⟨⟨hopen, hp⟩, hrest⟩⟩

private theorem plain_intercalate {sep : String} (hsep : Plain sep.toList) (l : List String) :
    Plain (sep.intercalate l).toList ↔ ∀ t ∈ l, Plain t.toList := by
  induction l with
  | nil => simp [Plain]
  | cons t l ih =>
    cases l with
    | nil => rw [String.intercalate_singleton, List.forall_mem_singleton]
    | cons u l =>
      rw [String.intercalate_cons_cons, String.toList_append, String.toList_append, plain_append,
        plain_append, ih, List.forall_mem_cons (a := t)]
      exact ⟨fun hp ↦ ⟨hp.1.1, hp.2⟩, fun hp ↦ ⟨⟨hp.1, hsep⟩, hp.2⟩⟩

private theorem plain_available (domain : String) {ids : List String} (hne : ids ≠ []) :
    Plain ("Invalid subdomain. Available tunnels: " ++
        ", ".intercalate (ids.map fun id ↦ id ++ "." ++ domain)).toList ↔
      Plain domain.toList ∧ ∀ id ∈ ids, Plain id.toList := by
  have hopen : Plain "Invalid subdomain. Available tunnels: ".toList := by
    rw [Framing.toList_lit rfl]
    decide
  have hsep : Plain ", ".toList := by
    rw [Framing.toList_lit rfl]
    decide
  have hdot : Plain ".".toList := by
    rw [Framing.toList_lit rfl]
    decide
  have hid : ∀ id : String, Plain (id ++ "." ++ domain).toList ↔
      Plain domain.toList ∧ Plain id.toList := by
    intro id
    rw [String.toList_append, String.toList_append, plain_append, plain_append]
    exact ⟨fun hp ↦ ⟨hp.2, hp.1.1⟩, fun hp ↦ ⟨⟨hp.2, hdot⟩, hp.1⟩⟩
  obtain ⟨id, hmem⟩ := List.exists_mem_of_ne_nil ids hne
  rw [String.toList_append, plain_append, plain_intercalate hsep, List.forall_mem_map]
  simp only [hid]
  constructor
  · rintro ⟨-, hall⟩
    exact ⟨(hall id hmem).1, fun id hid ↦ (hall id hid).2⟩
  · rintro ⟨hdomain, hall⟩
    exact ⟨hopen, fun id hid ↦ ⟨hdomain, hall id hid⟩⟩

/-- **The rule for one answer.** -/
theorem plain_of_returns {status : ℕ} {msg : String}
    (hroute : ∀ x, q.phase.route = some x → extractRouting q.req config.domain = some x)
    (hret : Returns config s q a (.error status msg)) :
    Plain msg.toList ↔ ∀ text ∈ spliced config s q.req a, Plain text.toList := by
  have hfixed : ∀ {l : List Char}, Plain l → (Plain l ↔ ∀ text ∈ ([] : List String),
      Plain text.toList) := fun hl ↦ ⟨fun _ ↦ nofun, fun _ ↦ hl⟩
  have hnamed : ∀ {clientId path rest : String}, q.phase.route = some (clientId, path) →
      Plain rest.toList → (Plain ("Tunnel '" ++ clientId ++ rest).toList ↔
        ∀ text ∈ ((extractRouting q.req config.domain).map Prod.fst).toList,
          Plain text.toList) := by
    intro clientId path rest hphase hrest
    rw [plain_named clientId hrest, hroute _ hphase]
    exact (List.forall_mem_singleton (p := fun text : String ↦ Plain text.toList)).symm
  generalize hreply : Reply.error status msg = reply at hret
  cases hret with
  | dashboard | forwarded => cases hreply
  | limited | noHandshake | notBuilt =>
    obtain ⟨rfl, rfl⟩ := Reply.error.inj hreply
    refine hfixed ?_
    rw [Framing.toList_lit rfl]
    decide
  | offline _ hphase | notOpened _ hphase | notMarked _ hphase | silent _ hphase =>
    obtain ⟨rfl, rfl⟩ := Reply.error.inj hreply
    refine hnamed hphase ?_
    rw [Framing.toList_lit rfl]
    decide
  | unroutable _ hids =>
    rename_i ids
    rw [spliced]
    by_cases hnil : ids = []
    · obtain rfl := hnil
      obtain ⟨rfl, rfl⟩ := Reply.error.inj hreply
      rw [if_pos hids.nil_eq.symm]
      refine hfixed ?_
      rw [Framing.toList_lit rfl]
      decide
    · have hne : s.control.registry.ids ≠ [] := fun h ↦ hnil (h ▸ hids).eq_nil
      rw [hintReply, if_neg (by rwa [List.isEmpty_iff])] at hreply
      obtain ⟨rfl, rfl⟩ := Reply.error.inj hreply
      rw [if_neg hne, plain_available _ hnil, List.forall_mem_cons]
      exact and_congr_right fun _ ↦ forall_congr' fun _ ↦ imp_congr_left hids.mem_iff

/-- A step of the server in which a request gets its answer. -/
structure Answered (serde : SerdeJson) (config : ServerConfig) (r : ReqId) (req : HttpRequest)
    (reply : Reply) (s : State) (a : Act) (t : State) (es : List Event) : Prop where
  step : step serde config s a = some (t, es)
  waiting : ∃ phase, s.requests r = some ⟨req, phase⟩ ∧ phase ≠ .answered reply
  answered : t.requests r = some ⟨req, .answered reply⟩

/-- **An error is JSON if, and only if, what it takes from elsewhere is plain.** Every error that a
request has for its answer was given in one step of the run. Its body says the status and the
message exactly when the id in the `Host` header, or all ids and the domain, needed no escapes. -/
theorem error_body_iff (hr : (machine serde config routes).Reach h s) {req : HttpRequest}
    {status : ℕ} {msg : String} (hs : s.requests r = some ⟨req, .answered (.error status msg)⟩) :
    ∃ h₁ v a w es h₂, (machine serde config routes).Reach h₁ v ∧
      Answered serde config r req (.error status msg) v a w es ∧
      (machine serde config routes).Steps w h₂ s ∧ h = h₁ ++ es ++ h₂ ∧
      (IsErrorBody (errorResponse status msg) msg ↔
        ∀ text ∈ spliced config v req a, Plain text.toList) := by
  obtain ⟨h₁, v, a, w, es, h₂, hv, hstep, hnot, hw, hws, rfl⟩ := Machine.Steps.exists_step
    (p := fun u ↦ u.requests r = some ⟨req, .answered (.error status msg)⟩) hr nofun hs
  cases hq : v.requests r with
  | none =>
    -- a request that has just arrived has no answer yet
    rcases arrived_of_step hstep hq hw with ⟨-, hphase, -⟩ | ⟨-, hphase, -⟩
    · cases hphase
    · generalize extractRouting _ _ = x at hphase
      cases x <;> cases hphase
  | some q =>
    obtain ⟨q', hq', hreq, -⟩ := request_of_step hstep hq
    obtain rfl := Option.some.inj (hw.symm.trans hq')
    obtain rfl : req = q.req := hreq
    have hne : q.phase ≠ .answered (.error status msg) := fun heq ↦ hnot (by rw [hq, ← heq])
    have hroute := ((Delivery.of_reach hv).request r q hq).route
    refine ⟨h₁, v, a, w, es, h₂, hv, ⟨hstep, ⟨_, hq, hne⟩, hw⟩, hws, rfl, ?_⟩
    rw [isErrorBody_iff]
    exact plain_of_returns (fun x hx ↦ (hroute x hx).2) (returns_of_step hstep hq hne hw)

/-- A request to a host that nobody has registered. -/
def offlineSegments (v : HeaderValue) : List Act :=
  [.arrive 0 (hostRequest v), .limit 0 0, .lookup 0]

/-- The error for a host that nobody has registered. -/
theorem error_body_iff_offline : ∃ h s,
    (machine compactSerde Control.sampleConfig fun _ ↦ none).run
      (start Control.sampleConfig fun _ ↦ none) (offlineSegments appHost) = some (s, h) ∧
    ∃ h₁ v a w es h₂, (machine compactSerde Control.sampleConfig fun _ ↦ none).Reach h₁ v ∧
      Answered compactSerde Control.sampleConfig 0 (hostRequest appHost)
        (.error 502 "Tunnel 'app' not found or offline") v a w es ∧
      (machine compactSerde Control.sampleConfig fun _ ↦ none).Steps w h₂ s ∧ h = h₁ ++ es ++ h₂ ∧
      (IsErrorBody (errorResponse 502 "Tunnel 'app' not found or offline")
          "Tunnel 'app' not found or offline" ↔
        ∀ text ∈ spliced Control.sampleConfig v (hostRequest appHost) a, Plain text.toList) := by
  have hrun : ((machine compactSerde Control.sampleConfig fun _ ↦ none).run
      (start Control.sampleConfig fun _ ↦ none) (offlineSegments appHost)).map
      (fun p ↦ p.1.requests 0) = some (some ⟨hostRequest appHost,
        .answered (.error 502 "Tunnel 'app' not found or offline")⟩) := by decide +kernel
  obtain ⟨⟨s, h⟩, hsh, hs⟩ := Option.map_eq_some_iff.mp hrun
  exact ⟨h, s, hsh, error_body_iff (.of_run hsh) hs⟩

/-- The host `a"b.d.io`. -/
def quotedHost : HeaderValue := ⟨[97, 34, 98, 46, 100, 46, 105, 111], by decide +kernel⟩

/-- **Not every error is JSON**: a header value may have a quote in it. -/
theorem offline_not_json : ¬∀ h s r req status msg,
    (machine compactSerde Control.sampleConfig fun _ ↦ none).Reach h s →
    s.requests r = some ⟨req, .answered (.error status msg)⟩ →
    IsErrorBody (errorResponse status msg) msg := by
  intro hall
  have hrun : ((machine compactSerde Control.sampleConfig fun _ ↦ none).run
      (start Control.sampleConfig fun _ ↦ none) (offlineSegments quotedHost)).map
      (fun p ↦ p.1.requests 0) = some (some ⟨hostRequest quotedHost,
        .answered (.error 502 "Tunnel 'a\"b' not found or offline")⟩) := by decide +kernel
  obtain ⟨⟨s, h⟩, hsh, hs⟩ := Option.map_eq_some_iff.mp hrun
  have hjson := (isErrorBody_iff _ _).mp (hall h s 0 _ _ _ (.of_run hsh) hs)
  rw [Framing.toList_lit rfl] at hjson
  exact absurd hjson (by decide)

end Proxy

end ZoTunnel
