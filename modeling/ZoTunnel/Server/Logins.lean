import ZoTunnel.Server.Cookies

/-!
# What an answer of the dashboard goes back to

A browser learns two things from the answers to its requests: whether it is let in, and which
session it has. Being let in goes back to a login with the token of the dashboard, the request
itself or the one that made its session. A session that is set is one that was made for this very
request.
-/

namespace ZoTunnel

namespace Dashboard

/-- This answer lets in whoever has made the request. -/
def Reply.admits (e : Endpoint) (reply : Reply) : Bool :=
  e != .logout &&
    match reply with
    | login _ _ success _ => success
    | authCheck authenticated authRequired _ => authenticated || !authRequired
    | status _ | clients _ | metrics _ => true
    | rejected | unauthorized => false

/-- The `Set-Cookie` header of an answer. -/
def Reply.cookie : Reply → Option String
  | login _ setCookie _ _ => setCookie
  | rejected | authCheck .. | unauthorized | status _ | clients _ | metrics _ => none

theorem Reply.admits_of_isData {e : Endpoint} {reply : Reply} (he : e.guarded = true)
    (h : reply.isData = true) : reply.admits e = true := by
  have hne : (e != .logout) = true := by
    cases e with
    | status | clients | metrics => rfl
    | login | logout | authCheck => cases he
  cases reply with
  | status | clients | metrics => exact Bool.and_eq_true_iff.mpr ⟨hne, rfl⟩
  | rejected | login | authCheck | unauthorized => cases h

variable {st : DashboardState} {h : List Event} {s t : State} {a : Act} {es : List Event}
  {r : ReqId} {q q' : Request} {reply : Reply} {setCookie sessionId : String}

/-! ## Requests and their answers -/

/-- A request keeps its place, and an answer in it has been given. -/
structure Answers (h : List Event) (s : State) : Prop where
  known : ∀ r q, .arrived r q ∈ h → ∃ p, s.requests r = some (q, p)
  replied : ∀ r q reply, s.requests r = some (q, .answered reply) → .replied r q reply ∈ h

namespace Answers

private theorem setPhase (hi : Answers h s) {p p' : Phase} {s₀ : State}
    (hrequests : s₀.requests = s.requests) (hr : s.requests r = some (q, p))
    (harrived : ∀ r' q', .arrived r' q' ∉ es)
    (hreply : ∀ reply, p' = .answered reply → .replied r q reply ∈ es) :
    Answers (h ++ es) (s₀.setPhase r q p') := by
  refine ⟨fun r' q' hmem ↦ ?_, fun r' q' reply hr' ↦ ?_⟩
  · obtain ⟨p₀, hp₀⟩ :=
      hi.known r' q' ((List.mem_append.mp hmem).resolve_right (harrived r' q'))
    rw [setPhase_requests, hrequests]
    by_cases hrr : r' = r
    · rw [hrr, hr, Option.some.injEq, Prod.mk.injEq] at hp₀
      exact ⟨p', by rw [if_pos hrr, hp₀.1]⟩
    · exact ⟨p₀, by rw [if_neg hrr, hp₀]⟩
  · rw [setPhase_requests, hrequests] at hr'
    split at hr'
    · rename_i hrr
      obtain ⟨rfl, hp'⟩ := Prod.mk.inj (Option.some.inj hr')
      exact List.mem_append_right _ (hrr ▸ hreply reply hp')
    · exact List.mem_append_left _ (hi.replied r' q' reply hr')

theorem step (hi : Answers h s) (hstep : Dashboard.step st s a = some (t, es)) :
    Answers (h ++ es) t := by
  cases step_transition hstep with
  | elapse d =>
    rw [List.append_nil]
    exact ⟨hi.known, hi.replied⟩
  | @arrive r q hr =>
    refine ⟨fun r' q' hmem ↦ ?_, fun r' q' reply hr' ↦ ?_⟩
    · rw [setPhase_requests]
      rcases List.mem_append.mp hmem with hmem | hmem
      · obtain ⟨p, hp⟩ := hi.known r' q' hmem
        rw [if_neg (by rintro rfl; rw [hr] at hp; cases hp)]
        exact ⟨p, hp⟩
      · rw [List.mem_singleton, Event.arrived.injEq] at hmem
        exact ⟨.arrived, by rw [if_pos hmem.1, hmem.2]⟩
    · rw [setPhase_requests] at hr'
      split at hr'
      · cases hr'
      · exact List.mem_append_left _ (hi.replied r' q' reply hr')
  | @authenticate r q hr =>
    refine setPhase hi rfl hr (by simp) fun reply hp ↦ ?_
    -- `is_authenticated` gives no answer.
    rw [isAuthenticated] at hp
    split at hp
    · cases hp
    · split at hp
      · cases hp
      · split at hp <;> cases hp
  | remove hr => exact setPhase hi rfl hr (by simp) fun reply hp ↦ by cases hp
  | create hr | logout hr | reply hr =>
    refine setPhase hi rfl hr (by simp) fun reply hp ↦ ?_
    obtain rfl := Phase.answered.inj hp
    simp

theorem of_reach (hr : (machine st).Reach h s) : Answers h s :=
  hr.invariant (P := Answers) ⟨fun r q hmem ↦ (by cases hmem), fun r q reply hr ↦ (by cases hr)⟩
    fun _ _ _ _ _ _ hi hstep ↦ hi.step hstep

theorem unique (hi : Answers h s) (hmem : .arrived r q ∈ h) (hmem' : .arrived r q' ∈ h) :
    q = q' := by
  obtain ⟨p, hp⟩ := hi.known r q hmem
  obtain ⟨p', hp'⟩ := hi.known r q' hmem'
  rw [hp, Option.some.injEq, Prod.mk.injEq] at hp'
  exact hp'.1

end Answers

/-! ## Being let in -/

theorem admits_plainReply {ok : Bool} {view : View} (henabled : st.authEnabled = true)
    (hadm : (plainReply st q ok view).admits q.endpoint = true) :
    ok = true ∧ asks st q.endpoint = true := by
  rw [plainReply] at hadm
  cases hq : q.endpoint with
  | login token =>
    cases token <;> cases ok <;> simp_all [Reply.admits, asks]
  | logout => simp_all [Reply.admits]
  | authCheck | status | clients | metrics => cases ok <;> simp_all [Reply.admits, asks]

/-- **Who is let in.** Whoever is let in has presented the token of the dashboard in this request,
or a session that was accepted when the handler asked. -/
theorem admitted_of_replied (henabled : st.authEnabled = true) (htoken : st.dashboardToken ≠ "")
    (hr : (machine st).Reach h s) (hmem : .replied r q reply ∈ h)
    (hadm : reply.admits q.endpoint = true) :
    q.endpoint = .login (some st.dashboardToken) ∨
      ∃ h₁ now h₂ sessionId, h = h₁ ++ .checked r q now true :: h₂ ∧
        extractSessionId q.headers = some sessionId ∧ Accepted st h₁ sessionId now := by
  obtain ⟨h₁, h₂, rfl⟩ := List.append_of_mem hmem
  obtain ⟨h₀, v, a, w, es₁, es₂, h', hv, hstep, -, rfl, rfl⟩ := Machine.Steps.split hr
  have hmem' : .replied r q reply ∈ es₁ ++ .replied r q reply :: es₂ :=
    List.mem_append_right _ List.mem_cons_self
  generalize hes : es₁ ++ .replied r q reply :: es₂ = es at hstep hmem'
  cases step_transition hstep with
  | @create r' q' _ token _ _ hq hlogin hcheck =>
    simp only [List.mem_cons, Event.replied.injEq, reduceCtorEq, List.not_mem_nil, or_false,
      false_or] at hmem'
    left
    rw [hmem'.2.1, hlogin, (checkToken_iff htoken).mp hcheck]
  | @logout _ q' _ _ _ _ _ _ hlogout =>
    simp only [List.mem_cons, Event.replied.injEq, reduceCtorEq, List.not_mem_nil, or_false,
      false_or] at hmem'
    rw [hmem'.2.1, hlogout] at hadm
    cases hadm
  | @reply r' q' p _ view ok hq hp =>
    rw [List.mem_singleton, Event.replied.injEq] at hmem'
    obtain ⟨rfl, rfl, rfl⟩ := hmem'
    obtain ⟨rfl, hasks⟩ := admits_plainReply henabled hadm
    rcases hp with rfl | ⟨-, hnot⟩
    · obtain ⟨now, hchecked⟩ := ((Sessions.of_reach hv).request r q _ hq).decided true rfl
      obtain ⟨l₁, l₂, rfl⟩ := List.append_of_mem hchecked
      have hsplit : l₁ ++ .checked r q now true :: l₂ ++ es₁ ++
          .replied r q (plainReply st q true view) :: (es₂ ++ h') =
          l₁ ++ .checked r q now true ::
            (l₂ ++ es₁ ++ .replied r q (plainReply st q true view) :: (es₂ ++ h')) := by
        simp only [List.append_assoc, List.cons_append]
      rw [hsplit] at hr ⊢
      obtain ⟨sessionId, hid, hacc⟩ := (accepted_of_checked henabled htoken hr).mp rfl
      exact .inr ⟨l₁, now, _, sessionId, rfl, hid, hacc⟩
    · rw [hasks] at hnot
      cases hnot
  | elapse | arrive | authenticate | remove => simp at hmem'

/-- What an endpoint answers. -/
def Endpoint.answers : Endpoint → Reply → Bool
  | login (some _), .login .. | authCheck, .authCheck .. => true
  | login (some _), _ | authCheck, _ => false
  | login none, _ | logout, _ | status, _ | clients, _ | metrics, _ => true

theorem answers_of_replied (hr : (machine st).Reach h s) (hmem : .replied r q reply ∈ h) :
    q.endpoint.answers reply = true := by
  obtain ⟨h₁, h₂, rfl⟩ := List.append_of_mem hmem
  obtain ⟨h₀, v, a, w, es₁, es₂, h', hv, hstep, -, rfl, rfl⟩ := Machine.Steps.split hr
  have hmem' : .replied r q reply ∈ es₁ ++ .replied r q reply :: es₂ :=
    List.mem_append_right _ List.mem_cons_self
  generalize es₁ ++ .replied r q reply :: es₂ = es at hstep hmem'
  cases step_transition hstep with
  | create _ hlogin =>
    simp only [List.mem_cons, Event.replied.injEq, reduceCtorEq, List.not_mem_nil, or_false,
      false_or] at hmem'
    obtain ⟨rfl, rfl, rfl⟩ := hmem'
    rw [hlogin]
    rfl
  | logout _ hlogout =>
    simp only [List.mem_cons, Event.replied.injEq, reduceCtorEq, List.not_mem_nil, or_false,
      false_or] at hmem'
    rw [hmem'.2.1, hlogout]
    rfl
  | @reply _ _ _ _ _ ok =>
    rw [List.mem_singleton, Event.replied.injEq] at hmem'
    obtain ⟨rfl, rfl, rfl⟩ := hmem'
    rw [plainReply]
    cases hq : q.endpoint with
    | login token =>
      cases token <;> cases ok <;> cases he : st.authEnabled <;> rfl
    | logout | authCheck | status | clients | metrics => rfl
  | elapse | arrive | authenticate | remove => simp at hmem'

/-! ## Sessions that are set -/

private theorem cookie_plainReply {ok : Bool} {view : View}
    (hcookie : (plainReply st q ok view).cookie = some setCookie) :
    setCookie = buildClearCookie := by
  rw [plainReply] at hcookie
  cases hq : q.endpoint with
  | login token =>
    cases token <;> cases ok <;> cases he : st.authEnabled <;> simp_all [Reply.cookie]
  | logout => simp_all [Reply.cookie]
  | authCheck | status | clients | metrics => cases ok <;> simp_all [Reply.cookie]

private theorem cookie_of_respond {ok : Bool} {uuid : String} {view : View} {r' : ReqId}
    (hstep : respond st s r' q' ok uuid view = some (t, es)) (hmem : .replied r q reply ∈ es)
    (hcookie : reply.cookie = some setCookie) :
    setCookie = buildClearCookie ∨ (∃ tls, setCookie = buildSessionCookie uuid st.ttlSecs tls) ∧
      .issued r uuid s.clock ∈ es := by
  rw [respond] at hstep
  split at hstep
  · split at hstep
    · cases hstep
    · obtain ⟨-, rfl⟩ := Prod.mk.inj (Option.some.inj hstep)
      simp only [List.mem_cons, Event.replied.injEq, reduceCtorEq, List.not_mem_nil, or_false,
        false_or] at hmem
      obtain ⟨rfl, rfl, rfl⟩ := hmem
      exact .inr ⟨⟨_, (Option.some.inj hcookie).symm⟩, List.mem_cons_self⟩
  · have hplain : reply = plainReply st q' ok view := by
      split at hstep
      · split at hstep <;>
        · obtain ⟨-, rfl⟩ := Prod.mk.inj (Option.some.inj hstep)
          simp only [List.mem_cons, Event.replied.injEq, reduceCtorEq, List.not_mem_nil, or_false,
            false_or] at hmem
          exact hmem.2.2
      · obtain ⟨-, rfl⟩ := Prod.mk.inj (Option.some.inj hstep)
        rw [List.mem_singleton, Event.replied.injEq] at hmem
        exact hmem.2.2
    exact .inl (cookie_plainReply (hplain ▸ hcookie))

/-- **Who gets a session.** A cookie that is set clears the session, or is the one of a session that
was made for this request. -/
theorem cookie_of_replied (hr : (machine st).Reach h s) (hmem : .replied r q reply ∈ h)
    (hcookie : reply.cookie = some setCookie) :
    setCookie = buildClearCookie ∨ ∃ sessionId tls now,
      setCookie = buildSessionCookie sessionId st.ttlSecs tls ∧ .issued r sessionId now ∈ h := by
  obtain ⟨h₁, h₂, rfl⟩ := List.append_of_mem hmem
  obtain ⟨h₀, v, a, w, es₁, es₂, h', hv, hstep, -, rfl, rfl⟩ := Machine.Steps.split hr
  have hmem' : .replied r q reply ∈ es₁ ++ .replied r q reply :: es₂ :=
    List.mem_append_right _ List.mem_cons_self
  have hin : ∀ {e}, e ∈ es₁ ++ .replied r q reply :: es₂ →
      e ∈ h₀ ++ es₁ ++ .replied r q reply :: (es₂ ++ h') := by
    intro e he
    simp only [List.mem_append, List.mem_cons] at he ⊢
    tauto
  generalize es₁ ++ .replied r q reply :: es₂ = es at hstep hmem' hin
  have hstep : step st v a = some (w, es) := hstep
  cases a with
  | respond r' uuid view =>
    simp only [step] at hstep
    split at hstep
    · split at hstep
      · cases hstep
      · obtain hclear | ⟨⟨tls, hbuild⟩, hissued⟩ := cookie_of_respond hstep hmem' hcookie
        · exact .inl hclear
        · exact .inr ⟨uuid, tls, _, hbuild, hin hissued⟩
    · obtain hclear | ⟨⟨tls, hbuild⟩, hissued⟩ := cookie_of_respond hstep hmem' hcookie
      · exact .inl hclear
      · exact .inr ⟨uuid, tls, _, hbuild, hin hissued⟩
    · cases hstep
  | elapse | arrive | authenticate | remove =>
    cases step_transition hstep
    simp at hmem'

/-! ## What a browser makes of it -/

/-- The session that a browser has after an answer. -/
def keep (jar : Option String) (reply : Reply) : Option String :=
  match reply.cookie with
  | none => jar
  | some setCookie => sessionValue (sentPair setCookie)

theorem keep_clear : sessionValue (sentPair buildClearCookie) = none := by
  decide +kernel

theorem keep_session (hid : ';' ∉ sessionId.toList) {maxAgeSecs : UInt64} {tls : Bool}
    {value : String}
    (h : sessionValue (sentPair (buildSessionCookie sessionId maxAgeSecs tls)) = some value) :
    value = sessionId := by
  rw [sentPair_buildSessionCookie hid] at h
  have hpart := (sessionValue_eq_some.mp h).1
  rw [String.append_right_inj] at hpart
  exact hpart.symm

/-- The headers name no other session than the one that the browser has. -/
def carries (jar : Option String) (headers : List (String × HeaderValue)) : Bool :=
  match (headers.lookup "cookie").bind HeaderValue.toStr with
  | none => true
  | some cookieHeader => (cookieParts cookieHeader).all fun part ↦
      match sessionValue part with
      | none => true
      | some value => jar == some value

theorem mem_of_sessionIdOf {parts : List String} (h : sessionIdOf parts = some sessionId) :
    ∃ part ∈ parts, sessionValue (trim part) = some sessionId := by
  induction parts with
  | nil => cases h
  | cons part parts ih =>
    rcases sessionIdOf_cons part parts with ⟨-, hloop⟩ | ⟨-, hloop⟩
    · rw [hloop] at h
      cases h
    · rw [hloop] at h
      rcases Option.or_eq_some_iff.mp h with hvalue | ⟨-, hrest⟩
      · exact ⟨part, List.mem_cons_self, hvalue⟩
      · obtain ⟨part', hmem, hvalue⟩ := ih hrest
        exact ⟨part', List.mem_cons_of_mem _ hmem, hvalue⟩

/-- The session that the server finds in a request is the one of the browser. -/
theorem eq_of_carries {jar : Option String} {headers : List (String × HeaderValue)}
    (hjar : carries jar headers = true) (hid : extractSessionId headers = some sessionId) :
    jar = some sessionId := by
  rw [carries] at hjar
  rw [extractSessionId] at hid
  split at hid
  · cases hid
  · rename_i cookieHeader htext
    rw [htext] at hjar
    obtain ⟨part, hpart, hvalue⟩ := mem_of_sessionIdOf hid
    have hone := List.all_eq_true.mp hjar (trim part) (List.mem_map_of_mem hpart)
    rw [hvalue] at hone
    exact eq_of_beq hone

end Dashboard

end ZoTunnel
