import ZoTunnel.Server.Logins
import ZoTunnel.Web.PageData

/-!
# The dashboard in its browsers

One dashboard, any number of browsers with any number of pages in each, and whatever else sends
requests to the dashboard. A browser has one session at most: the one of the last `Set-Cookie`
header that has come to one of its pages. It sends this session with the requests of its pages, or
none, if it has lost it or the cookie is not for this connection; the other headers are anything.

The answers come in any order or not at all, and to a page that has changed in the meantime. Others
send what they like. What is assumed is that no other page of a browser sets the cookie of the
dashboard, and that a session id, being a UUID, has no semicolon.
-/

namespace ZoTunnel

namespace Browser

open Dashboard (ReqId DashboardState Endpoint Reply ClientInfo StatusResponse MetricsSnapshot)
open DashboardPage (FetchId Response Await)

abbrev BrowserId := ℕ
abbrev PageId := ℕ

structure State where
  server : Dashboard.State
  jars : BrowserId → Option String
  /-- The pages, each with its browser. -/
  pages : PageId → Option (BrowserId × DashboardPage.State)
  /-- The requests of a page that have not been sent yet. -/
  made : PageId → FetchId → Option Endpoint
  /-- The requests of pages whose answers have not come yet. -/
  flying : ReqId → Option (PageId × FetchId)

inductive Act
  | load (b : BrowserId) (p : PageId)
  /-- Something happens to a page that is no answer. -/
  | page (p : PageId) (a : DashboardPage.Act)
  | send (p : PageId) (f : FetchId) (r : ReqId) (headers : List (String × HeaderValue))
  /-- The headers of an answer come, and its body too if it comes `whole`. -/
  | deliver (r : ReqId) (whole : Bool)
  /-- A request of a page fails, or something between the page and the server answers it. -/
  | fail (p : PageId) (f : FetchId) (r : Response)
  | forget (b : BrowserId)
  /-- A step of the server. A request that arrives in it is not one of a page. -/
  | server (a : Dashboard.Act)

inductive Event
  | submitted (b : BrowserId) (p : PageId) (token : String)
  | sent (b : BrowserId) (p : PageId) (f : FetchId) (r : ReqId) (q : Dashboard.Request)
  | server (e : Dashboard.Event)
  deriving DecidableEq

/-- The requests of a page after a step of it. -/
def post (made : FetchId → Option Endpoint) (es : List DashboardPage.Event) (f : FetchId) :
    Option Endpoint :=
  (es.findSome? fun
    | .fetch f' e => if f' = f then some e else none
    | .unauthorized _ => none).or (made f)

/-- A page has made a step. -/
def State.setPage (s : State) (p : PageId) (b : BrowserId) (page : DashboardPage.State)
    (es : List DashboardPage.Event) : State :=
  { s with
    pages := Function.update s.pages p (some (b, page))
    made := Function.update s.made p (post (s.made p) es) }

/-- An answer comes to a page. If the page does not wait for it, nothing happens. -/
def State.settle (s : State) (p : PageId) (f : FetchId) (r : Response) : State :=
  match s.pages p with
  | none => s
  | some (b, page) =>
    match DashboardPage.step page (.settle f r) with
    | none => s
    | some (page, es) => s.setPage p b page es

/-- What happens to a page without an answer. -/
def isOwn : DashboardPage.Act → Bool
  | .submit _ | .logout | .tick _ => true
  | .settle .. => false

def submissions (b : BrowserId) (p : PageId) : DashboardPage.Act → List Event
  | .submit token => [.submitted b p token]
  | .logout | .tick _ | .settle .. => []

/-- Session ids are generated. -/
def generates : Dashboard.Act → Bool
  | .respond _ uuid _ => ';' ∉ uuid.toList
  | .elapse _ | .arrive .. | .authenticate _ | .remove _ => true

variable (st : DashboardState)

def step (s : State) : Act → Option (State × List Event)
  | .load b p =>
    match s.pages p with
    | some _ => none
    | none => some (s.setPage p b DashboardPage.load.1 DashboardPage.load.2, [])
  | .page p a =>
    if isOwn a then
      match s.pages p with
      | none => none
      | some (b, page) =>
        match DashboardPage.step page a with
        | none => none
        | some (page, es) => some (s.setPage p b page es, submissions b p a)
    else none
  | .send p f r headers =>
    match s.pages p, s.made p f with
    | some (b, _), some e =>
      if Dashboard.carries (s.jars b) headers then
        match Dashboard.step st s.server (.arrive r ⟨headers, e⟩) with
        | none => none
        | some (server, es) =>
          some ({ s with
            server
            made := Function.update s.made p (Function.update (s.made p) f none)
            flying := Function.update s.flying r (some (p, f)) },
            .sent b p f r ⟨headers, e⟩ :: es.map .server)
      else none
    | _, _ => none
  | .deliver r whole =>
    match s.flying r, s.server.requests r with
    | some (p, f), some (_, .answered reply) =>
      match s.pages p with
      | none => none
      | some (b, _) =>
        let s := { s with
          jars := Function.update s.jars b (Dashboard.keep (s.jars b) reply)
          flying := Function.update s.flying r none }
        some (s.settle p f (if whole then .answer reply else .failed), [])
    | _, _ => none
  | .fail p f r =>
    match r with
    | .answer _ => none
    | .failed | .foreign _ => some (s.settle p f r, [])
  | .forget b => some ({ s with jars := Function.update s.jars b none }, [])
  | .server a =>
    if generates a then
      match Dashboard.step st s.server a with
      | none => none
      | some (server, es) => some ({ s with server }, es.map .server)
    else none

def start : State where
  server := Dashboard.start st
  jars _ := none
  pages _ := none
  made _ _ := none
  flying _ := none

def machine : Machine State Act Event where
  init := start st
  step := step st

/-! ## What a step can do -/

/-- What a step can do. -/
inductive Transition (s : State) : Act → State → List Event → Prop
  | load {b : BrowserId} {p : PageId} (hp : s.pages p = none) :
      Transition s (.load b p) (s.setPage p b DashboardPage.load.1 DashboardPage.load.2) []
  | page {b : BrowserId} {p : PageId} {a : DashboardPage.Act} {page page' : DashboardPage.State}
      {es : List DashboardPage.Event} (ha : isOwn a = true) (hp : s.pages p = some (b, page))
      (hstep : DashboardPage.step page a = some (page', es)) :
      Transition s (.page p a) (s.setPage p b page' es) (submissions b p a)
  | send {b : BrowserId} {p : PageId} {f : FetchId} {r : ReqId}
      {headers : List (String × HeaderValue)} {page : DashboardPage.State} {e : Endpoint}
      {server : Dashboard.State} {es : List Dashboard.Event} (hp : s.pages p = some (b, page))
      (hf : s.made p f = some e) (hjar : Dashboard.carries (s.jars b) headers = true)
      (hstep : Dashboard.step st s.server (.arrive r ⟨headers, e⟩) = some (server, es)) :
      Transition s (.send p f r headers)
        { s with
          server
          made := Function.update s.made p (Function.update (s.made p) f none)
          flying := Function.update s.flying r (some (p, f)) }
        (.sent b p f r ⟨headers, e⟩ :: es.map .server)
  | deliver {b : BrowserId} {p : PageId} {f : FetchId} {r : ReqId} {whole : Bool}
      {q : Dashboard.Request} {reply : Reply} {page : DashboardPage.State}
      (hr : s.flying r = some (p, f)) (hq : s.server.requests r = some (q, .answered reply))
      (hp : s.pages p = some (b, page)) :
      Transition s (.deliver r whole)
        (State.settle { s with
          jars := Function.update s.jars b (Dashboard.keep (s.jars b) reply)
          flying := Function.update s.flying r none } p f
          (if whole then .answer reply else .failed)) []
  | fail {p : PageId} {f : FetchId} {r : Response} (hr : ∀ reply, r ≠ .answer reply) :
      Transition s (.fail p f r) (s.settle p f r) []
  | forget (b : BrowserId) :
      Transition s (.forget b) { s with jars := Function.update s.jars b none } []
  | server {a : Dashboard.Act} {server : Dashboard.State} {es : List Dashboard.Event}
      (ha : generates a = true) (hstep : Dashboard.step st s.server a = some (server, es)) :
      Transition s (.server a) { s with server } (es.map .server)

variable {st} {h h' : List Event} {s t : State} {a : Act} {es : List Event} {b : BrowserId}
  {p : PageId} {f : FetchId} {r : ReqId} {q : Dashboard.Request} {reply : Reply}
  {page page' : DashboardPage.State} {e : Endpoint} {sessionId : String}

/-- **Inversion.** Every step is one of the transitions. -/
theorem step_transition (hstep : step st s a = some (t, es)) : Transition st s a t es := by
  cases a with
  | load b p =>
    simp only [step] at hstep
    split at hstep
    · cases hstep
    · rename_i hp
      obtain ⟨rfl, rfl⟩ := Prod.mk.inj (Option.some.inj hstep)
      exact .load hp
  | page p a =>
    simp only [step] at hstep
    split at hstep
    · rename_i ha
      split at hstep
      · cases hstep
      · rename_i hp
        split at hstep
        · cases hstep
        · rename_i hpage
          obtain ⟨rfl, rfl⟩ := Prod.mk.inj (Option.some.inj hstep)
          exact .page ha hp hpage
    · cases hstep
  | send p f r headers =>
    simp only [step] at hstep
    split at hstep
    · rename_i hp hf
      split at hstep
      · rename_i hjar
        split at hstep
        · cases hstep
        · rename_i hserver
          obtain ⟨rfl, rfl⟩ := Prod.mk.inj (Option.some.inj hstep)
          exact .send hp hf hjar hserver
      · cases hstep
    · cases hstep
  | deliver r whole =>
    simp only [step] at hstep
    split at hstep
    · rename_i hr hq
      split at hstep
      · cases hstep
      · rename_i hp
        obtain ⟨rfl, rfl⟩ := Prod.mk.inj (Option.some.inj hstep)
        exact .deliver hr hq hp
    · cases hstep
  | fail p f r =>
    cases r with
    | answer reply => cases hstep
    | failed | foreign status =>
      obtain ⟨rfl, rfl⟩ := Prod.mk.inj (Option.some.inj hstep)
      exact .fail fun reply h ↦ by cases h
  | forget b =>
    obtain ⟨rfl, rfl⟩ := Prod.mk.inj (Option.some.inj hstep)
    exact .forget b
  | server a =>
    simp only [step] at hstep
    split at hstep
    · rename_i ha
      split at hstep
      · cases hstep
      · rename_i hserver
        obtain ⟨rfl, rfl⟩ := Prod.mk.inj (Option.some.inj hstep)
        exact .server ha hserver
    · cases hstep

theorem settle_cases (s : State) (p : PageId) (f : FetchId) (r : Response) :
    s.settle p f r = s ∨ ∃ b page page' es, s.pages p = some (b, page) ∧
      DashboardPage.step page (.settle f r) = some (page', es) ∧
      s.settle p f r = s.setPage p b page' es := by
  rw [State.settle]
  split
  · exact .inl rfl
  · rename_i b page hp
    split
    · exact .inl rfl
    · rename_i page' es hstep
      exact .inr ⟨b, page, page', es, hp, hstep, rfl⟩

/-! ## The server in it -/

/-- What of a history is the server's. -/
def serverEvents (h : List Event) : List Dashboard.Event :=
  h.flatMap fun | .server e => [e] | .submitted .. | .sent .. => []

@[simp] theorem serverEvents_map (es : List Dashboard.Event) :
    serverEvents (es.map .server) = es := by
  rw [serverEvents, List.flatMap_map]
  exact List.flatMap_singleton' es

theorem mem_serverEvents {e : Dashboard.Event} : e ∈ serverEvents h ↔ .server e ∈ h := by
  rw [serverEvents, List.mem_flatMap]
  constructor
  · rintro ⟨e', hmem, he⟩
    cases e' with
    | server e' => exact List.mem_singleton.mp he ▸ hmem
    | submitted | sent => cases he
  · exact fun hmem ↦ ⟨_, hmem, List.mem_singleton_self _⟩

theorem settle_server (s : State) (p : PageId) (f : FetchId) (r : Response) :
    (s.settle p f r).server = s.server := by
  rcases settle_cases s p f r with heq | ⟨b, page, page', es, -, -, heq⟩ <;> rw [heq]
  rfl

/-- **Projection.** Seen from the server, a run is one of its own runs. -/
theorem server_reach (hr : (machine st).Reach h s) :
    (Dashboard.machine st).Reach (serverEvents h) s.server := by
  refine Machine.Steps.project State.server _ (fun s a t es hstep ↦ ?_) hr
  have hsame : ∀ {t : State}, t.server = s.server →
      (Dashboard.machine st).Steps s.server [] t.server := fun heq ↦ heq ▸ .refl _
  have hmove : ∀ {b : Dashboard.Act} {server : Dashboard.State} {es : List Dashboard.Event},
      Dashboard.step st s.server b = some (server, es) →
      (Dashboard.machine st).Steps s.server (serverEvents (es.map .server)) server := by
    intro b server es hs
    rw [serverEvents_map]
    exact .single hs
  cases step_transition hstep with
  | load | forget => exact hsame rfl
  | @page _ _ a =>
    cases a with
    | submit | logout | tick | settle => exact hsame rfl
  | send _ _ _ hs => exact hmove hs
  | deliver | fail => exact hsame (settle_server _ _ _ _)
  | server _ hs => exact hmove hs

/-! ## Sessions and requests -/

/-- A session was made for a request of this browser. -/
def Owns (h : List Event) (b : BrowserId) (sessionId : String) : Prop :=
  ∃ p f r q now, .sent b p f r q ∈ h ∧ .server (.issued r sessionId now) ∈ h

/-- A token was submitted on a page. -/
def Submitted (h : List Event) (b : BrowserId) (p : PageId) (token : String) : Prop :=
  ∃ raw, .submitted b p raw ∈ h ∧ DashboardPage.trim raw = token

theorem Owns.append (ho : Owns h b sessionId) (h' : List Event) : Owns (h ++ h') b sessionId := by
  obtain ⟨p, f, r, q, now, hsent, hissued⟩ := ho
  exact ⟨p, f, r, q, now, List.mem_append_left _ hsent, List.mem_append_left _ hissued⟩

theorem Submitted.append {token : String} (hs : Submitted h b p token) (h' : List Event) :
    Submitted (h ++ h') b p token := by
  obtain ⟨raw, hmem, heq⟩ := hs
  exact ⟨raw, List.mem_append_left _ hmem, heq⟩

/-- What the browsers and their requests have behind them. -/
structure Requests (h : List Event) (s : State) : Prop where
  jar : ∀ b sessionId, s.jars b = some sessionId → Owns h b sessionId
  /-- A page waits for what it has asked for. -/
  made : ∀ p f e, s.made p f = some e → ∃ b page, s.pages p = some (b, page) ∧
    f < page.nextFetch ∧ (∀ w, page.fetches f = some w → w.asks e = true) ∧
    ∀ token, e = .login (some token) → Submitted h b p token
  flying : ∀ r p f, s.flying r = some (p, f) → ∃ b page q, s.pages p = some (b, page) ∧
    .sent b p f r q ∈ h ∧ f < page.nextFetch ∧
    ∀ w, page.fetches f = some w → w.asks q.endpoint = true
  sent : ∀ b p f r q, .sent b p f r q ∈ h → .server (.arrived r q) ∈ h ∧
    (∀ sessionId, Dashboard.extractSessionId q.headers = some sessionId → Owns h b sessionId) ∧
    ∀ token, q.endpoint = .login (some token) → Submitted h b p token
  issued : ∀ r sessionId now, .server (.issued r sessionId now) ∈ h → ';' ∉ sessionId.toList

namespace Requests

/-- More happens, and no request of a page is sent in it. -/
theorem append (hi : Requests h s) (hsent : ∀ b p f r q, .sent b p f r q ∉ es)
    (hissued : ∀ r sessionId now, .server (.issued r sessionId now) ∈ es →
      ';' ∉ sessionId.toList) : Requests (h ++ es) s := by
  refine ⟨fun b id hid ↦ (hi.jar b id hid).append es, fun p f e hf ↦ ?_, fun r p f hr ↦ ?_,
    fun b p f r q hmem ↦ ?_, fun r id now hmem ↦ ?_⟩
  · obtain ⟨b, page, hp, hlt, hask, htoken⟩ := hi.made p f e hf
    exact ⟨b, page, hp, hlt, hask, fun token he ↦ (htoken token he).append es⟩
  · obtain ⟨b, page, q, hp, hmem, hlt, hask⟩ := hi.flying r p f hr
    exact ⟨b, page, q, hp, List.mem_append_left _ hmem, hlt, hask⟩
  · obtain ⟨harr, hid, htoken⟩ :=
      hi.sent b p f r q ((List.mem_append.mp hmem).resolve_right (hsent b p f r q))
    exact ⟨List.mem_append_left _ harr, fun id h ↦ (hid id h).append es,
      fun token h ↦ (htoken token h).append es⟩
  · rcases List.mem_append.mp hmem with hmem | hmem
    · exact hi.issued r id now hmem
    · exact hissued r id now hmem

theorem post_eq_some {made : FetchId → Option Endpoint} {es : List DashboardPage.Event}
    (h : post made es f = some e) : .fetch f e ∈ es ∨ made f = some e := by
  rcases Option.or_eq_some_iff.mp h with h | ⟨-, h⟩
  · obtain ⟨e', hmem, he⟩ := List.exists_of_findSome?_eq_some h
    left
    cases e' with
    | fetch f' e' =>
      simp only [Option.ite_none_right_eq_some, Option.some.injEq] at he
      obtain ⟨rfl, rfl⟩ := he
      exact hmem
    | unauthorized f' => cases he
  · exact .inr h

theorem setPage (hi : Requests h s) {es : List DashboardPage.Event}
    (hp : ∀ b' page₀, s.pages p = some (b', page₀) → b' = b ∧ page₀ = page)
    (hcalls : DashboardPage.Calls page page' es)
    (hlogin : ∀ f token, .fetch f (.login (some token)) ∈ es → Submitted h b p token) :
    Requests h (s.setPage p b page' es) := by
  -- What was waited for before is waited for by the same handler.
  have hold : ∀ {f : FetchId} {e : Endpoint}, f < page.nextFetch →
      (∀ w, page.fetches f = some w → w.asks e = true) → f < page'.nextFetch ∧
        ∀ w, page'.fetches f = some w → w.asks e = true := by
    intro f e hlt hask
    refine ⟨hlt.trans_le hcalls.next, fun w hf ↦ ?_⟩
    rcases hcalls.old f w hf with hf | hle
    · exact hask w hf
    · exact absurd hlt hle.not_gt
  have hpages : ∀ p', (s.setPage p b page' es).pages p' =
      if p' = p then some (b, page') else s.pages p' := fun p' ↦ Function.update_apply ..
  refine ⟨hi.jar, fun p' f e hf ↦ ?_, fun r p' f hr ↦ ?_, hi.sent, hi.issued⟩
  · rw [hpages]
    change Function.update s.made p (post (s.made p) es) p' f = some e at hf
    rw [Function.update_apply] at hf
    by_cases hpp : p' = p
    · rw [if_pos hpp] at hf
      subst hpp
      refine ⟨b, page', if_pos rfl, ?_⟩
      rcases post_eq_some hf with hmem | hf
      · obtain ⟨-, hlt, hask⟩ := hcalls.made f e hmem
        exact ⟨hlt, hask, fun token he ↦ hlogin f token (he ▸ hmem)⟩
      · obtain ⟨b', page₀, hp', hlt, hask, htoken⟩ := hi.made p' f e hf
        obtain ⟨rfl, rfl⟩ := hp b' page₀ hp'
        obtain ⟨hlt', hask'⟩ := hold hlt hask
        exact ⟨hlt', hask', htoken⟩
    · rw [if_neg hpp] at hf
      obtain ⟨b', page₀, hp', hrest⟩ := hi.made p' f e hf
      exact ⟨b', page₀, by rw [if_neg hpp, hp'], hrest⟩
  · obtain ⟨b', page₀, q, hp', hmem, hlt, hask⟩ := hi.flying r p' f hr
    rw [hpages]
    by_cases hpp : p' = p
    · subst hpp
      obtain ⟨rfl, rfl⟩ := hp b' page₀ hp'
      obtain ⟨hlt', hask'⟩ := hold hlt hask
      exact ⟨b', page', q, if_pos rfl, hmem, hlt', hask'⟩
    · exact ⟨b', page₀, q, by rw [if_neg hpp, hp'], hmem, hlt, hask⟩

theorem settle (hi : Requests h s) (p : PageId) (f : FetchId) (r : Response) :
    Requests h (s.settle p f r) := by
  rcases settle_cases s p f r with heq | ⟨b, page, page', es, hp, hstep, heq⟩
  · rwa [heq]
  · rw [heq]
    refine hi.setPage (fun b' page₀ hp' ↦ ?_) (DashboardPage.calls_of_step hstep)
      fun f' token hmem ↦ ?_
    · rw [hp, Option.some.injEq, Prod.mk.injEq] at hp'
      exact ⟨hp'.1.symm, hp'.2.symm⟩
    · obtain ⟨raw, ha, -⟩ := DashboardPage.submit_of_fetch hstep hmem
      cases ha

/-- The session that comes with an answer is one of this browser. -/
theorem keep (hi : Requests h s) (hr : (machine st).Reach h s)
    (hsent : .sent b p f r q ∈ h) (hreplied : .server (.replied r q reply) ∈ h)
    (hkeep : Dashboard.keep (s.jars b) reply = some sessionId) : Owns h b sessionId := by
  rw [Dashboard.keep] at hkeep
  split at hkeep
  · exact hi.jar b sessionId hkeep
  · rename_i setCookie hcookie
    rcases Dashboard.cookie_of_replied (server_reach hr) (mem_serverEvents.mpr hreplied) hcookie
      with rfl | ⟨id, tls, now, rfl, hissued⟩
    · rw [Dashboard.keep_clear] at hkeep
      cases hkeep
    · have hissued := mem_serverEvents.mp hissued
      obtain rfl := Dashboard.keep_session (hi.issued r id now hissued) hkeep
      exact ⟨p, f, r, q, now, hsent, hissued⟩

/-- An answer that comes was given to the request that waits for it. -/
theorem delivered (hi : Requests h s) (hr : (machine st).Reach h s)
    (hflying : s.flying r = some (p, f)) (hq : s.server.requests r = some (q, .answered reply))
    (hp : s.pages p = some (b, page)) : .sent b p f r q ∈ h ∧ .server (.replied r q reply) ∈ h ∧
      ∀ w, page.fetches f = some w → w.asks q.endpoint = true := by
  have ha : Dashboard.Answers (serverEvents h) s.server := .of_reach (server_reach hr)
  obtain ⟨b', page', q', hp', hsent, -, hask⟩ := hi.flying r p f hflying
  rw [hp, Option.some.injEq, Prod.mk.injEq] at hp'
  obtain ⟨rfl, rfl⟩ := hp'
  obtain ⟨phase, hphase⟩ := ha.known r q' (mem_serverEvents.mpr (hi.sent b p f r q' hsent).1)
  rw [hq, Option.some.injEq, Prod.mk.injEq] at hphase
  obtain ⟨rfl, -⟩ := hphase
  exact ⟨hsent, mem_serverEvents.mp (ha.replied r q reply hq), hask⟩

theorem send (hi : Requests h s) {headers : List (String × HeaderValue)}
    (hp : s.pages p = some (b, page)) (hf : s.made p f = some e)
    (hjar : Dashboard.carries (s.jars b) headers = true) {server : Dashboard.State}
    (hes : es = [.sent b p f r ⟨headers, e⟩, .server (.arrived r ⟨headers, e⟩)]) :
    Requests (h ++ es) { s with
      server
      made := Function.update s.made p (Function.update (s.made p) f none)
      flying := Function.update s.flying r (some (p, f)) } := by
  have hsent : .sent b p f r ⟨headers, e⟩ ∈ h ++ es := by simp [hes]
  obtain ⟨b₀, page₀, hp₀, hlt, hask, htoken⟩ := hi.made p f e hf
  rw [hp, Option.some.injEq, Prod.mk.injEq] at hp₀
  obtain ⟨rfl, rfl⟩ := hp₀
  refine ⟨fun b id hid ↦ (hi.jar b id hid).append es, fun p' f' e' hf' ↦ ?_, fun r' p' f' hr' ↦ ?_,
    fun b' p' f' r' q' hmem ↦ ?_, fun r' id now hmem ↦ ?_⟩
  · have hold : s.made p' f' = some e' := by
      change Function.update s.made p (Function.update (s.made p) f none) p' f' = some e' at hf'
      rw [Function.update_apply] at hf'
      split at hf'
      · rename_i hpp
        rw [Function.update_apply] at hf'
        split at hf'
        · cases hf'
        · rwa [hpp]
      · exact hf'
    obtain ⟨b', page', hp', hlt', hask', htoken'⟩ := hi.made p' f' e' hold
    exact ⟨b', page', hp', hlt', hask', fun token he ↦ (htoken' token he).append es⟩
  · change Function.update s.flying r (some (p, f)) r' = some (p', f') at hr'
    rw [Function.update_apply] at hr'
    split at hr'
    · rename_i hrr
      obtain ⟨rfl, rfl⟩ := Prod.mk.inj (Option.some.inj hr')
      exact ⟨b, page, _, hp, hrr ▸ hsent, hlt, hask⟩
    · obtain ⟨b', page', q', hp', hmem, hrest⟩ := hi.flying r' p' f' hr'
      exact ⟨b', page', q', hp', List.mem_append_left _ hmem, hrest⟩
  · rcases List.mem_append.mp hmem with hmem | hmem
    · obtain ⟨harr, hid, htoken'⟩ := hi.sent b' p' f' r' q' hmem
      exact ⟨List.mem_append_left _ harr, fun id h ↦ (hid id h).append es,
        fun token h ↦ (htoken' token h).append es⟩
    · rw [hes] at hmem
      simp only [List.mem_cons, Event.sent.injEq, reduceCtorEq, List.not_mem_nil, or_false] at hmem
      obtain ⟨rfl, rfl, rfl, rfl, rfl⟩ := hmem
      refine ⟨by simp [hes], fun id hid ↦ ?_, fun token he ↦ (htoken token he).append es⟩
      exact (hi.jar b' id (Dashboard.eq_of_carries hjar hid)).append es
  · rcases List.mem_append.mp hmem with hmem | hmem
    · exact hi.issued r' id now hmem
    · simp [hes] at hmem

/-- **The step lemma.** -/
theorem step (hi : Requests h s) (hr : (machine st).Reach h s)
    (hstep : Browser.step st s a = some (t, es)) : Requests (h ++ es) t := by
  cases step_transition hstep with
  | load hp =>
    rw [List.append_nil]
    have hcalls : DashboardPage.Calls .initial DashboardPage.load.1 DashboardPage.load.2 :=
      .call rfl
    refine hi.setPage (fun b' page₀ hp' ↦ ?_) hcalls fun f token hmem ↦ ?_
    · rw [hp] at hp'
      cases hp'
    · cases List.mem_singleton.mp hmem
  | @page b p a page page' es ha hp hpage =>
    have hsent : ∀ b' p' f r q, .sent b' p' f r q ∉ submissions b p a := by
      cases a <;> simp [submissions]
    have hissued : ∀ r id now, .server (.issued r id now) ∉ submissions b p a := by
      cases a <;> simp [submissions]
    refine (hi.append hsent fun r id now hmem ↦ absurd hmem (hissued r id now)).setPage
      (fun b' page₀ hp' ↦ ?_) (DashboardPage.calls_of_step hpage) fun f token hmem ↦ ?_
    · rw [hp, Option.some.injEq, Prod.mk.injEq] at hp'
      exact ⟨hp'.1.symm, hp'.2.symm⟩
    · obtain ⟨raw, rfl, heq⟩ := DashboardPage.submit_of_fetch hpage hmem
      exact ⟨raw, List.mem_append_right _ List.mem_cons_self, (Option.some.inj heq).symm⟩
  | @send b p f r headers page e server es hp hf hjar hs =>
    refine hi.send hp hf hjar ?_
    cases Dashboard.step_transition hs with
    | arrive => rfl
  | @deliver b p f r whole q reply page hflying hq hp =>
    rw [List.append_nil]
    -- What the jar keeps is what it had, or the session of a login by this browser.
    obtain ⟨hsent, hreplied, -⟩ := hi.delivered hr hflying hq hp
    refine settle (s := { s with
      jars := Function.update s.jars b (Dashboard.keep (s.jars b) reply)
      flying := Function.update s.flying r none })
      ⟨fun b' id hid ↦ ?_, hi.made, fun r' p' f' hr' ↦ ?_, hi.sent, hi.issued⟩ _ _ _
    · change Function.update s.jars b (Dashboard.keep (s.jars b) reply) b' = some id at hid
      rw [Function.update_apply] at hid
      split at hid
      · rename_i hbb
        exact hbb ▸ hi.keep hr hsent hreplied hid
      · exact hi.jar b' id hid
    · change Function.update s.flying r none r' = some (p', f') at hr'
      rw [Function.update_apply] at hr'
      split at hr'
      · cases hr'
      · exact hi.flying r' p' f' hr'
  | fail =>
    rw [List.append_nil]
    exact hi.settle _ _ _
  | forget b =>
    rw [List.append_nil]
    refine ⟨fun b' id hid ↦ ?_, hi.made, hi.flying, hi.sent, hi.issued⟩
    change Function.update s.jars b none b' = some id at hid
    rw [Function.update_apply] at hid
    split at hid
    · cases hid
    · exact hi.jar b' id hid
  | @server a server es ha hs =>
    have happend : Requests (h ++ es.map .server) s := by
      refine hi.append (by simp) fun r id now hmem ↦ ?_
      obtain ⟨e, hmem, he⟩ := List.mem_map.mp hmem
      obtain rfl := Event.server.inj he
      -- A session that is issued to a stranger gets an id that is not one of these.
      cases Dashboard.step_transition hs with
      | create =>
        simp only [List.mem_cons, Dashboard.Event.issued.injEq, reduceCtorEq, List.not_mem_nil,
          or_false] at hmem
        rw [hmem.2.1]
        exact of_decide_eq_true ha
      | elapse | arrive | authenticate | remove | logout | reply => simp at hmem
    exact ⟨happend.jar, happend.made, happend.flying, happend.sent, happend.issued⟩

theorem of_reach (hr : (machine st).Reach h s) : Requests h s := by
  refine hr.invariant (P := Requests) ⟨?_, ?_, ?_, ?_, ?_⟩
    fun _ _ _ _ _ hr hi hstep ↦ hi.step hr hstep
  · exact fun b id hid ↦ by cases hid
  · exact fun p f e hf ↦ by cases hf
  · exact fun r p f hr ↦ by cases hr
  · exact fun b p f r q hmem ↦ by cases hmem
  · exact fun r id now hmem ↦ by cases hmem

end Requests

/-! ## Logins -/

/-- The token of the dashboard was submitted on a page of this browser and sent from there. -/
def LoggedIn (st : DashboardState) (h : List Event) (b : BrowserId) : Prop :=
  ∃ p f r q, .sent b p f r q ∈ h ∧ q.endpoint = .login (some st.dashboardToken) ∧
    Submitted h b p st.dashboardToken

/-- The answer was given to a request of this browser for data. -/
def Given (h : List Event) (b : BrowserId) (reply : Reply) : Prop :=
  ∃ p f r q, .sent b p f r q ∈ h ∧ .server (.replied r q reply) ∈ h ∧
    q.endpoint.guarded = true ∧ reply.isData = true

/-- The answer was given to a request of this browser, whose session had been made for a request of
the same browser and was accepted when the server asked. -/
def Answered (st : DashboardState) (h : List Event) (b : BrowserId) (reply : Reply) : Prop :=
  ∃ p f r q sessionId h₁ now h₂, .sent b p f r q ∈ h ∧ .server (.replied r q reply) ∈ h ∧
    Dashboard.extractSessionId q.headers = some sessionId ∧ Owns h b sessionId ∧
    serverEvents h = h₁ ++ .checked r q now true :: h₂ ∧ Dashboard.Accepted st h₁ sessionId now

theorem LoggedIn.append (hl : LoggedIn st h b) (h' : List Event) : LoggedIn st (h ++ h') b := by
  obtain ⟨p, f, r, q, hsent, he, hsubmitted⟩ := hl
  exact ⟨p, f, r, q, List.mem_append_left _ hsent, he, hsubmitted.append h'⟩

theorem Given.append (hg : Given h b reply) (h' : List Event) : Given (h ++ h') b reply := by
  obtain ⟨p, f, r, q, hsent, hreplied, hrest⟩ := hg
  exact ⟨p, f, r, q, List.mem_append_left _ hsent, List.mem_append_left _ hreplied, hrest⟩

section Reached

variable (hr : (machine st).Reach h s) (htoken : st.dashboardToken ≠ "")
include hr htoken

theorem loggedIn_of_owns (ho : Owns h b sessionId) : LoggedIn st h b := by
  have hi : Requests h s := .of_reach hr
  obtain ⟨p, f, r, q, now, hsent, hissued⟩ := ho
  have hserver := server_reach hr
  have ha : Dashboard.Answers (serverEvents h) s.server := .of_reach hserver
  obtain ⟨harr, -, hsubmitted⟩ := hi.sent b p f r q hsent
  obtain ⟨h₁, h₂, heq⟩ := List.append_of_mem (mem_serverEvents.mpr hissued)
  obtain ⟨q', harr', he⟩ := Dashboard.login_of_issued htoken (heq ▸ hserver)
  obtain rfl := ha.unique (mem_serverEvents.mpr harr) (heq ▸ List.mem_append_left _ harr')
  exact ⟨p, f, r, q, hsent, he, hsubmitted _ he⟩

theorem loggedIn_of_answered (ha : Answered st h b reply) : LoggedIn st h b := by
  obtain ⟨p, f, r, q, id, h₁, now, h₂, -, -, -, howns, -⟩ := ha
  exact loggedIn_of_owns hr htoken howns

variable (henabled : st.authEnabled = true)
include henabled

/-- The session behind an answer that lets in, unless that is an answer to a login. -/
theorem session_of_admits (hsent : .sent b p f r q ∈ h)
    (hreplied : .server (.replied r q reply) ∈ h) (hadm : reply.admits q.endpoint = true) :
    q.endpoint = .login (some st.dashboardToken) ∨ ∃ sessionId h₁ now h₂,
      Dashboard.extractSessionId q.headers = some sessionId ∧ Owns h b sessionId ∧
      serverEvents h = h₁ ++ .checked r q now true :: h₂ ∧
      Dashboard.Accepted st h₁ sessionId now := by
  have hi : Requests h s := .of_reach hr
  rcases Dashboard.admitted_of_replied henabled htoken (server_reach hr)
    (mem_serverEvents.mpr hreplied) hadm with he | ⟨h₁, now, h₂, id, heq, hid, hacc⟩
  · exact .inl he
  · exact .inr ⟨id, h₁, now, h₂, hid, (hi.sent b p f r q hsent).2.1 id hid, heq, hacc⟩

theorem loggedIn_of_admits (hsent : .sent b p f r q ∈ h)
    (hreplied : .server (.replied r q reply) ∈ h) (hadm : reply.admits q.endpoint = true) :
    LoggedIn st h b := by
  have hi : Requests h s := .of_reach hr
  rcases session_of_admits hr htoken henabled hsent hreplied hadm with
    he | ⟨id, -, -, -, -, howns, -⟩
  · exact ⟨p, f, r, q, hsent, he, (hi.sent b p f r q hsent).2.2 _ he⟩
  · exact loggedIn_of_owns hr htoken howns

theorem answered_of_given (hg : Given h b reply) : Answered st h b reply := by
  obtain ⟨p, f, r, q, hsent, hreplied, hguarded, hdata⟩ := hg
  rcases session_of_admits hr htoken henabled hsent hreplied
    (Dashboard.Reply.admits_of_isData hguarded hdata) with he | ⟨id, h₁, now, h₂, hrest⟩
  · rw [he] at hguarded
    cases hguarded
  · exact ⟨p, f, r, q, id, h₁, now, h₂, hsent, hreplied, hrest⟩

end Reached

/-! ## What the pages show -/

/-- An answer that does not refuse its handler lets in. -/
theorem admits_of_refuses {w : Await} (hasks : w.asks e = true) (hanswers : e.answers reply = true)
    (hr : (Response.answer reply).refuses w = false) : reply.admits e = true := by
  cases w with
  | checkAuth =>
    cases e with
    | authCheck =>
      cases reply with
      | authCheck authenticated authRequired =>
        cases authenticated <;> cases authRequired <;> first | rfl | cases hr
      | _ => cases hanswers
    | _ => cases hasks
  | login =>
    cases e with
    | login token =>
      cases token with
      | none => cases hasks
      | some token =>
        cases reply with
        | login status setCookie success =>
          cases success
          · cases hr
          · rfl
        | _ => cases hanswers
    | _ => cases hasks
  | logout | refresh => cases hr

theorem refuses_of_ne {r : Response} (hr : ∀ reply, r ≠ .answer reply) (w : Await) :
    r.refuses w = true := by
  cases r with
  | answer reply => exact absurd rfl (hr reply)
  | failed | foreign => cases w <;> rfl

/-- What a page shows, and what its refreshes have, comes from answers to its browser. -/
structure Shown (st : DashboardState) (h : List Event) (b : BrowserId)
    (page : DashboardPage.State) : Prop where
  entered : page.dashboardShown = true → LoggedIn st h b
  holds : ∀ reply, DashboardPage.Holds page reply → Given h b reply
  shows : ∀ c, DashboardPage.Shows page c → ∃ data, c ∈ data ∧ Given h b (.clients data)

namespace Shown

theorem append (hi : Shown st h b page) (h' : List Event) : Shown st (h ++ h') b page := by
  refine ⟨fun hshown ↦ (hi.entered hshown).append h',
    fun reply hreply ↦ (hi.holds reply hreply).append h', fun c hc ↦ ?_⟩
  obtain ⟨data, hmem, hg⟩ := hi.shows c hc
  exact ⟨data, hmem, hg.append h'⟩

/-- A page makes a step, and the answer in it, if there is one, is as it should be. -/
theorem step (hi : Shown st h b page) {a : DashboardPage.Act} {es : List DashboardPage.Event}
    (hstep : DashboardPage.step page a = some (page', es))
    (hadm : ∀ f r w, a = .settle f r → page.fetches f = some w → r.refuses w = false →
      LoggedIn st h b)
    (hdata : ∀ f n part reply, a = .settle f (.answer reply) →
      page.fetches f = some (.refresh n part) → reply.isData = true → Given h b reply) :
    Shown st h b page' := by
  have hbrings := DashboardPage.brings_of_step hstep
  refine ⟨fun hshown ↦ ?_, fun reply hreply ↦ ?_, fun c hc ↦ ?_⟩
  · rcases DashboardPage.entered_of_step hstep hshown with hold | ⟨f, r, w, ha, hf, hr⟩
    · exact hi.entered hold
    · exact hadm f r w ha hf hr
  · have hisData : reply.isData = true := by cases hreply <;> rfl
    rcases hbrings.holds reply hreply with hold | ⟨f, n, part, ha, hf⟩
    · exact hi.holds reply hold
    · exact hdata f n part reply ha hf hisData
  · rcases hbrings.shows c hc with hold | ⟨data, hmem, hold | ⟨f, n, part, ha, hf⟩⟩
    · exact hi.shows c hold
    · exact ⟨data, hmem, hi.holds _ hold⟩
    · exact ⟨data, hmem, hdata f n part _ ha hf rfl⟩

theorem load : Shown st h b DashboardPage.load.1 := by
  refine ⟨fun hshown ↦ (by cases hshown), fun reply hreply ↦ ?_, fun c ⟨node, hnode⟩ ↦ ?_⟩
  · cases hreply with
    | status hn | clients hn | metrics hn => cases hn
    | statusShown hstats | metricsShown hstats => cases hstats
  · cases hnode

end Shown

/-- **The step lemma.** -/
theorem shown_of_step (hr : (machine st).Reach h s) (htoken : st.dashboardToken ≠ "")
    (henabled : st.authEnabled = true)
    (hi : ∀ p b page, s.pages p = some (b, page) → Shown st h b page)
    (hstep : step st s a = some (t, es)) (hp : t.pages p = some (b, page)) :
    Shown st (h ++ es) b page := by
  have hold : ∀ p b page, s.pages p = some (b, page) → Shown st (h ++ es) b page :=
    fun p b page hp ↦ (hi p b page hp).append es
  have hset : ∀ {p' : PageId} {b' : BrowserId} {page' : DashboardPage.State},
      Shown st (h ++ es) b' page' →
      Function.update s.pages p' (some (b', page')) p = some (b, page) →
      Shown st (h ++ es) b page := by
    intro p' b' page' hnew hp
    rw [Function.update_apply] at hp
    split at hp
    · obtain ⟨rfl, rfl⟩ := Prod.mk.inj (Option.some.inj hp)
      exact hnew
    · exact hold p b page hp
  cases step_transition hstep with
  | load => exact hset .load hp
  | page ha hp₀ hpage =>
    refine hset ((hold _ _ _ hp₀).step hpage (fun f r w heq ↦ ?_) fun f n part reply heq ↦ ?_) hp
    · rw [heq] at ha
      cases ha
    · rw [heq] at ha
      cases ha
  | send | forget | server => exact hold p b page hp
  | @deliver b₀ p₀ f r whole q reply page₀ hflying hq hp₀ =>
    obtain ⟨hsent, hreplied, hask⟩ := (Requests.of_reach hr).delivered hr hflying hq hp₀
    rcases settle_cases { s with
      jars := Function.update s.jars b₀ (Dashboard.keep (s.jars b₀) reply)
      flying := Function.update s.flying r none } p₀ f
      (if whole then .answer reply else .failed) with
      heq | ⟨b₁, page₁, page', es', hp₁, hpage, heq⟩
    · rw [heq] at hp
      exact hold p b page hp
    · rw [heq] at hp
      rw [hp₀, Option.some.injEq, Prod.mk.injEq] at hp₁
      obtain ⟨rfl, rfl⟩ := hp₁
      -- An answer that lets the page in or brings it data is one to a request of this browser.
      refine hset ((hold _ _ _ hp₀).step hpage (fun f' r' w ha hf hrefuses ↦ ?_)
        fun f' n part reply' ha hf hdata ↦ ?_) hp
      · obtain ⟨rfl, rfl⟩ := DashboardPage.Act.settle.inj ha
        split at hrefuses
        · refine (loggedIn_of_admits hr htoken henabled hsent hreplied ?_).append _
          exact admits_of_refuses (hask w hf) (Dashboard.answers_of_replied (server_reach hr)
            (mem_serverEvents.mpr hreplied)) hrefuses
        · rw [refuses_of_ne (fun reply h ↦ by cases h)] at hrefuses
          cases hrefuses
      · obtain ⟨rfl, heq⟩ := DashboardPage.Act.settle.inj ha
        split at heq
        · obtain rfl := Response.answer.inj heq
          have hguarded : q.endpoint.guarded = true := by
            rw [of_decide_eq_true (hask _ hf)]
            cases part <;> rfl
          have hg : Given h b₀ reply := ⟨p₀, f, r, q, hsent, hreplied, hguarded, hdata⟩
          exact hg.append _
        · cases heq
  | @fail p₀ f r hne =>
    rcases settle_cases s p₀ f r with heq | ⟨b₁, page₁, page', es', hp₁, hpage, heq⟩
    · rw [heq] at hp
      exact hold p b page hp
    · rw [heq] at hp
      refine hset ((hold _ _ _ hp₁).step hpage (fun f' r' w ha hf hrefuses ↦ ?_)
        fun f' n part reply' ha hf hdata ↦ ?_) hp
      · obtain ⟨rfl, rfl⟩ := DashboardPage.Act.settle.inj ha
        rw [refuses_of_ne hne] at hrefuses
        cases hrefuses
      · exact absurd (DashboardPage.Act.settle.inj ha).2 (hne reply')

theorem shown_of_reach (hr : (machine st).Reach h s) (htoken : st.dashboardToken ≠ "")
    (henabled : st.authEnabled = true) (hp : s.pages p = some (b, page)) : Shown st h b page := by
  have hall : ∀ p b page, s.pages p = some (b, page) → Shown st h b page := by
    refine hr.invariant (P := fun h s ↦ ∀ p b page, s.pages p = some (b, page) → Shown st h b page)
      (fun p b page hp ↦ (by cases hp)) fun h s a t es hr hi hstep p b page hp ↦ ?_
    exact shown_of_step hr htoken henabled hi hstep hp
  exact hall p b page hp

/-- What a browser has of the dashboard, it has by a login of its own. -/
structure BrowserSound (st : DashboardState) (h : List Event) (s : State) (b : BrowserId) :
    Prop where
  session : ∀ sessionId, s.jars b = some sessionId → LoggedIn st h b
  /-- A page has come to show the dashboard. -/
  entered : ∀ p page, s.pages p = some (b, page) → page.dashboardShown = true → LoggedIn st h b
  /-- The numbers above the table. -/
  stats : ∀ p page status metrics, s.pages p = some (b, page) →
    page.stats = some (status, metrics) →
    LoggedIn st h b ∧ Answered st h b (.status status) ∧ Answered st h b (.metrics metrics)
  /-- The numbers of a client. -/
  rows : ∀ p page node c, s.pages p = some (b, page) → page.table.shown node = some c →
    LoggedIn st h b ∧ ∃ data, c ∈ data ∧ Answered st h b (.clients data)

/-- **Nobody sees the dashboard without a login of his own**, whatever the other browsers and
everybody else do, in every reachable state. -/
theorem browser_sound (config : ServerConfig) (auth : DashboardAuthConfig) (controlPort : UInt16)
    (htoken : auth.token ≠ "") (h : List Event) (s : State)
    (hr : (machine (.ofConfig config auth controlPort)).Reach h s) (b : BrowserId) :
    BrowserSound (.ofConfig config auth controlPort) h s b := by
  have henabled : (DashboardState.ofConfig config auth controlPort).authEnabled = true :=
    DashboardAuthConfig.dashboardAuthEnabled_iff.mpr htoken
  have hanswered : ∀ reply, Given h b reply →
      LoggedIn (.ofConfig config auth controlPort) h b ∧
        Answered (.ofConfig config auth controlPort) h b reply := by
    intro reply hg
    have ha := answered_of_given hr htoken henabled hg
    exact ⟨loggedIn_of_answered hr htoken ha, ha⟩
  refine ⟨fun id hid ↦ loggedIn_of_owns hr htoken ((Requests.of_reach hr).jar b id hid),
    fun p page hp ↦ (shown_of_reach hr htoken henabled hp).entered,
    fun p page status metrics hp hstats ↦ ?_, fun p page node c hp hnode ↦ ?_⟩
  · have hshown := shown_of_reach hr htoken henabled hp
    obtain ⟨hlogin, hstatus⟩ := hanswered _ (hshown.holds _ (.statusShown hstats))
    exact ⟨hlogin, hstatus, (hanswered _ (hshown.holds _ (.metricsShown hstats))).2⟩
  · obtain ⟨data, hmem, hg⟩ := (shown_of_reach hr htoken henabled hp).shows c ⟨node, hnode⟩
    exact ⟨(hanswered _ hg).1, data, hmem, (hanswered _ hg).2⟩

/-- A client of the table. -/
def sampleClient : ClientInfo := ⟨"app", 1, 2, 3, 4, 5, true⟩

/-- A page is loaded and let in after a login, and its first refresh is answered. -/
def sampleRun : List Act :=
  [.load 0 0, .send 0 0 0 [], .server (.authenticate 0), .server (.respond 0 "" {}),
    .deliver 0 true, .page 0 (.submit " pw "), .send 0 1 1 [], .server (.authenticate 1),
    .server (.respond 1 "k1" {}), .deliver 1 true, .send 0 2 2 Dashboard.sampleCookie,
    .send 0 3 3 Dashboard.sampleCookie, .send 0 4 4 Dashboard.sampleCookie,
    .server (.authenticate 2), .server (.authenticate 3), .server (.authenticate 4),
    .server (.respond 4 "" {}), .server (.respond 3 "" { clients := [sampleClient] }),
    .server (.respond 2 "" {}), .deliver 3 true, .deliver 2 true, .deliver 4 true]

theorem browser_sound_login : ∃ h s page,
    (machine (.ofConfig {} { token := "pw" } 6200)).run
      (start (.ofConfig {} { token := "pw" } 6200)) sampleRun = some (s, h) ∧
    s.pages 0 = some (0, page) ∧ page.dashboardShown = true ∧
    page.table.shown 0 = some sampleClient ∧
    BrowserSound (.ofConfig {} { token := "pw" } 6200) h s 0 := by
  have hrun : (((machine (.ofConfig {} { token := "pw" } 6200)).run
      (start (.ofConfig {} { token := "pw" } 6200)) sampleRun).bind fun p ↦ p.1.pages 0).map
      (fun p ↦ (p.1, p.2.dashboardShown, p.2.table.shown 0)) =
        some (0, true, some sampleClient) := by
    decide +kernel
  obtain ⟨⟨b, page⟩, hpage, heq⟩ := Option.map_eq_some_iff.mp hrun
  obtain ⟨⟨s, h⟩, hsh, hp⟩ := Option.bind_eq_some_iff.mp hpage
  obtain ⟨rfl, hshown, hrow⟩ := by simpa only [Prod.mk.injEq] using heq
  exact ⟨h, s, page, hsh, hp, hshown, hrow,
    browser_sound {} { token := "pw" } 6200 (by decide) h s (.of_run hsh) 0⟩

end Browser

end ZoTunnel
