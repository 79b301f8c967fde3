import ZoTunnel.Client.TunnelStream
import ZoTunnel.Server.Streams

/-!
# The streams between server and client

The server together with the client's end of every stream. A stream comes into being when the driver
of a session hands it out. The proxy may write a marker to it, and from the HTTP handshake on the
HTTP connection writes; a heartbeat probe writes its own marker. At the other end is the client's
task for the stream.

Whether a marker is written is decided in the proxy, whether there are probes in the driver, and the
client always reads one. The invariant says what has been written to a stream, by its owner and by
the version in the request of its session. All three agree on that version.
-/

namespace ZoTunnel

namespace Session

/-- A stream between the server and a client. -/
structure Stream where
  owner : Driver.Owner
  httpOpen : Bool := false
  sent : Bytes := []
  /-- The bytes of `sent` that the HTTP connection has written. -/
  http : Bytes := []
  tunnel : TunnelStream := {}

/-- The server and the streams of its sessions. -/
structure State where
  server : Proxy.State
  streams : ConnId → StreamId → Option Stream

inductive Act
  | server (a : Proxy.Act)
  | httpWrite (c : ConnId) (st : StreamId) (bs : Bytes)
  /-- A probe task writes the heartbeat marker. -/
  | probeWrite (c : ConnId) (st : StreamId)
  | tunnel (c : ConnId) (st : StreamId) (a : TunnelStream.Act)

/-- Bytes are written to a stream. -/
def Stream.write (x : Stream) (bs : Bytes) : Stream :=
  { x with sent := x.sent ++ bs, tunnel := x.tunnel.recv bs }

def State.setStream (s : State) (c : ConnId) (st : StreamId) (x : Stream) : State :=
  { s with streams := fun c' st' ↦ if c' = c ∧ st' = st then some x else s.streams c' st' }

/-- The owner that a stream has just been handed to. -/
def opened (es : List Proxy.Event) (c : ConnId) (st : StreamId) : Option Driver.Owner :=
  (Control.handedStreams c (Proxy.controlEvents es)).lookup st

/-- The proxy has just written its marker to a stream. -/
def marks (es : List Proxy.Event) (c : ConnId) (st : StreamId) : Bool :=
  es.any fun | .marked _ c' st' => decide (c' = c ∧ st' = st) | _ => false

/-- The HTTP connection has just taken over a stream. -/
def shakes (es : List Proxy.Event) (c : ConnId) (st : StreamId) : Bool :=
  es.any fun | .handshaken _ c' st' => decide (c' = c ∧ st' = st) | _ => false

/-- What the events of a step of the server do to a stream. -/
def onEvents (es : List Proxy.Event) (c : ConnId) (st : StreamId) (x : Option Stream) :
    Option Stream :=
  match opened es c st with
  | some owner => some { owner }
  | none => x.map fun x ↦
    if marks es c st then x.write [streamTypeProxy]
    else if shakes es c st then { x with httpOpen := true }
    else x

/-- A probe succeeds only once it has written its marker and has read a byte. -/
def allowed (s : State) : Proxy.Act → Bool
  | .control (.driver c (.probeDone st (.ok ()))) =>
    match s.streams c st with
    | some x => !x.sent.isEmpty && !x.tunnel.back.isEmpty
    | none => false
  | _ => true

/-- A probe task that runs on a stream. -/
def probing (s : State) (c : ConnId) (st : StreamId) : Bool :=
  match s.server.control.conns c with
  | some conn => conn.driver.any fun d ↦ decide (st ∈ d.probes)
  | none => false

variable (serde : SerdeJson) (config : ServerConfig)

/-- One step of the server, of its tasks on a stream, or of the client's end of one. -/
def step (s : State) : Act → Option (State × List Proxy.Event)
  | .server a =>
    if allowed s a then
      match Proxy.step serde config s.server a with
      | none => none
      | some (server, es) =>
        some ({ server, streams := fun c st ↦ onEvents es c st (s.streams c st) }, es)
    else none
  | .httpWrite c st bs =>
    match s.streams c st with
    | some x =>
      if x.httpOpen then
        some (s.setStream c st { x.write bs with http := x.http ++ bs }, [])
      else none
    | none => none
  | .probeWrite c st =>
    match s.streams c st with
    | some x =>
      if x.owner = .probe ∧ x.sent = [] ∧ probing s c st = true then
        some (s.setStream c st (x.write [streamTypeHeartbeat]), [])
      else none
    | none => none
  | .tunnel c st a =>
    match s.streams c st with
    | some x =>
      match x.tunnel.step a with
      | some tunnel => some (s.setStream c st { x with tunnel }, [])
      | none => none
    | none => none

/-- Server and clients as a machine. -/
def machine (routes : RouteFiles) : Machine State Act Proxy.Event where
  init := { server := Proxy.start config routes, streams := fun _ _ ↦ none }
  step := step serde config

/-! ## What a step can do -/

inductive Transition (s : State) : Act → State → List Proxy.Event → Prop
  | server {a : Proxy.Act} {server : Proxy.State} {es : List Proxy.Event}
      (hstep : Proxy.step serde config s.server a = some (server, es)) :
      Transition s (.server a)
        { server, streams := fun c st ↦ onEvents es c st (s.streams c st) } es
  | httpWrite {c : ConnId} {st : StreamId} {bs : Bytes} {x : Stream}
      (hx : s.streams c st = some x) (hopen : x.httpOpen = true) :
      Transition s (.httpWrite c st bs)
        (s.setStream c st { x.write bs with http := x.http ++ bs }) []
  | probeWrite {c : ConnId} {st : StreamId} {x : Stream} (hx : s.streams c st = some x)
      (howner : x.owner = .probe) (hsent : x.sent = []) :
      Transition s (.probeWrite c st) (s.setStream c st (x.write [streamTypeHeartbeat])) []
  | tunnel {c : ConnId} {st : StreamId} {x : Stream} {b : TunnelStream.Act}
      {tunnel : TunnelStream} (hx : s.streams c st = some x)
      (hstep : x.tunnel.step b = some tunnel) :
      Transition s (.tunnel c st b) (s.setStream c st { x with tunnel }) []

variable {serde config} {routes : RouteFiles} {h : List Proxy.Event} {s t : State} {a : Act}
  {es : List Proxy.Event} {c : ConnId} {st : StreamId} {x : Stream} {r : Proxy.ReqId} {b : Bool}

theorem step_transition (hstep : step serde config s a = some (t, es)) :
    Transition serde config s a t es := by
  cases a with
  | server a =>
    simp only [step] at hstep
    split at hstep
    · split at hstep
      · cases hstep
      · rename_i server es' hs
        rw [Option.some.injEq, Prod.mk.injEq] at hstep
        obtain ⟨rfl, rfl⟩ := hstep
        exact .server hs
    · cases hstep
  | httpWrite c st bs =>
    simp only [step] at hstep
    split at hstep
    · rename_i x hx
      split at hstep
      · rename_i hopen
        rw [Option.some.injEq, Prod.mk.injEq] at hstep
        obtain ⟨rfl, rfl⟩ := hstep
        exact .httpWrite hx hopen
      · cases hstep
    · cases hstep
  | probeWrite c st =>
    simp only [step] at hstep
    split at hstep
    · rename_i x hx
      split at hstep
      · rename_i hg
        rw [Option.some.injEq, Prod.mk.injEq] at hstep
        obtain ⟨rfl, rfl⟩ := hstep
        exact .probeWrite hx hg.1 hg.2.1
      · cases hstep
    · cases hstep
  | tunnel c st b =>
    simp only [step] at hstep
    split at hstep
    · rename_i x hx
      split at hstep
      · rename_i tunnel hs
        rw [Option.some.injEq, Prod.mk.injEq] at hstep
        obtain ⟨rfl, rfl⟩ := hstep
        exact .tunnel hx hs
      · cases hstep
    · cases hstep

theorem setStream_streams (s : State) (c c' : ConnId) (st st' : StreamId) (x : Stream) :
    (s.setStream c st x).streams c' st' =
      if c' = c ∧ st' = st then some x else s.streams c' st' := rfl

/-- **Projection.** Seen from the server, a run is one of its own runs. -/
theorem server_reach (hr : (machine serde config routes).Reach h s) :
    (Proxy.machine serde config routes).Reach h s.server := by
  have hst := Machine.Steps.project (N := Proxy.machine serde config routes) State.server
    (fun e ↦ [e]) (fun s a t es hstep ↦ ?_) hr
  · rwa [List.flatMap_singleton'] at hst
  · rw [List.flatMap_singleton']
    cases step_transition hstep with
    | server hs => exact .single hs
    | httpWrite | probeWrite | tunnel => exact .refl _

/-! ## The invariant of a stream -/

/-- What marks the streams of a session. -/
def marker (supportsHeartbeat : Bool) : Bytes :=
  if supportsHeartbeat then [streamTypeProxy] else []

/-- What has been written to a stream, by its owner and by the support of its session. -/
inductive Written (b : Bool) : Driver.Owner → Bool → Bytes → Bytes → Prop
  | call {r : CallId} : Written b (.call r) false [] []
  | marked {r : CallId} : Written b (.call r) false (marker b) []
  | http {r : CallId} {http : Bytes} : Written b (.call r) true (marker b ++ http) http
  | probe (hb : b = true) : Written b .probe false [] []
  | probed (hb : b = true) : Written b .probe false [streamTypeHeartbeat] []

variable (serde) in
/-- A stream of a session: what has been written to it, and what the client has made of that. -/
structure StreamInv (s : Proxy.State) (c : ConnId) (x : Stream) : Prop where
  written : ∃ b, Control.Supports serde s.control c b ∧
    Written b x.owner x.httpOpen x.sent x.http
  conserves : x.tunnel.Conserves x.sent

/-- A request that has not written to its stream has left it as it was handed out. -/
def Fresh (x : Stream) : Prop := x.httpOpen = false ∧ x.sent = []

/-- The streams of all sessions. -/
structure Streams (serde : SerdeJson) (h : List Proxy.Event) (s : State) : Prop where
  stream : ∀ c st x, s.streams c st = some x → StreamInv serde s.server c x
  /-- The streams are those that the drivers have handed out. -/
  handed : ∀ c st x, s.streams c st = some x →
    (st, x.owner) ∈ Control.handedStreams c (Proxy.controlEvents h)
  every : ∀ c st o, (st, o) ∈ Control.handedStreams c (Proxy.controlEvents h) →
    ∃ x, s.streams c st = some x
  fresh : ∀ r, (∀ q, s.server.requests r = some q → q.phase.written = false) →
    ∀ c st x, s.streams c st = some x → x.owner = .call r → Fresh x
  marking : ∀ r q tg st, s.server.requests r = some q → q.phase = .marking tg st →
    tg.client.supportsHeartbeat = true ∧
      ∃ x, s.streams tg.client.handle st = some x ∧ x.owner = .call r
  handshaking : ∀ r q tg st, s.server.requests r = some q → q.phase = .handshaking tg st →
    ∃ x, s.streams tg.client.handle st = some x ∧ x.owner = .call r ∧ x.httpOpen = false ∧
      x.sent = marker tg.client.supportsHeartbeat

theorem Written.unhandled {owner : Driver.Owner} {sent http : Bytes}
    (hw : Written b owner false sent http) : http = [] := by
  cases hw <;> rfl

/-! ## Streams and events -/

theorem handed_of_opened {owner : Driver.Owner} (ho : opened es c st = some owner) :
    (st, owner) ∈ Control.handedStreams c (Proxy.controlEvents es) := by
  obtain ⟨l₁, l₂, hl, -⟩ := List.lookup_eq_some_iff.mp ho
  rw [hl]
  exact List.mem_append_right _ List.mem_cons_self

theorem opened_eq_none : opened es c st = none ↔
    ∀ owner, (st, owner) ∉ Control.handedStreams c (Proxy.controlEvents es) := by
  rw [opened, List.lookup_eq_none_iff]
  constructor
  · intro hall owner hmem
    exact bne_iff_ne.mp (hall _ hmem) rfl
  · rintro hnone ⟨st', owner⟩ hmem
    refine bne_iff_ne.mpr fun hst ↦ hnone owner ?_
    rwa [show st = st' from hst]

theorem marks_eq_true : marks es c st = true ↔ ∃ r, .marked r c st ∈ es := by
  rw [marks, List.any_eq_true]
  constructor
  · rintro ⟨e, he, hm⟩
    split at hm
    · obtain ⟨rfl, rfl⟩ := of_decide_eq_true hm
      exact ⟨_, he⟩
    · cases hm
  · rintro ⟨r, hmem⟩
    exact ⟨_, hmem, decide_eq_true ⟨rfl, rfl⟩⟩

theorem shakes_eq_true : shakes es c st = true ↔ ∃ r, .handshaken r c st ∈ es := by
  rw [shakes, List.any_eq_true]
  constructor
  · rintro ⟨e, he, hm⟩
    split at hm
    · obtain ⟨rfl, rfl⟩ := of_decide_eq_true hm
      exact ⟨_, he⟩
    · cases hm
  · rintro ⟨r, hmem⟩
    exact ⟨_, hmem, decide_eq_true ⟨rfl, rfl⟩⟩

/-- How a step of the server changes a stream. -/
inductive ServerMove (es : List Proxy.Event) (c : ConnId) (st : StreamId) (x y : Stream) : Prop
  | same (hmarks : ∀ r, .marked r c st ∉ es) (hshakes : ∀ r, .handshaken r c st ∉ es) (hy : y = x)
  | marked {r : Proxy.ReqId} (hmem : .marked r c st ∈ es) (hy : y = x.write [streamTypeProxy])
  | handshaken {r : Proxy.ReqId} (hmem : .handshaken r c st ∈ es)
      (hy : y = { x with httpOpen := true })

theorem ServerMove.owner {y : Stream} (hm : ServerMove es c st x y) : y.owner = x.owner := by
  cases hm with
  | same _ _ hy | marked _ hy | handshaken _ hy => exact hy ▸ rfl

theorem onEvents_some (hopened : opened es c st = none) :
    ∃ y, onEvents es c st (some x) = some y ∧ ServerMove es c st x y := by
  rw [onEvents, hopened]
  refine ⟨_, rfl, ?_⟩
  by_cases hm : marks es c st = true
  · obtain ⟨r, hmem⟩ := marks_eq_true.mp hm
    exact .marked hmem (if_pos hm)
  · have hm' : ∀ r, .marked r c st ∉ es := fun r hmem ↦ hm (marks_eq_true.mpr ⟨r, hmem⟩)
    by_cases hs : shakes es c st = true
    · obtain ⟨r, hmem⟩ := shakes_eq_true.mp hs
      exact .handshaken hmem ((if_neg hm).trans (if_pos hs))
    · have hs' : ∀ r, .handshaken r c st ∉ es := fun r hmem ↦ hs (shakes_eq_true.mpr ⟨r, hmem⟩)
      exact .same hm' hs' ((if_neg hm).trans (if_neg hs))

namespace Streams

theorem start : Streams serde [] { server := Proxy.start config routes, streams := fun _ _ ↦ none }
    where
  stream c st x hx := by cases hx
  handed c st x hx := by cases hx
  every c st o ho := by cases ho
  fresh r _ c st x hx := by cases hx
  marking r q tg st hq := by cases hq
  handshaking r q tg st hq := by cases hq

/-- The owner of a stream is the one that the driver has handed it to. -/
theorem owner_eq (hi : Streams serde h s) (hr : (machine serde config routes).Reach h s)
    {o : Driver.Owner} (hx : s.streams c st = some x)
    (ho : (st, o) ∈ Control.handedStreams c (Proxy.controlEvents h)) : x.owner = o :=
  Control.owner_unique (Proxy.control_reach (server_reach hr)) (hi.handed c st x hx) ho

private theorem owner_of_marked (hi : Streams serde h s) {server : Proxy.State} {a : Proxy.Act}
    (hs : Proxy.step serde config s.server a = some (server, es)) (hx : s.streams c st = some x)
    (hmem : .marked r c st ∈ es) :
    x.owner = .call r ∧ ∃ q tg, s.server.requests r = some q ∧ q.phase = .marking tg st ∧
      tg.client.handle = c ∧ ∃ q', server.requests r = some q' ∧ q'.phase = .handshaking tg st := by
  obtain ⟨-, q, tg, hq, hphase, rfl, hnext⟩ := Proxy.marked_of_step hs hmem
  obtain ⟨-, x', hx', howner⟩ := hi.marking r q tg st hq hphase
  rw [hx, Option.some.injEq] at hx'
  exact ⟨hx' ▸ howner, q, tg, hq, hphase, rfl, hnext⟩

private theorem owner_of_handshaken (hi : Streams serde h s) {server : Proxy.State} {a : Proxy.Act}
    (hs : Proxy.step serde config s.server a = some (server, es)) (hx : s.streams c st = some x)
    (hmem : .handshaken r c st ∈ es) :
    x.owner = .call r ∧ ∃ q tg, s.server.requests r = some q ∧ q.phase = .handshaking tg st ∧
      tg.client.handle = c ∧ x.httpOpen = false ∧ x.sent = marker tg.client.supportsHeartbeat ∧
      ∃ q', server.requests r = some q' ∧ q'.phase = .building tg st := by
  obtain ⟨-, q, tg, hq, hphase, rfl, hnext⟩ := Proxy.handshaken_of_step hs hmem
  obtain ⟨x', hx', howner, hopen, hsent⟩ := hi.handshaking r q tg st hq hphase
  rw [hx, Option.some.injEq] at hx'
  subst hx'
  exact ⟨howner, q, tg, hq, hphase, rfl, hopen, hsent, hnext⟩

private theorem fresh_of_phase (hi : Streams serde h s) {q : Proxy.Request}
    (hq : s.server.requests r = some q) (hphase : q.phase.written = false)
    (hx : s.streams c st = some x) (howner : x.owner = .call r) : Fresh x := by
  refine hi.fresh r (fun q' hq' ↦ ?_) c st x hx howner
  rw [hq, Option.some.injEq] at hq'
  exact hq' ▸ hphase

/-- The step leaves a stream alone unless its request writes to it. -/
private theorem eq_of_move (hi : Streams serde h s) {v : Proxy.State} {a : Proxy.Act}
    (hs : Proxy.step serde config s.server a = some (v, es)) {y : Stream}
    (hx : s.streams c st = some x) (howner : x.owner = .call r) (hm : ServerMove es c st x y)
    (hmarks : .marked r c st ∉ es) (hshakes : .handshaken r c st ∉ es) : y = x := by
  cases hm with
  | same _ _ hy => exact hy
  | @marked r' hmem =>
    obtain ⟨howner', -⟩ := hi.owner_of_marked hs hx hmem
    rw [howner, Driver.Owner.call.injEq] at howner'
    exact absurd (howner' ▸ hmem) hmarks
  | @handshaken r' hmem =>
    obtain ⟨howner', -⟩ := hi.owner_of_handshaken hs hx hmem
    rw [howner, Driver.Owner.call.injEq] at howner'
    exact absurd (howner' ▸ hmem) hshakes

private theorem got (hi : Streams serde h s) (hr : (machine serde config routes).Reach h s)
    {tg : Proxy.Target} (hres : Proxy.openResult s.server r tg.client.handle = some (.ok st)) :
    ∃ x, s.streams tg.client.handle st = some x ∧ x.owner = .call r := by
  have hmem := Proxy.handed_of_openResult (server_reach hr) hres
  obtain ⟨x, hx⟩ := hi.every _ st _ hmem
  exact ⟨x, hx, hi.owner_eq hr hx hmem⟩

/-- What a step of the server makes of a stream that is there. -/
private theorem stream_of_move (hi : Streams serde h s)
    (hr : (machine serde config routes).Reach h s) {server : Proxy.State} {a : Proxy.Act}
    (hs : Proxy.step serde config s.server a = some (server, es)) (hx : s.streams c st = some x)
    {y : Stream} (hm : ServerMove es c st x y) : StreamInv serde server c y := by
  obtain ⟨⟨b, hb, hw⟩, hcons⟩ := hi.stream c st x hx
  have hsteps : (Control.machine serde config routes).Steps s.server.control
      (Proxy.controlEvents es) server.control := Proxy.control_steps (.single hs)
  refine ⟨⟨b, hb.steps hsteps, ?_⟩, ?_⟩
  · cases hm with
    | same _ _ hy => exact hy ▸ hw
    | @marked r hmem hy =>
      obtain ⟨howner, q, tg, hq, hphase, rfl, -⟩ := hi.owner_of_marked hs hx hmem
      obtain ⟨hsup, -⟩ := hi.marking r q tg st hq hphase
      have hfresh : Fresh x := hi.fresh_of_phase hq (by rw [hphase]; rfl) hx howner
      -- The entry says that the client reads markers, and so does the first frame.
      have htrue : b = true := hb.unique (hsup ▸ Proxy.supports_of_target (server_reach hr) hq
        (by rw [hphase]; rfl))
      obtain ⟨hopen, hsent⟩ := hfresh
      subst hy htrue
      rw [Stream.write, howner, hopen, hsent]
      rw [howner, hopen, hsent] at hw
      rw [hw.unhandled]
      exact .marked
    | handshaken hmem hy =>
      obtain ⟨howner, q, tg, hq, hphase, rfl, hopen, hsent, -⟩ := hi.owner_of_handshaken hs hx hmem
      have heq : b = tg.client.supportsHeartbeat :=
        hb.unique (Proxy.supports_of_target (server_reach hr) hq (by rw [hphase]; rfl))
      subst hy heq
      rw [hopen] at hw
      rw [howner, hsent, hw.unhandled, ← List.append_nil (marker _)]
      exact .http
  · cases hm with
    | same _ _ hy | handshaken _ hy => exact hy ▸ hcons
    | marked _ hy => exact hy ▸ hcons.recv _

section Server

variable {v : Proxy.State} {b' : Proxy.Act} (hi : Streams serde h s)
  (hr : (machine serde config routes).Reach h s)
  (hs : Proxy.step serde config s.server b' = some (v, es))

include hi hr hs

private theorem unopened (hx : s.streams c st = some x) : opened es c st = none := by
  refine opened_eq_none.mpr fun owner hmem ↦ ?_
  have hnodup := Control.handed_nodup (Proxy.control_reach ((server_reach hr).step hs)) c
  rw [Proxy.controlEvents_append, Control.handedStreams_append, List.map_append] at hnodup
  have hold : st ∈ (Control.handedStreams c (Proxy.controlEvents h)).map Prod.fst :=
    List.mem_map_of_mem (hi.handed c st x hx)
  have hnew : st ∈ (Control.handedStreams c (Proxy.controlEvents es)).map Prod.fst :=
    List.mem_map_of_mem hmem
  exact List.disjoint_of_nodup_append hnodup hold hnew

private theorem kept (hx : s.streams c st = some x) :
    ∃ y, onEvents es c st (s.streams c st) = some y ∧ ServerMove es c st x y := by
  rw [hx]
  exact onEvents_some (hi.unopened hr hs hx)

/-- A stream after the step has just been handed out or was there before. -/
private theorem before {y : Stream} (hy : onEvents es c st (s.streams c st) = some y) :
    (∃ owner, (st, owner) ∈ Control.handedStreams c (Proxy.controlEvents es) ∧ y = { owner }) ∨
    ∃ x, s.streams c st = some x ∧ ServerMove es c st x y := by
  cases hx : s.streams c st with
  | some x =>
    obtain ⟨y', hy', hm⟩ := hi.kept hr hs hx
    rw [hy, Option.some.injEq] at hy'
    exact .inr ⟨x, rfl, hy' ▸ hm⟩
  | none =>
    rw [hx, onEvents] at hy
    split at hy
    · rename_i owner hopened
      rw [Option.some.injEq] at hy
      exact .inl ⟨owner, handed_of_opened hopened, hy.symm⟩
    · cases hy

/-- **The step lemma, for a step of the server.** -/
private theorem server : Streams serde (h ++ es)
    { server := v, streams := fun c st ↦ onEvents es c st (s.streams c st) } := by
  have hr' := (server_reach hr).step hs
  refine ⟨fun c st y hy ↦ ?_, fun c st y hy ↦ ?_, fun c st o ho ↦ ?_,
    fun r hunwritten c st y hy howner ↦ ?_, fun r q' tg st hq' hphase' ↦ ?_,
    fun r q' tg st hq' hphase' ↦ ?_⟩
  · -- A stream is new, and then it is fresh, or it was there before.
    rcases hi.before hr hs hy with ⟨owner, hmem, rfl⟩ | ⟨x, hx, hm⟩
    · have hmem' : (st, owner) ∈ Control.handedStreams c (Proxy.controlEvents (h ++ es)) := by
        rw [Proxy.controlEvents_append, Control.handedStreams_append]
        exact List.mem_append_right _ hmem
      obtain ⟨b, hb, hprobe⟩ := Control.supports_of_handed (Proxy.control_reach hr') hmem'
      refine ⟨⟨b, hb, ?_⟩, .fresh⟩
      cases owner with
      | call r => exact .call
      | probe => exact .probe (hprobe rfl)
    · exact hi.stream_of_move hr hs hx hm
  · rw [Proxy.controlEvents_append, Control.handedStreams_append, List.mem_append]
    rcases hi.before hr hs hy with ⟨owner, hmem, rfl⟩ | ⟨x, hx, hm⟩
    · exact .inr hmem
    · exact .inl (hm.owner ▸ hi.handed c st x hx)
  · rw [Proxy.controlEvents_append, Control.handedStreams_append, List.mem_append] at ho
    rcases ho with ho | ho
    · obtain ⟨x, hx⟩ := hi.every c st o ho
      obtain ⟨y, hy, -⟩ := hi.kept hr hs hx
      exact ⟨y, hy⟩
    · cases hopened : opened es c st with
      | none => exact absurd ho (opened_eq_none.mp hopened o)
      | some owner => exact ⟨{ owner }, by simp only [onEvents, hopened]⟩
  · -- A request that has written nothing had written nothing before, so its streams are fresh.
    have hbefore : ∀ q, s.server.requests r = some q → q.phase.written = false := by
      intro q hq
      obtain ⟨q', hq', -, hm⟩ := Proxy.request_of_step hs hq
      refine Bool.eq_false_iff.mpr fun hw ↦ ?_
      cases (hunwritten q' hq').symm.trans (hm.written hw)
    rcases hi.before hr hs hy with ⟨owner, hmem, rfl⟩ | ⟨x, hx, hm⟩
    · exact ⟨rfl, rfl⟩
    · rw [hm.owner] at howner
      rw [hi.eq_of_move hs hx howner hm]
      · exact hi.fresh r hbefore c st x hx howner
      · intro hmem
        obtain ⟨-, q, tg, -, -, -, q', hq', hphase'⟩ := hi.owner_of_marked hs hx hmem
        have := hunwritten q' hq'
        rw [hphase'] at this
        cases this
      · intro hmem
        obtain ⟨-, q, tg, -, -, -, -, -, q', hq', hphase'⟩ := hi.owner_of_handshaken hs hx hmem
        have := hunwritten q' hq'
        rw [hphase'] at this
        cases this
  · obtain ⟨q, hq, hmove⟩ := Proxy.early_of_step hs hq' (by rw [hphase']; rfl)
    rw [hphase'] at hmove
    have hkept : ∀ x, s.streams tg.client.handle st = some x → x.owner = .call r →
        ∃ y, onEvents es tg.client.handle st (s.streams tg.client.handle st) = some y ∧
          y.owner = .call r := by
      intro x hx howner
      obtain ⟨y, hy, hm⟩ := hi.kept hr hs hx
      exact ⟨y, hy, hm.owner.trans howner⟩
    cases hmove with
    | same hp =>
      obtain ⟨hsup, x, hx, howner⟩ := hi.marking r q tg st hq hp.symm
      exact ⟨hsup, hkept x hx howner⟩
    | gotStream hp hres hp' =>
      split at hp'
      · rename_i hsup
        cases hp'
        obtain ⟨x, hx, howner⟩ := hi.got hr hres
        exact ⟨hsup, hkept x hx howner⟩
      · cases hp'
    | marked _ hp' | opening _ hp' => cases hp'
  · obtain ⟨q, hq, hmove⟩ := Proxy.early_of_step hs hq' (by rw [hphase']; rfl)
    rw [hphase'] at hmove
    cases hmove with
    | same hp =>
      obtain ⟨x, hx, howner, hrest⟩ := hi.handshaking r q tg st hq hp.symm
      obtain ⟨y, hy, hm⟩ := hi.kept hr hs hx
      refine ⟨y, hy, ?_⟩
      rw [hi.eq_of_move hs hx howner hm]
      · exact ⟨howner, hrest⟩
      · -- The owner is the one request that could write here, and it has not moved.
        intro hmem
        obtain ⟨-, q₀, tg₀, hq₀, hphase₀, -⟩ := hi.owner_of_marked hs hx hmem
        rw [hq, Option.some.injEq] at hq₀
        rw [← hq₀, ← hp] at hphase₀
        cases hphase₀
      · intro hmem
        obtain ⟨-, q₀, tg₀, -, -, -, -, -, q₁, hq₁, hphase₁⟩ := hi.owner_of_handshaken hs hx hmem
        rw [hq', Option.some.injEq] at hq₁
        rw [← hq₁, hphase'] at hphase₁
        cases hphase₁
    | gotStream hp hres hp' hes =>
      split at hp'
      · cases hp'
      · rename_i hsup
        cases hp'
        obtain ⟨x, hx, howner⟩ := hi.got hr hres
        obtain ⟨y, hy, hm⟩ := hi.kept hr hs hx
        have hfresh : Fresh x := hi.fresh_of_phase hq (by rw [hp]; rfl) hx howner
        refine ⟨y, hy, ?_⟩
        rw [hi.eq_of_move hs hx howner hm (by simp [hes]) (by simp [hes])]
        refine ⟨howner, hfresh.1, ?_⟩
        rw [hfresh.2, Bool.eq_false_iff.mpr hsup]
        rfl
    | marked hp hp' hes =>
      cases hp'
      obtain ⟨hsup, x, hx, howner⟩ := hi.marking r q _ _ hq hp
      obtain ⟨y, hy, hm⟩ := hi.kept hr hs hx
      have hfresh : Fresh x := hi.fresh_of_phase hq (by rw [hp]; rfl) hx howner
      refine ⟨y, hy, ?_⟩
      cases hm with
      | same hmarks => exact absurd (hes ▸ List.mem_singleton_self _) (hmarks r)
      | handshaken hmem => simp [hes] at hmem
      | marked _ hy =>
        subst hy
        refine ⟨howner, hfresh.1, ?_⟩
        rw [Stream.write, hfresh.2, hsup]
        rfl
    | opening _ hp' => cases hp'

end Server

private theorem setStream (hi : Streams serde h s) {y : Stream} (hx : s.streams c st = some x)
    (hinv : StreamInv serde s.server c y) (howner : y.owner = x.owner)
    (hsame : ∀ r, x.owner = .call r → x.httpOpen = false →
      y.httpOpen = x.httpOpen ∧ y.sent = x.sent) :
    Streams serde h (s.setStream c st y) := by
  -- A stream after the step was there before, and has not been written to by its request.
  have hbefore : ∀ {c' st' z}, (s.setStream c st y).streams c' st' = some z →
      ∃ z₀, s.streams c' st' = some z₀ ∧ z.owner = z₀.owner ∧ (z = z₀ ∨ c' = c ∧ z = y) ∧
        ∀ r, z₀.owner = .call r → z₀.httpOpen = false →
          z.httpOpen = z₀.httpOpen ∧ z.sent = z₀.sent := by
    intro c' st' z hz
    rw [setStream_streams] at hz
    split at hz
    · rename_i heq
      obtain ⟨rfl, rfl⟩ := heq
      cases hz
      exact ⟨x, hx, howner, .inr ⟨rfl, rfl⟩, hsame⟩
    · exact ⟨z, hz, rfl, .inl rfl, fun _ _ _ ↦ ⟨rfl, rfl⟩⟩
  have hafter : ∀ {c' st' z₀}, s.streams c' st' = some z₀ →
      ∃ z, (s.setStream c st y).streams c' st' = some z := by
    intro c' st' z₀ hz₀
    rw [setStream_streams]
    split
    · exact ⟨y, rfl⟩
    · exact ⟨z₀, hz₀⟩
  refine ⟨fun c' st' z hz ↦ ?_, fun c' st' z hz ↦ ?_, fun c' st' o ho ↦ ?_,
    fun r hunwritten c' st' z hz hzo ↦ ?_, fun r q tg st' hq hphase ↦ ?_,
    fun r q tg st' hq hphase ↦ ?_⟩
  · obtain ⟨z₀, hz₀, -, rfl | ⟨rfl, rfl⟩, -⟩ := hbefore hz
    · exact hi.stream c' st' z hz₀
    · exact hinv
  · obtain ⟨z₀, hz₀, hzo, -⟩ := hbefore hz
    exact hzo ▸ hi.handed c' st' z₀ hz₀
  · obtain ⟨z₀, hz₀⟩ := hi.every c' st' o ho
    exact hafter hz₀
  · obtain ⟨z₀, hz₀, hzo', -, hkeep⟩ := hbefore hz
    rw [hzo'] at hzo
    obtain ⟨hopen, hsent⟩ := hi.fresh r hunwritten c' st' z₀ hz₀ hzo
    obtain ⟨hopen', hsent'⟩ := hkeep r hzo hopen
    exact ⟨hopen'.trans hopen, hsent'.trans hsent⟩
  · obtain ⟨hsup, z₀, hz₀, hzo⟩ := hi.marking r q tg st' hq hphase
    obtain ⟨z, hz⟩ := hafter hz₀
    obtain ⟨z₁, hz₁, hzo', -⟩ := hbefore hz
    cases hz₀.symm.trans hz₁
    exact ⟨hsup, z, hz, hzo'.trans hzo⟩
  · obtain ⟨z₀, hz₀, hzo, hopen, hsent⟩ := hi.handshaking r q tg st' hq hphase
    obtain ⟨z, hz⟩ := hafter hz₀
    obtain ⟨z₁, hz₁, hzo', -, hkeep⟩ := hbefore hz
    cases hz₀.symm.trans hz₁
    obtain ⟨hopen', hsent'⟩ := hkeep r hzo hopen
    exact ⟨z, hz, hzo'.trans hzo, hopen'.trans hopen, hsent'.trans hsent⟩

/-- **The step lemma.** -/
theorem step (hi : Streams serde h s) (hr : (machine serde config routes).Reach h s)
    (hstep : step serde config s a = some (t, es)) : Streams serde (h ++ es) t := by
  cases step_transition hstep with
  | server hs => exact hi.server hr hs
  | @httpWrite c st bs x hx hopen =>
    rw [List.append_nil]
    obtain ⟨⟨b, hb, hw⟩, hcons⟩ := hi.stream c st x hx
    refine hi.setStream hx ⟨⟨b, hb, ?_⟩, hcons.recv bs⟩ rfl fun r _ hclosed ↦ ?_
    · rw [hopen] at hw
      rw [Stream.write, hopen]
      generalize x.owner = owner, x.sent = sent, x.http = http at hw
      cases hw
      rw [List.append_assoc]
      exact .http
    · rw [hopen] at hclosed
      cases hclosed
  | @probeWrite c st x hx howner hsent =>
    rw [List.append_nil]
    obtain ⟨⟨b, hb, hw⟩, hcons⟩ := hi.stream c st x hx
    refine hi.setStream hx ⟨⟨b, hb, ?_⟩, hcons.recv _⟩ rfl fun r hcall ↦ ?_
    · rw [Stream.write, howner, hsent]
      rw [howner, hsent] at hw
      generalize x.httpOpen = httpOpen, x.http = http at hw
      cases hw with
      | probe htrue => exact .probed htrue
    · rw [howner] at hcall
      cases hcall
  | @tunnel c st x b tunnel hx hs =>
    rw [List.append_nil]
    obtain ⟨hw, hcons⟩ := hi.stream c st x hx
    exact hi.setStream hx ⟨hw, hcons.step hs⟩ rfl fun _ _ _ ↦ ⟨rfl, rfl⟩

/-- **The run lemma.** -/
theorem of_reach (hr : (machine serde config routes).Reach h s) : Streams serde h s :=
  hr.invariant start fun _ _ _ _ _ hr hi hstep ↦ hi.step hr hstep

end Streams

/-! ## What reaches the local service -/

/-- What is true of a stream of a session, by the version in the request of the session. -/
structure StreamSound (auth : AuthReq) (x : Stream) : Prop where
  /-- What the local service has got, and then what the client has not read, is what the HTTP
  connection has written. -/
  proxied : auth.version ≠ none → ∀ r, x.owner = .call r →
    x.tunnel.task ≠ .answering ∧ x.tunnel.task ≠ .answered ∧
      ∀ passed, x.tunnel.passed = some passed → passed ++ x.tunnel.inbox = x.http
  /-- The client answers one byte at most, and connects to nothing. -/
  heartbeat : auth.version ≠ none → x.owner = .probe →
    x.tunnel.passed = none ∧ x.tunnel.task ≠ .connecting ∧ x.tunnel.task ≠ .copying ∧
      (x.tunnel.back = [] ∨ x.tunnel.task = .answered ∧ x.tunnel.back = [streamTypeHeartbeat])
  legacy : auth.version = none → x.owner ≠ .probe ∧ x.sent = x.http
  /-- A stream whose HTTP connection writes has its marker. -/
  marked : auth.version ≠ none → x.httpOpen = true → x.sent = streamTypeProxy :: x.http
  probed : x.owner = .probe → x.sent = [] ∨ x.sent = [streamTypeHeartbeat]
  conserves : x.tunnel.Conserves x.sent

theorem StreamInv.sound {server : Proxy.State} {conn : Control.Conn} {auth : AuthReq}
    (hi : StreamInv serde server c x) (hc : server.control.conns c = some conn)
    (hf : Control.FirstFrame serde conn auth) : StreamSound auth x := by
  obtain ⟨⟨b, hb, hw⟩, hcons⟩ := hi
  have hsup : b = auth.supportsHeartbeat := hb.unique ⟨conn, auth, hc, hf, rfl⟩
  have hversion : auth.version ≠ none → b = true := by
    intro hv
    rw [hsup, AuthReq.supportsHeartbeat]
    exact Option.isSome_iff_ne_none.mpr hv
  obtain ⟨owner, httpOpen, sent, http, tunnel⟩ := x
  replace hw : Written b owner httpOpen sent http := hw
  refine ⟨?_, ?_, ?_, ?_, ?_, hcons⟩
  · rintro hv r rfl
    have hsent : ∀ m rest, sent = m :: rest → m = streamTypeProxy ∧ rest = http := by
      cases hversion hv
      rintro m rest rfl
      cases hw with
      | marked | http => exact ⟨rfl, rfl⟩
    obtain ⟨h₁, h₂, h₃⟩ := hcons.proxied fun m rest heq ↦ by rw [(hsent m rest heq).1]; decide
    refine ⟨h₁, h₂, fun passed hpassed ↦ ?_⟩
    obtain ⟨m, heq⟩ := h₃ passed hpassed
    exact (hsent m _ heq).2
  · rintro hv rfl
    refine hcons.heartbeat fun m rest heq ↦ ?_
    cases hw with
    | probe => cases heq
    | probed => exact (List.cons.inj heq).1.symm
  · intro hv
    have hfalse : b = false := by rw [hsup, AuthReq.supportsHeartbeat, hv]; rfl
    subst hfalse
    cases hw with
    | call | marked | http => exact ⟨fun h ↦ (by cases h), rfl⟩
    | probe htrue | probed htrue => cases htrue
  · rintro hv rfl
    cases hversion hv
    cases hw with
    | http => rfl
  · rintro rfl
    cases hw with
    | probe => exact .inl rfl
    | probed => exact .inr rfl

/-- What the client's task can do, it can do in the system. -/
theorem steps_of_run {as : List TunnelStream.Act} {tunnel : TunnelStream}
    (hx : s.streams c st = some x) (hrun : x.tunnel.run as = some tunnel) :
    ∃ t, (machine serde config routes).Steps s [] t ∧
      t.streams c st = some { x with tunnel } := by
  induction as generalizing s x with
  | nil =>
    rw [TunnelStream.run, List.foldlM_nil, Option.pure_def, Option.some.injEq] at hrun
    exact ⟨s, .refl s, hrun ▸ hx⟩
  | cons a as ih =>
    rw [TunnelStream.run, List.foldlM_cons, Option.bind_eq_bind, Option.bind_eq_some_iff] at hrun
    obtain ⟨tunnel₁, hs, hrun⟩ := hrun
    have hstep : (machine serde config routes).step s (.tunnel c st a) =
        some (s.setStream c st { x with tunnel := tunnel₁ }, []) := by
      simp only [machine, step, hx, hs]
    have hx₁ : (s.setStream c st { x with tunnel := tunnel₁ }).streams c st =
        some { x with tunnel := tunnel₁ } := if_pos ⟨rfl, rfl⟩
    obtain ⟨t, hst, ht⟩ := ih hx₁ hrun
    exact ⟨t, Machine.Steps.trans (.single hstep) hst, ht⟩

/-- Streams between the server and its clients, in the state reached and in what can come next. -/
structure StreamsSound (serde : SerdeJson) (config : ServerConfig) (routes : RouteFiles)
    (h : List Proxy.Event) (s : State) : Prop where
  /-- The streams are those that the drivers have handed out, to requests and to probes. -/
  handed : ∀ c st o, (st, o) ∈ Control.handedStreams c (Proxy.controlEvents h) ↔
    ∃ x, s.streams c st = some x ∧ x.owner = o
  /-- The session of a stream has been opened by a request. -/
  first : ∀ c st x, s.streams c st = some x → ∃ conn auth,
    s.server.control.conns c = some conn ∧ Control.FirstFrame serde conn auth
  stream : ∀ c conn auth st x, s.server.control.conns c = some conn →
    Control.FirstFrame serde conn auth → s.streams c st = some x → StreamSound auth x
  /-- A session without a version gets no probe. -/
  silent : ∀ c conn auth st, s.server.control.conns c = some conn →
    Control.FirstFrame serde conn auth → auth.version = none →
    (st, .probe) ∉ Control.handedStreams c (Proxy.controlEvents h)
  /-- What the HTTP connection has written can still reach the local service, all of it. -/
  delivers : ∀ c conn auth st x, s.server.control.conns c = some conn →
    Control.FirstFrame serde conn auth → auth.version ≠ none → s.streams c st = some x →
    x.httpOpen = true → x.tunnel.task = .awaiting →
    ∃ t y, (machine serde config routes).Steps s [] t ∧ t.streams c st = some y ∧
      y.http = x.http ∧ y.tunnel.passed = some x.http ∧ y.tunnel.inbox = []
  /-- A marker of a heartbeat can still be answered. -/
  answers : ∀ c st x, s.streams c st = some x → x.owner = .probe → x.sent ≠ [] →
    x.tunnel.task = .awaiting →
    ∃ t y, (machine serde config routes).Steps s [] t ∧ t.streams c st = some y ∧
      y.tunnel.back = [streamTypeHeartbeat]

/-- **No byte is added or lost between the HTTP connection and the local service**, and heartbeats
stay away from it, on every stream of every session in every reachable state. -/
theorem streams_sound (serde : SerdeJson) (config : ServerConfig) (routes : RouteFiles)
    (h : List Proxy.Event) (s : State) (hr : (machine serde config routes).Reach h s) :
    StreamsSound serde config routes h s := by
  have hi : Streams serde h s := .of_reach hr
  have hfirst : ∀ c st x, s.streams c st = some x → ∃ conn auth,
      s.server.control.conns c = some conn ∧ Control.FirstFrame serde conn auth := by
    intro c st x hx
    obtain ⟨b, ⟨conn, auth, hc, hf, -⟩, -⟩ := (hi.stream c st x hx).written
    exact ⟨conn, auth, hc, hf⟩
  refine ⟨fun c st o ↦ ⟨fun ho ↦ ?_, ?_⟩, fun c st x hx ↦ ?_, fun c conn auth st x hc hf hx ↦
    (hi.stream c st x hx).sound hc hf, fun c conn auth st hc hf hv hmem ↦ ?_,
    fun c conn auth st x hc hf hv hx hopen htask ↦ ?_, fun c st x hx howner hne htask ↦ ?_⟩
  · obtain ⟨x, hx⟩ := hi.every c st o ho
    exact ⟨x, hx, hi.owner_eq hr hx ho⟩
  · rintro ⟨x, hx, rfl⟩
    exact hi.handed c st x hx
  · exact hfirst c st x hx
  · obtain ⟨x, hx⟩ := hi.every c st _ hmem
    exact (((hi.stream c st x hx).sound hc hf).legacy hv).1 (hi.owner_eq hr hx hmem)
  · have hx' := (hi.stream c st x hx).sound hc hf
    obtain ⟨hinbox, hpassed, hback⟩ := hx'.conserves.awaiting htask
    rw [hx'.marked hv hopen] at hinbox
    obtain ⟨tunnel, hrun, hall, hnil⟩ := TunnelStream.run_proxied hinbox htask (by decide)
    obtain ⟨t, hst, ht⟩ := steps_of_run hx hrun
    exact ⟨t, _, hst, ht, rfl, hall, hnil⟩
  · obtain ⟨conn, auth, hc, hf⟩ := hfirst c st x hx
    have hx' := (hi.stream c st x hx).sound hc hf
    obtain ⟨hinbox, hpassed, hback⟩ := hx'.conserves.awaiting htask
    rw [(hx'.probed howner).resolve_left hne] at hinbox
    obtain ⟨tunnel, hrun, hanswer⟩ := TunnelStream.run_heartbeat hinbox htask hback
    obtain ⟨t, hst, ht⟩ := steps_of_run hx hrun
    exact ⟨t, _, hst, ht, hanswer⟩

/-- A request is forwarded whose first byte looks like the marker of a heartbeat. -/
def proxiedRun : List Act :=
  (Control.answerSegments 0 ⟨"app", "t", some "1"⟩ ++ Control.registerSegments 0 0).map
      (fun a ↦ .server (.control a)) ++
    [.server (.arrive 0 (Proxy.hostRequest Proxy.appHost)), .server (.limit 0 0),
      .server (.lookup 0), .server (.openStream 0), .server (.control (.driver 0 (.send 0))),
      .server (.control (.driver 0 .recvCmd)), .server (.control (.driver 0 .outboundOk)),
      .server (.opened 0), .server (.mark 0 true), .server (.handshake 0 true),
      .httpWrite 0 0 [streamTypeHeartbeat, 71], .tunnel 0 0 .readMarker,
      .tunnel 0 0 (.connect true), .tunnel 0 0 (.copy 2)]

/-- A probe is started, and answered. -/
def probedRun : List Act :=
  [.server (.control (.driver 0 .elapse)), .server (.control (.driver 0 .tick)),
    .server (.control (.driver 0 .outboundOk)), .probeWrite 0 1, .tunnel 0 1 .readMarker,
    .tunnel 0 1 (.answer true), .server (.control (.driver 0 (.probeDone 1 (.ok ()))))]

/-- A request and a probe on the streams of one session. -/
theorem streams_sound_run : ∃ h s,
    (machine compactSerde Control.sampleConfig fun _ ↦ none).run
      (machine compactSerde Control.sampleConfig fun _ ↦ none).init (proxiedRun ++ probedRun) =
        some (s, h) ∧
    (s.streams 0 0).map (fun x ↦ x.tunnel.passed) = some (some [streamTypeHeartbeat, 71]) ∧
    (s.streams 0 1).map (fun x ↦ x.tunnel.back) = some [streamTypeHeartbeat] ∧
    StreamsSound compactSerde Control.sampleConfig (fun _ ↦ none) h s := by
  have hrun : ((machine compactSerde Control.sampleConfig fun _ ↦ none).run
      (machine compactSerde Control.sampleConfig fun _ ↦ none).init (proxiedRun ++ probedRun)).map
      (fun p ↦ decide ((p.1.streams 0 0).map (fun x ↦ x.tunnel.passed) =
          some (some [streamTypeHeartbeat, 71]) ∧
        (p.1.streams 0 1).map (fun x ↦ x.tunnel.back) = some [streamTypeHeartbeat])) =
      some true := by decide +kernel
  obtain ⟨⟨s, h⟩, hsh, heq⟩ := Option.map_eq_some_iff.mp hrun
  obtain ⟨hpassed, hback⟩ := of_decide_eq_true heq
  exact ⟨h, s, hsh, hpassed, hback, streams_sound _ _ _ h s (.of_run hsh)⟩

end Session

end ZoTunnel
