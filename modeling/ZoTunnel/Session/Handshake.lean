import ZoTunnel.Client.MaskedToken
import ZoTunnel.Client.Reconnect
import ZoTunnel.Server.Answers

/-!
# The handshake

`run_session_with_status` of the client and `handle_client` of the server meet over one connection.
The client writes its request and reads one frame. The server reads one frame and writes its answer.
Then both of them hand the connection over to yamux, each at a point of its own, while bytes of the
other side may already be there.

Any number of clients are put next to the control channel here, with the bytes in between. What a
side has received is a prefix of what the other side has written, and an action delivers more of it,
in pieces of any length. Connections without a client of this kind stay in the hands of whoever
sends bytes, as in the control channel alone.

So the two sides never exchange anything but two frames and the bytes of yamux. `agreed` says that
they agree: what a client makes of its answer is what the server has decided on the request of this
very client, and yamux is not missing a byte on either side.
-/

namespace ZoTunnel

namespace Handshake

/-! ## The parties -/

/-- Who a client says it is. -/
structure Identity where
  clientId : String
  token : String
  deriving DecidableEq, Repr

/-- What `run_session_with_status` writes. -/
def Identity.authReq (i : Identity) : AuthReq where
  clientId := i.clientId
  token := i.token
  version := some Client.pkgVersion

/-- Where `run_session_with_status` stands. -/
inductive Phase
  | sending
  | awaiting
  /-- `read_message` has found a frame, or something that is none. -/
  | answered (result : Except ProtocolError Message)
  | unsent (error : String)
  /-- The connection has failed or has ended before there was a frame. -/
  | lost (error : String)

/-- A client at one end of a connection. -/
structure Peer where
  identity : Identity
  phase : Phase := .sending
  wrote : Bytes := []
  /-- The bytes of `wrote` that its yamux has written. -/
  muxOut : Bytes := []
  muxIn : Bytes := []
  got : Bytes := []

/-- The server, and the clients. -/
structure State where
  server : Control.State
  peers : ConnId → Option Peer

inductive Act
  /-- An action of the control channel. What arrives from a client is not among them. -/
  | server (a : Control.Act)
  | connect (c : ConnId) (identity : Identity)
  | writeReq (c : ConnId)
  /-- `write_message` of the request fails after `n` bytes. -/
  | writeFail (c : ConnId) (n : ℕ) (error : String)
  | readRes (c : ConnId)
  | readFail (c : ConnId) (error : String)
  | clientMux (c : ConnId) (bs : Bytes)
  | serverMux (c : ConnId) (bs : Bytes)
  | deliver (c : ConnId) (n : ℕ)
  | arrive (c : ConnId) (n : ℕ)

/-- Replace a client. -/
def State.setPeer (s : State) (c : ConnId) (p : Peer) : State :=
  { s with peers := Function.update s.peers c (some p) }

/-- All bytes that `handle_client` has written on a connection. -/
def State.outbound (s : State) (c : ConnId) : Bytes :=
  match s.server.conns c with
  | some conn => conn.outbound
  | none => []

/-- The driver of a connection was spawned. -/
def State.muxed (s : State) (c : ConnId) : Bool :=
  match s.server.conns c with
  | some conn => conn.driver.isSome
  | none => false

/-- The answer lets the client go on to yamux. -/
def Phase.admitted : Phase → Bool
  | .answered (.ok (.authRes res)) => res.success
  | _ => false

/-- The attempt to connect, as the loop around it sees it. -/
def Phase.attempt : Phase → Reconnect.Attempt
  | .answered (.ok m) => ⟨.ok (), .ok (), .ok (), .ok m⟩
  | .answered (.error e) => ⟨.ok (), .ok (), .ok (), .error e.text⟩
  | .unsent e => ⟨.ok (), .ok (), .error e, .error e⟩
  | .lost e => ⟨.ok (), .ok (), .ok (), .error e⟩
  | .sending | .awaiting => ⟨.ok (), .ok (), .ok (), .error ""⟩

/-- What is under way next: `n` bytes behind those that have come in. -/
def nextBytes (sent received : Bytes) (n : ℕ) : Bytes := (sent.drop received.length).take n

variable (serde : SerdeJson) (config : ServerConfig)

/-- The actions of the control channel that are left to it where there is a client. -/
def serverStep (s : State) (a : Control.Act) : Option (State × List Control.Event) :=
  match Control.step serde config s.server a with
  | none => none
  | some (server, es) => some ({ s with server }, es)

/-- One step of a client, or of the bytes on their way to it and from it. -/
def peerStep (s : State) (c : ConnId) (p : Peer) : Act → Option (State × List Control.Event)
  | .writeReq _ =>
    match p.phase with
    | .sending =>
      match writeMessage serde (.authReq p.identity.authReq) with
      | .error e => some (s.setPeer c { p with phase := .unsent e.text }, [])
      | .ok frame => some (s.setPeer c { p with phase := .awaiting, wrote := frame }, [])
    | _ => none
  | .writeFail _ n e =>
    match p.phase with
    | .sending =>
      match writeMessage serde (.authReq p.identity.authReq) with
      | .error _ => none
      | .ok frame => some (s.setPeer c { p with phase := .unsent e, wrote := frame.take n }, [])
    | _ => none
  | .readRes _ =>
    match p.phase with
    | .awaiting =>
      match (readMessage serde p.got).1 with
      | .ok m => some (s.setPeer c { p with phase := .answered (.ok m) }, [])
      | .error e =>
        if e.isTruncated then none
        else some (s.setPeer c { p with phase := .answered (.error e) }, [])
    | _ => none
  | .readFail _ e =>
    match p.phase with
    | .awaiting => some (s.setPeer c { p with phase := .lost e }, [])
    | _ => none
  | .clientMux _ bs =>
    if p.phase.admitted then
      some (s.setPeer c { p with wrote := p.wrote ++ bs, muxOut := p.muxOut ++ bs }, [])
    else none
  | .serverMux _ bs =>
    if s.muxed c then some (s.setPeer c { p with muxIn := p.muxIn ++ bs }, []) else none
  | .deliver _ n =>
    match s.server.conns c with
    | none => none
    | some conn => serverStep serde config s (.recv c (nextBytes p.wrote conn.inbound n))
  | .arrive _ n =>
    some (s.setPeer c { p with got := p.got ++ nextBytes (s.outbound c ++ p.muxIn) p.got n }, [])
  | .server _ | .connect _ _ => none

/-- The connection of an action of a client. -/
def Act.conn : Act → ConnId
  | server a => a.conn
  | connect c _ | writeReq c | writeFail c _ _ | readRes c | readFail c _ | clientMux c _
  | serverMux c _ | deliver c _ | arrive c _ => c

def step (s : State) (a : Act) : Option (State × List Control.Event) :=
  match a with
  | .server (.recv c bs) =>
    if s.peers c = none then serverStep serde config s (.recv c bs) else none
  | .server a => serverStep serde config s a
  | .connect c identity =>
    if s.server.conns c = none ∧ s.peers c = none then some (s.setPeer c { identity }, []) else none
  | a =>
    match s.peers a.conn with
    | none => none
    | some p => peerStep serde config s a.conn p a

/-- The two sides as one machine. The events are those of the server. -/
def machine (routes : RouteFiles) : Machine State Act Control.Event where
  init := ⟨Control.start routes, fun _ ↦ none⟩
  step := step serde config

/-! ## Bytes on their way -/

theorem prefix_nextBytes {sent received : Bytes} (hpre : received <+: sent) (n : ℕ) :
    received ++ nextBytes sent received n <+: sent := by
  obtain ⟨rest, rfl⟩ := hpre
  rw [nextBytes, List.drop_left]
  exact (List.prefix_append_right_inj received).mpr (List.take_prefix n rest)

/-- **What a reader makes of a stream that has come in as far as it has.** If the writer began with
the frame of a message, the reader finds this message, and behind it as much as there is. -/
theorem readMessage_of_prefix {serde : SerdeJson} {m : Message} {frame tail got rest : Bytes}
    {r : Except ProtocolError Message} (hframe : ∀ s, readMessage serde (frame ++ s) = (.ok m, s))
    (hgot : got <+: frame ++ tail) (hread : readMessage serde got = (r, rest))
    (hr : ∀ e, r = .error e → e.isTruncated = false) : r = .ok m ∧ rest <+: tail := by
  obtain ⟨bs, hbs⟩ := hgot
  have heq : readMessage serde (frame ++ tail) = (r, rest ++ bs) :=
    hbs ▸ readMessage_append hread hr bs
  rw [hframe, Prod.mk.injEq] at heq
  exact ⟨heq.1.symm, bs, heq.2.symm⟩

theorem setPeer_peers (s : State) (c c' : ConnId) (p : Peer) :
    (s.setPeer c p).peers c' = if c' = c then some p else s.peers c' :=
  Function.update_apply ..

/-! ## What a step can do -/

/-- The request has been written in full. -/
def Phase.asked : Phase → Bool
  | .awaiting | .answered _ | .lost _ => true
  | .sending | .unsent _ => false

/-- A step of the client at connection `c`, or of the bytes that come to it. -/
inductive PeerMove (s : State) (c : ConnId) (p : Peer) : Peer → Prop
  | wrote {frame : Bytes} (hphase : p.phase = .sending)
      (hframe : writeMessage serde (.authReq p.identity.authReq) = .ok frame) :
      PeerMove s c p { p with phase := .awaiting, wrote := frame }
  | unsent {bs : Bytes} {e : String} (hphase : p.phase = .sending)
      (hbs : ∀ frame, writeMessage serde (.authReq p.identity.authReq) = .ok frame → bs <+: frame) :
      PeerMove s c p { p with phase := .unsent e, wrote := bs }
  | read {r : Except ProtocolError Message} (hphase : p.phase = .awaiting)
      (hread : (readMessage serde p.got).1 = r) (hr : ∀ e, r = .error e → e.isTruncated = false) :
      PeerMove s c p { p with phase := .answered r }
  | lost {e : String} (hphase : p.phase = .awaiting) : PeerMove s c p { p with phase := .lost e }
  | clientMux {bs : Bytes} (hphase : p.phase.admitted = true) :
      PeerMove s c p { p with wrote := p.wrote ++ bs, muxOut := p.muxOut ++ bs }
  | serverMux {bs : Bytes} (hmuxed : s.muxed c = true) :
      PeerMove s c p { p with muxIn := p.muxIn ++ bs }
  | arrive {n : ℕ} :
      PeerMove s c p { p with got := p.got ++ nextBytes (s.outbound c ++ p.muxIn) p.got n }

/-- What a step can do. -/
inductive Transition (s : State) : State → List Control.Event → Prop
  | server {a : Control.Act} {server : Control.State} {es : List Control.Event}
      (hstep : Control.step serde config s.server a = some (server, es))
      (ha : ∀ c bs, a = .recv c bs → s.peers c = none) : Transition s { s with server } es
  | deliver {c : ConnId} {p : Peer} {conn : Control.Conn} {n : ℕ} {server : Control.State}
      {es : List Control.Event} (hp : s.peers c = some p) (hc : s.server.conns c = some conn)
      (hstep : Control.step serde config s.server (.recv c (nextBytes p.wrote conn.inbound n)) =
        some (server, es)) : Transition s { s with server } es
  | connect {c : ConnId} {identity : Identity} (hc : s.server.conns c = none)
      (hp : s.peers c = none) : Transition s (s.setPeer c { identity }) []
  | peer {c : ConnId} {p p' : Peer} (hp : s.peers c = some p) (hm : PeerMove serde s c p p') :
      Transition s (s.setPeer c p') []

variable {serde config} {routes : RouteFiles} {h : List Control.Event} {s t : State} {a : Act}
  {es : List Control.Event} {c : ConnId} {p : Peer}

private theorem serverStep_eq_some {b : Control.Act}
    (hstep : serverStep serde config s b = some (t, es)) :
    ∃ server, Control.step serde config s.server b = some (server, es) ∧
      t = { s with server } := by
  rw [serverStep] at hstep
  split at hstep
  · cases hstep
  · rename_i server es' hb
    obtain ⟨rfl, rfl⟩ := Prod.mk.inj (Option.some.inj hstep)
    exact ⟨server, hb, rfl⟩

private theorem peerStep_transition (hp : s.peers c = some p)
    (hstep : peerStep serde config s c p a = some (t, es)) : Transition serde config s t es := by
  cases a with
  | server | connect => cases hstep
  | writeReq c' =>
    simp only [peerStep] at hstep
    split at hstep
    · rename_i hphase
      split at hstep <;> obtain ⟨rfl, rfl⟩ := Prod.mk.inj (Option.some.inj hstep)
      · rename_i e hframe
        exact .peer hp (.unsent hphase fun frame hw ↦ by simp [hframe] at hw)
      · rename_i frame hframe
        exact .peer hp (.wrote hphase hframe)
    · cases hstep
  | writeFail c' n e =>
    simp only [peerStep] at hstep
    split at hstep
    · rename_i hphase
      split at hstep
      · cases hstep
      · rename_i frame hframe
        obtain ⟨rfl, rfl⟩ := Prod.mk.inj (Option.some.inj hstep)
        refine .peer hp (.unsent hphase fun frame' hw ↦ ?_)
        rw [← Except.ok.inj (hframe.symm.trans hw)]
        exact List.take_prefix n frame
    · cases hstep
  | readRes c' =>
    simp only [peerStep] at hstep
    split at hstep
    · rename_i hphase
      split at hstep
      · rename_i m hread
        obtain ⟨rfl, rfl⟩ := Prod.mk.inj (Option.some.inj hstep)
        exact .peer hp (.read hphase hread fun e he ↦ by cases he)
      · rename_i e hread
        split at hstep
        · cases hstep
        · rename_i htr
          obtain ⟨rfl, rfl⟩ := Prod.mk.inj (Option.some.inj hstep)
          refine .peer hp (.read hphase hread fun e' he ↦ ?_)
          rw [← Except.error.inj he]
          exact Bool.eq_false_iff.mpr htr
    · cases hstep
  | readFail c' e =>
    simp only [peerStep] at hstep
    split at hstep
    · rename_i hphase
      obtain ⟨rfl, rfl⟩ := Prod.mk.inj (Option.some.inj hstep)
      exact .peer hp (.lost hphase)
    · cases hstep
  | clientMux c' bs =>
    simp only [peerStep] at hstep
    split at hstep
    · rename_i hphase
      obtain ⟨rfl, rfl⟩ := Prod.mk.inj (Option.some.inj hstep)
      exact .peer hp (.clientMux hphase)
    · cases hstep
  | serverMux c' bs =>
    simp only [peerStep] at hstep
    split at hstep
    · rename_i hmuxed
      obtain ⟨rfl, rfl⟩ := Prod.mk.inj (Option.some.inj hstep)
      exact .peer hp (.serverMux hmuxed)
    · cases hstep
  | deliver c' n =>
    simp only [peerStep] at hstep
    split at hstep
    · cases hstep
    · rename_i conn hc
      obtain ⟨server, hb, rfl⟩ := serverStep_eq_some hstep
      exact .deliver hp hc hb
  | arrive c' n =>
    obtain ⟨rfl, rfl⟩ := Prod.mk.inj (Option.some.inj hstep)
    exact .peer hp .arrive

/-- **Inversion.** Every step is one of the transitions. -/
theorem step_transition (hstep : step serde config s a = some (t, es)) :
    Transition serde config s t es := by
  cases a with
  | server b =>
    cases b with
    | recv c bs =>
      simp only [step] at hstep
      split at hstep
      · rename_i hp
        obtain ⟨server, hb, rfl⟩ := serverStep_eq_some hstep
        refine .server hb fun c' bs' heq ↦ ?_
        obtain ⟨rfl, -⟩ := Control.Act.recv.inj heq
        exact hp
      · cases hstep
    | _ =>
      obtain ⟨server, hb, rfl⟩ := serverStep_eq_some hstep
      exact .server hb fun c' bs' heq ↦ by cases heq
  | connect c identity =>
    simp only [step] at hstep
    split at hstep
    · rename_i hg
      obtain ⟨rfl, rfl⟩ := Prod.mk.inj (Option.some.inj hstep)
      exact .connect hg.1 hg.2
    · cases hstep
  | _ =>
    simp only [step] at hstep
    split at hstep
    · cases hstep
    · rename_i p hp
      exact peerStep_transition hp hstep

/-- **The server does not notice the clients.** What it does is a run of the control channel. -/
theorem reach_server (hr : (machine serde config routes).Reach h s) :
    (Control.machine serde config routes).Reach h s.server := by
  have hst := hr.project (N := Control.machine serde config routes) State.server (fun e ↦ [e])
    fun s a t es hstep ↦ by
      rw [List.flatMap_singleton']
      cases step_transition hstep with
      | server hb | deliver _ _ hb => exact .single hb
      | connect | peer => exact .refl _
  rwa [List.flatMap_singleton'] at hst

/-! ## The invariant of a client -/

variable (serde) in
/-- What a client and its connection have behind them. -/
structure PeerInv (s : State) (c : ConnId) (p : Peer) : Prop where
  fresh : p.phase = .sending → p.wrote = [] ∧ p.muxOut = []
  sent : ∀ frame, writeMessage serde (.authReq p.identity.authReq) = .ok frame →
    p.wrote <+: frame ++ p.muxOut ∧ (p.phase.asked = true → p.wrote = frame ++ p.muxOut)
  inbound : ∀ conn, s.server.conns c = some conn → conn.inbound <+: p.wrote
  got : p.got <+: s.outbound c ++ p.muxIn
  muxed : p.muxIn ≠ [] → s.muxed c = true
  answered : ∀ r, p.phase = .answered r → (readMessage serde p.got).1 = r ∧
    ∀ e, r = .error e → e.isTruncated = false

theorem asked_of_admitted {phase : Phase} (hphase : phase.admitted = true) :
    phase.asked = true := by
  cases phase with
  | answered => rfl
  | _ => cases hphase

namespace PeerInv

theorem connect (identity : Identity) (hc : s.server.conns c = none) :
    PeerInv serde s c { identity } where
  fresh _ := ⟨rfl, rfl⟩
  sent frame _ := ⟨List.nil_prefix, fun h ↦ (by cases h)⟩
  inbound conn hc' := by
    rw [hc] at hc'
    cases hc'
  got := List.nil_prefix
  muxed hne := absurd rfl hne
  answered r hr := by cases hr

theorem setPeer (hi : PeerInv serde s c p) (c' : ConnId) (p' : Peer) :
    PeerInv serde (s.setPeer c' p') c p := ⟨hi.fresh, hi.sent, hi.inbound, hi.got, hi.muxed,
  hi.answered⟩

theorem move {p' : Peer} (hi : PeerInv serde s c p) (hm : PeerMove serde s c p p') :
    PeerInv serde s c p' := by
  cases hm with
  | @wrote frame hphase hframe =>
    obtain ⟨hwrote, hmux⟩ := hi.fresh hphase
    refine ⟨fun h ↦ (by cases h), fun frame' hw ↦ ?_, fun conn hc ↦ ?_, hi.got, hi.muxed,
      fun r hr ↦ (by cases hr)⟩
    · obtain rfl := Except.ok.inj (hframe.symm.trans hw)
      rw [hmux, List.append_nil]
      exact ⟨List.prefix_rfl, fun _ ↦ rfl⟩
    · have hin := hi.inbound conn hc
      rw [hwrote, List.prefix_nil] at hin
      rw [hin]
      exact List.nil_prefix
  | @unsent bs e hphase hbs =>
    obtain ⟨hwrote, hmux⟩ := hi.fresh hphase
    refine ⟨fun h ↦ (by cases h), fun frame' hw ↦ ?_, fun conn hc ↦ ?_, hi.got, hi.muxed,
      fun r hr ↦ (by cases hr)⟩
    · rw [hmux, List.append_nil]
      exact ⟨hbs frame' hw, fun h ↦ (by cases h)⟩
    · have hin := hi.inbound conn hc
      rw [hwrote, List.prefix_nil] at hin
      rw [hin]
      exact List.nil_prefix
  | @read r hphase hread hr =>
    refine ⟨fun h ↦ (by cases h), fun frame hw ↦ ?_, hi.inbound, hi.got, hi.muxed, fun r' hr' ↦ ?_⟩
    · exact ⟨(hi.sent frame hw).1, fun _ ↦ (hi.sent frame hw).2 (by rw [hphase]; rfl)⟩
    · rw [← Phase.answered.inj hr']
      exact ⟨hread, hr⟩
  | lost hphase =>
    refine ⟨fun h ↦ (by cases h), fun frame hw ↦ ?_, hi.inbound, hi.got, hi.muxed,
      fun r hr ↦ (by cases hr)⟩
    exact ⟨(hi.sent frame hw).1, fun _ ↦ (hi.sent frame hw).2 (by rw [hphase]; rfl)⟩
  | @clientMux bs hphase =>
    have hasked := asked_of_admitted hphase
    refine ⟨fun h ↦ ?_, fun frame hw ↦ ?_, fun conn hc ↦ ?_, hi.got, hi.muxed, hi.answered⟩
    · rw [show p.phase = .sending from h] at hasked
      cases hasked
    · have heq : p.wrote ++ bs = frame ++ (p.muxOut ++ bs) := by
        rw [(hi.sent frame hw).2 hasked, List.append_assoc]
      exact ⟨heq ▸ List.prefix_rfl, fun _ ↦ heq⟩
    · exact (hi.inbound conn hc).trans (List.prefix_append _ _)
  | @serverMux bs hmuxed =>
    refine ⟨hi.fresh, hi.sent, hi.inbound, ?_, fun _ ↦ hmuxed, hi.answered⟩
    rw [← List.append_assoc]
    exact hi.got.trans (List.prefix_append _ _)
  | @arrive n =>
    refine ⟨hi.fresh, hi.sent, hi.inbound, prefix_nextBytes hi.got n, hi.muxed, fun r hr ↦ ?_⟩
    obtain ⟨hread, htr⟩ := hi.answered r hr
    rw [readMessage_append (Prod.ext hread rfl) htr]
    exact ⟨rfl, htr⟩

/-- The server makes a step, and has heard of this client what it has heard. -/
theorem server {b : Control.Act} {server : Control.State} (hi : PeerInv serde s c p)
    (hr : (Control.machine serde config routes).Reach h s.server)
    (hstep : Control.step serde config s.server b = some (server, es))
    (hin : ∀ conn, server.conns c = some conn → conn.inbound <+: p.wrote) :
    PeerInv serde { s with server } c p := by
  -- What is written grows, and not behind the back of yamux.
  have hmono : s.outbound c <+: ({ s with server } : State).outbound c ∧
      (s.muxed c = true → ({ s with server } : State).muxed c = true ∧
        ({ s with server } : State).outbound c = s.outbound c) := by
    rw [State.outbound, State.outbound, State.muxed, State.muxed]
    cases hc : s.server.conns c with
    | none => exact ⟨List.nil_prefix, fun h ↦ by cases h⟩
    | some conn =>
      obtain ⟨conn', hc', -, hw⟩ := Control.writes_of_step hstep hc
      simp only [hc', Option.isSome_iff_ne_none]
      refine ⟨?_, fun hd ↦ ⟨?_, Control.outbound_of_driver hr hc hw hd⟩⟩
      · cases hw with
        | quiet hq => exact hq.outbound ▸ List.prefix_rfl
        | answer _ _ hout => exact hout ▸ List.prefix_append _ _
      · cases hw with
        | quiet hq => exact hq.muxed hd
        | answer _ _ _ hd' => exact hd' ▸ hd
  refine ⟨hi.fresh, hi.sent, hin, ?_, fun hne ↦ (hmono.2 (hi.muxed hne)).1, hi.answered⟩
  by_cases hnil : p.muxIn = []
  · have hgot := hi.got
    rw [hnil, List.append_nil] at hgot ⊢
    exact hgot.trans hmono.1
  · rw [(hmono.2 (hi.muxed hnil)).2]
    exact hi.got

end PeerInv

/-- **The step lemma.** -/
theorem peerInv_of_step (hr : (Control.machine serde config routes).Reach h s.server)
    (hi : ∀ c p, s.peers c = some p → PeerInv serde s c p)
    (hstep : step serde config s a = some (t, es)) :
    ∀ c p, t.peers c = some p → PeerInv serde t c p := by
  intro c p hp
  cases step_transition hstep with
  | @server b server _ hb hrecv =>
    refine (hi c p hp).server hr hb fun conn' hc' ↦ ?_
    cases hc : s.server.conns c with
    | none =>
      rw [Control.fresh_of_step hb hc hc']
      exact List.nil_prefix
    | some conn =>
      -- Bytes of a client come in by `deliver` only.
      have hne : ∀ bs, b ≠ .recv c bs := by
        intro bs heq
        exact Option.some_ne_none p (hp.symm.trans (hrecv c bs heq))
      rw [(Control.hears_of_step hb hc hc').inbound hne]
      exact (hi c p hp).inbound conn hc
  | @deliver c₀ p₀ conn₀ n server _ hp₀ hc₀ hb =>
    refine (hi c p hp).server hr hb fun conn' hc' ↦ ?_
    rw [Control.recv_spec hb hc₀, Control.setConn_conns] at hc'
    split at hc'
    · rename_i hcc
      subst hcc
      obtain rfl := Option.some.inj (hp₀.symm.trans hp)
      rw [← Option.some.inj hc']
      exact prefix_nextBytes ((hi c p₀ hp₀).inbound conn₀ hc₀) n
    · exact (hi c p hp).inbound conn' hc'
  | @connect c₀ identity hc₀ hp₀ =>
    rw [setPeer_peers] at hp
    split at hp
    · rename_i hcc
      subst hcc
      rw [← Option.some.inj hp]
      exact .connect identity hc₀
    · exact (hi c p hp).setPeer ..
  | @peer c₀ p₀ p₁ hp₀ hm =>
    rw [setPeer_peers] at hp
    split at hp
    · rename_i hcc
      subst hcc
      rw [← Option.some.inj hp]
      exact ((hi c p₀ hp₀).move hm).setPeer ..
    · exact (hi c p hp).setPeer ..

theorem PeerInv.of_reach (hr : (machine serde config routes).Reach h s)
    (hp : s.peers c = some p) : PeerInv serde s c p := by
  refine hr.invariant (P := fun _ s ↦ ∀ c p, s.peers c = some p → PeerInv serde s c p)
    (fun c p hp ↦ by cases hp) ?_ c p hp
  exact fun h s a t es hr hi hstep ↦ peerInv_of_step (reach_server hr) hi hstep

/-! ## Agreement -/

/-- The host that the client takes out of a successful answer. -/
theorem hostOf_successRes (auth : AuthReq) :
    Reconnect.hostOf (Control.successRes config auth) = auth.clientId ++ "." ++ config.domain := by
  have hmessage : (Control.successRes config auth).message =
      "OK — " ++ (auth.clientId ++ "." ++ config.domain) := by
    rw [Control.successRes, String.append_assoc, String.append_assoc, String.append_assoc]
  rw [Reconnect.hostOf, hmessage, String.toList_append,
    List.dropPrefix?_append_of_beq _ (beq_self_eq_true _)]
  exact String.ofList_toList

/-- How the attempt ends with the answer that is due. -/
theorem runSession_verdict (debug : Message → String) (auth : AuthReq) :
    (Phase.answered (.ok (.authRes (Control.verdict config auth)))).attempt.runSessionWithStatus
        debug =
      if config.validateToken auth.token then
        (.ok (), [.connected ("https://" ++ (auth.clientId ++ "." ++ config.domain))])
      else (.error "Authentication failed: Invalid token", []) := by
  rw [Control.verdict]
  by_cases hvalid : config.validateToken auth.token = true
  · rw [if_pos hvalid, if_pos hvalid, ← hostOf_successRes]
    rfl
  · rw [if_neg hvalid, if_neg hvalid]
    rfl

variable (serde config) in
/-- The client at connection `c` and the server agree. -/
structure Agreed (h : List Control.Event) (s : State) (c : ConnId) (p : Peer) : Prop where
  /-- What the client has read is the answer that is due to its own request, and the server has
  written it, or has believed that it could not. -/
  answer : ∀ r, p.phase = .answered r →
    r = .ok (.authRes (Control.verdict config p.identity.authReq)) ∧
    ∃ conn, s.server.conns c = some conn ∧ Control.FirstFrame serde conn p.identity.authReq ∧
      (.answered c (Control.verdict config p.identity.authReq) ∈ h ∨
        conn.task = .done .writeFailed)
  /-- The attempt ends as the token has it, with the route of this client. -/
  status : ∀ r debug, p.phase = .answered r → p.phase.attempt.runSessionWithStatus debug =
    if config.validateToken p.identity.token then
      (.ok (), [.connected ("https://" ++ (p.identity.clientId ++ "." ++ config.domain))])
    else (.error "Authentication failed: Invalid token", [])
  /-- The server has read this request if it has read one, and leaves to yamux what the yamux of
  the client has written. -/
  heard : ∀ conn auth rest, s.server.conns c = some conn →
    readMessage serde conn.inbound = (.ok (.authReq auth), rest) →
    auth = p.identity.authReq ∧ rest <+: p.muxOut
  expected : ∀ conn, s.server.conns c = some conn → conn.task ≠ .done .unexpected
  /-- No other answer is given. -/
  reported : ∀ res, .answered c res ∈ h → res = Control.verdict config p.identity.authReq
  /-- The client leaves to yamux what the yamux of the server has written. -/
  left : ∀ r, p.phase = .answered r → (readMessage serde p.got).2 <+: p.muxIn
  /-- Both go on to yamux with a valid token only. -/
  muxed : s.muxed c = true ∨ p.phase.admitted = true →
    config.validateToken p.identity.token = true
  /-- What is registered with this connection is this client. -/
  registered : ∀ k e, s.server.registry.get k = some e → e.handle = c →
    k = p.identity.clientId ∧ e.supportsHeartbeat = true ∧
      config.validateToken p.identity.token = true

section

variable (hserde : serde.Lawful) (hr : (machine serde config routes).Reach h s)
  (hp : s.peers c = some p) (hreq : Message.Fits serde (.authReq p.identity.authReq))
include hserde hr hp hreq

/-- What the server makes of what it has heard of a client. -/
theorem heard_of_reach {conn : Control.Conn} {m : Message} {rest : Bytes}
    (hc : s.server.conns c = some conn)
    (hread : readMessage serde conn.inbound = (.ok m, rest)) :
    m = .authReq p.identity.authReq ∧ rest <+: p.muxOut := by
  have hi : PeerInv serde s c p := .of_reach hr hp
  obtain ⟨payload, hpay, hle⟩ := hreq
  obtain ⟨frame, hw, hframe⟩ := readMessage_writeMessage hserde hpay hle
  obtain ⟨hm, hrest⟩ := readMessage_of_prefix hframe
    ((hi.inbound conn hc).trans (hi.sent frame hw).1) hread (fun e he ↦ by cases he)
  exact ⟨Except.ok.inj hm, hrest⟩

theorem authReq_of_firstFrame {conn : Control.Conn} {auth : AuthReq}
    (hc : s.server.conns c = some conn) (hf : Control.FirstFrame serde conn auth) :
    auth = p.identity.authReq := by
  obtain ⟨rest, hread⟩ := hf
  exact Message.authReq.inj (heard_of_reach hserde hr hp hreq hc hread).1

/-- What the client makes of what it has heard of the server. -/
theorem answer_of_reach
    (hres : Message.Fits serde (.authRes (Control.verdict config p.identity.authReq)))
    {r : Except ProtocolError Message} (hphase : p.phase = .answered r) :
    r = .ok (.authRes (Control.verdict config p.identity.authReq)) ∧
    (readMessage serde p.got).2 <+: p.muxIn ∧
    ∃ conn, s.server.conns c = some conn ∧ Control.FirstFrame serde conn p.identity.authReq ∧
      (.answered c (Control.verdict config p.identity.authReq) ∈ h ∨
        conn.task = .done .writeFailed) := by
  have hi : PeerInv serde s c p := .of_reach hr hp
  have hs : Control.AllSaid serde config h s.server := .of_reach (reach_server hr)
  obtain ⟨hread, htr⟩ := hi.answered r hphase
  have hnil : p.got ≠ [] := by
    intro hnil
    rw [hnil] at hread
    exact absurd (htr .readHeader hread.symm) (by decide)
  -- Something has been written on the connection.
  obtain ⟨conn, hc, hout⟩ : ∃ conn, s.server.conns c = some conn ∧ conn.outbound ≠ [] := by
    have hgot := hi.got
    have hmux := hi.muxed
    rw [State.outbound] at hgot
    rw [State.muxed] at hmux
    cases hc : s.server.conns c with
    | none =>
      simp only [hc, List.nil_append, Bool.false_eq_true, imp_false, not_not] at hgot hmux
      rw [hmux, List.prefix_nil] at hgot
      exact absurd hgot hnil
    | some conn =>
      refine ⟨conn, rfl, fun hout ↦ ?_⟩
      simp only [hc, hout, List.nil_append, Option.isSome_iff_ne_none] at hgot hmux
      by_cases hin : p.muxIn = []
      · rw [hin, List.prefix_nil] at hgot
        exact hnil hgot
      · obtain ⟨auth, -, -, hw⟩ := (hs.conn c conn hc).driver (hmux hin)
        exact Control.writeMessage_ne_nil hw hout
  obtain ⟨auth, frame, hfirst, hw, hpre, hor⟩ := (hs.conn c conn hc).written hout
  obtain rfl := authReq_of_firstFrame hserde hr hp hreq hc hfirst
  obtain ⟨payload, hpay, hle⟩ := hres
  obtain ⟨frame', hw', hframe⟩ := readMessage_writeMessage hserde hpay hle
  obtain rfl := Except.ok.inj (hw.symm.trans hw')
  have hgot : p.got <+: frame ++ p.muxIn := by
    refine hi.got.trans ?_
    have hmux := hi.muxed
    rw [State.muxed] at hmux
    simp only [State.outbound, hc, Option.isSome_iff_ne_none] at hmux ⊢
    by_cases hin : p.muxIn = []
    · rw [hin, List.append_nil, List.append_nil]
      exact hpre
    · obtain ⟨auth', hfirst', -, hw''⟩ := (hs.conn c conn hc).driver (hmux hin)
      rw [hfirst'.unique hfirst, hw] at hw''
      rw [Except.ok.inj hw'']
  obtain ⟨hr', hleft⟩ := readMessage_of_prefix hframe hgot (Prod.ext hread rfl) htr
  exact ⟨hr', hleft, conn, hc, hfirst, hor⟩

end

/-- **The two sides agree**, in every reachable state, about every client whose request and answer
fit into a frame. -/
theorem agreed (serde : SerdeJson) (config : ServerConfig) (routes : RouteFiles)
    (hserde : serde.Lawful) (h : List Control.Event) (s : State)
    (hr : (machine serde config routes).Reach h s) (c : ConnId) (p : Peer)
    (hp : s.peers c = some p) (hreq : Message.Fits serde (.authReq p.identity.authReq))
    (hres : Message.Fits serde (.authRes (Control.verdict config p.identity.authReq))) :
    Agreed serde config h s c p := by
  have hserver := reach_server hr
  have hs : Control.AllSaid serde config h s.server := .of_reach hserver
  have hauth : ∀ {conn auth}, s.server.conns c = some conn →
      Control.FirstFrame serde conn auth → auth = p.identity.authReq :=
    fun hc hf ↦ authReq_of_firstFrame hserde hr hp hreq hc hf
  refine ⟨fun r hphase ↦ ?_, fun r debug hphase ↦ ?_, fun conn auth rest hc hread ↦ ?_,
    fun conn hc ht ↦ ?_, fun res hmem ↦ ?_, fun r hphase ↦ ?_, fun hmux ↦ ?_, fun k e he hec ↦ ?_⟩
  · obtain ⟨hr', -, hconn⟩ := answer_of_reach hserde hr hp hreq hres hphase
    exact ⟨hr', hconn⟩
  · rw [hphase, (answer_of_reach hserde hr hp hreq hres hphase).1, runSession_verdict]
    rfl
  · obtain ⟨hm, hrest⟩ := heard_of_reach hserde hr hp hreq hc hread
    exact ⟨Message.authReq.inj hm, hrest⟩
  · obtain ⟨m, rest, hread, hne⟩ := Control.exists_of_unexpected hserver hc ht
    exact hne _ (heard_of_reach hserde hr hp hreq hc hread).1
  · obtain ⟨conn, hc⟩ := Option.ne_none_iff_exists'.mp (hs.known c res hmem)
    obtain ⟨auth, hfirst, rfl⟩ := (hs.conn c conn hc).reported res hmem
    rw [hauth hc hfirst]
  · exact (answer_of_reach hserde hr hp hreq hres hphase).2.1
  · rcases hmux with hmux | hphase
    · rw [State.muxed] at hmux
      split at hmux
      · rename_i conn hc
        obtain ⟨auth, hfirst, hvalid, -⟩ :=
          (hs.conn c conn hc).driver (Option.isSome_iff_ne_none.mp hmux)
        rwa [hauth hc hfirst] at hvalid
      · cases hmux
    · cases hph : p.phase with
      | answered r =>
        obtain ⟨rfl, -⟩ := answer_of_reach hserde hr hp hreq hres hph
        rw [hph, Phase.admitted, Control.verdict] at hphase
        split at hphase
        · assumption
        · cases hphase
      | _ =>
        rw [hph] at hphase
        cases hphase
  · have hg : Control.Gate serde config h s.server := .of_reach hserver
    obtain ⟨rfl, conn, auth, hc, hheld, hk, hbeat⟩ := hg.entry k e he
    obtain ⟨hfirst, hvalid⟩ := (hg.conn _ conn hc).first auth (Control.Task.admitted_of_answered
      (Control.Task.answered_of_unreserved (Control.Task.unreserved_of_held hheld)))
    rw [hec] at hc
    rw [hauth hc hfirst] at hk hbeat hvalid
    exact ⟨hk.symm, hbeat, hvalid⟩

/-! ## A concrete handshake -/

/-- A client from its connection to its answer, with the bytes in pieces. -/
def handshakeSegments (c : ConnId) (i : Identity) : List Act :=
  [.connect c i, .writeReq c, .server (.accept c), .deliver c 3, .deliver c 1000,
    .server (.readFrame c), .server (.writeAnswer c), .arrive c 7, .arrive c 1000, .readRes c]

/-- One client is let in while another one is not. The first bytes of yamux go both ways before the
session is registered. -/
theorem agreed_two_clients : ∃ h s p q,
    (machine compactSerde Control.sampleConfig fun _ ↦ none).run
      ⟨Control.start fun _ ↦ none, fun _ ↦ none⟩
      (handshakeSegments 0 ⟨"app", "t"⟩ ++ handshakeSegments 1 ⟨"app", "x"⟩ ++
        [.clientMux 0 [7, 8], .deliver 0 1, .server (.spawnDriver 0 0), .serverMux 0 [9],
          .arrive 0 1]) = some (s, h) ∧
    s.peers 0 = some p ∧ s.peers 1 = some q ∧ p.muxOut = [7, 8] ∧ p.muxIn = [9] ∧
    p.phase.admitted = true ∧ q.phase.admitted = false ∧
    Agreed compactSerde Control.sampleConfig h s 0 p ∧
    Agreed compactSerde Control.sampleConfig h s 1 q := by
  have hrun : ((machine compactSerde Control.sampleConfig fun _ ↦ none).run
      ⟨Control.start fun _ ↦ none, fun _ ↦ none⟩
      (handshakeSegments 0 ⟨"app", "t"⟩ ++ handshakeSegments 1 ⟨"app", "x"⟩ ++
        [.clientMux 0 [7, 8], .deliver 0 1, .server (.spawnDriver 0 0), .serverMux 0 [9],
          .arrive 0 1])).map (fun r ↦
        (r.1.peers 0).any (fun p ↦ decide (p.identity = ⟨"app", "t"⟩ ∧ p.muxOut = [7, 8] ∧
          p.muxIn = [9] ∧ p.phase.admitted = true)) &&
        (r.1.peers 1).any (fun p ↦ decide (p.identity = ⟨"app", "x"⟩ ∧
          p.phase.admitted = false))) = some true := by
    decide +kernel
  obtain ⟨⟨s, h⟩, hsh, heq⟩ := Option.map_eq_some_iff.mp hrun
  rw [Bool.and_eq_true, Option.any_eq_true, Option.any_eq_true] at heq
  obtain ⟨⟨p, hp, heqp⟩, q, hq, heqq⟩ := heq
  obtain ⟨hip, hout, hin, hadm⟩ := of_decide_eq_true heqp
  obtain ⟨hiq, hadmq⟩ := of_decide_eq_true heqq
  have hr := Machine.Reach.of_run hsh
  refine ⟨h, s, p, q, hsh, hp, hq, hout, hin, hadm, hadmq,
    agreed _ _ _ compactSerde_lawful h s hr 0 p hp ?_ ?_,
    agreed _ _ _ compactSerde_lawful h s hr 1 q hq ?_ ?_⟩
  · rw [hip]
    exact ⟨_, rfl, by decide⟩
  · rw [hip]
    exact ⟨_, rfl, by decide⟩
  · rw [hiq]
    exact ⟨_, rfl, by decide⟩
  · rw [hiq]
    exact ⟨_, rfl, by decide⟩

end Handshake

end ZoTunnel
