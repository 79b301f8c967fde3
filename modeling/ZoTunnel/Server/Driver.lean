import Mathlib.Logic.Function.Basic
import ZoTunnel.Lib.Machine
import ZoTunnel.Protocol.Message

/-!
# The yamux driver task

`spawn_yamux_driver` runs one `select!` loop over four sources: yamux itself, the command channel,
the heartbeat interval and the results of heartbeat probes. Here the loop is a machine: each action
is one branch of the loop taken to its end, or one move of the world around it (a caller, a probe
task, the clock, an abort). The guards of the branches are the guards of the actions.

The state keeps the loop's variables under their names. `calls` follows every call of
`open_stream` to its end, so that a lost reply would be visible as a caller that waits for ever.
`want_outbound` is computed at the head of an iteration and no other branch runs before the
handler that relies on it, so it is a function of the state here.

The channel semantics are those of tokio: dropping the receiver drops the queued commands,
dropping a reply sender fails the waiter, and a sender that waits for room is woken with an error
when the channel closes.
-/

namespace ZoTunnel

/-- One call of `open_stream`, its command and its reply channel. -/
abbrev CallId := ℕ

/-- A yamux stream, numbered in the order in which yamux hands them out. -/
abbrev StreamId := ℕ

/-- What a call of `open_stream` can fail with. -/
inductive OpenError
  | driverGone
  | driverDropped
  | yamuxOpen (e : String)
  deriving DecidableEq, Repr

/-- The text of the error, as the source words it. -/
def OpenError.text : OpenError → String
  | driverGone => "yamux driver gone"
  | driverDropped => "yamux driver dropped"
  | yamuxOpen e => "yamux open: " ++ e

/-- Where a call of `open_stream` stands. -/
inductive CallState
  | sending
  | waiting
  | returned (r : Except OpenError StreamId)
  /-- The caller's future was dropped before it returned. -/
  | dropped
  deriving DecidableEq, Repr

/-- What a heartbeat probe can fail with. -/
inductive ProbeError
  | io
  | timeout
  deriving DecidableEq, Repr

/-- Why the driver task is over. -/
inductive EndReason
  | yamuxError
  | closed
  | handlesDropped
  | missedHeartbeats
  | aborted
  deriving DecidableEq, Repr

/-- The driver task with its channels, its callers and its probes. -/
structure Driver where
  supportsHeartbeat : Bool
  /-- `none` while the task runs. -/
  ended : Option EndReason
  abortRequested : Bool
  queue : List CallId
  calls : CallId → Option CallState
  pendingOpen : Option CallId
  wantHbStream : Bool
  hbInFlight : Bool
  /-- The heartbeat interval has elapsed and its tick has not been taken. Missed ticks are delayed,
  so there is at most one. -/
  tickDue : Bool
  probes : List StreamId
  hbDone : List (Except ProbeError Unit)
  missedHeartbeats : ℕ
  /-- The `Instant` of the last successful heartbeat, in seconds. -/
  lastActivity : ℕ
  /-- The number yamux gives the next stream. -/
  nextStream : StreamId

namespace Driver

/-- The five-miss rule. -/
def maxMissed : ℕ := 5

/-- The capacity of the command channel. -/
def cmdCapacity : ℕ := 64

/-- The loop's state when the task starts. The first `tick()` of the interval completes at once
and is taken before the loop. -/
def spawn (supportsHeartbeat : Bool) (now : ℕ) : Driver where
  supportsHeartbeat := supportsHeartbeat
  ended := none
  abortRequested := false
  queue := []
  calls := fun _ ↦ none
  pendingOpen := none
  wantHbStream := false
  hbInFlight := false
  tickDue := false
  probes := []
  hbDone := []
  missedHeartbeats := 0
  lastActivity := now
  nextStream := 0

inductive Act
  | call (c : CallId)
  /-- The channel has room for the command of a waiting call. -/
  | send (c : CallId)
  | dropCall (c : CallId)
  /-- yamux delivers an inbound stream, which the server ignores. -/
  | inboundStream
  | inboundError
  | inboundClosed
  | outboundOk
  | outboundErr (e : String)
  | recvCmd
  | recvNone
  /-- One heartbeat interval elapses. -/
  | elapse
  | tick
  | probeDone (st : StreamId) (r : Except ProbeError Unit)
  /-- `hb_done_rx.recv()` gives a result; the present time is read. The loop holds a sender of
  that channel itself, so the branch for `None` is never taken. -/
  | recvDone (now : ℕ)
  /-- `AbortHandle::abort` on the task. -/
  | abort
  /-- An aborted task is dropped at a suspension point. -/
  | cancelled
  deriving DecidableEq, Repr

inductive Event
  | sent (c : CallId)
  /-- The loop took a command into `pending_open`. -/
  | taken (c : CallId)
  /-- yamux handed out an outbound stream. -/
  | granted (st : StreamId)
  /-- The reply channel of a command was used or dropped. -/
  | answered (c : CallId) (r : Except OpenError StreamId)
  | probeStarted (st : StreamId)
  /-- A stream was dropped without an owner. -/
  | discarded (st : StreamId)
  | heartbeat (ok : Bool)
  | period
  | ended (reason : EndReason)
  deriving DecidableEq

/-- `want_outbound`, computed at the head of an iteration. -/
def wantOutbound (d : Driver) : Bool := d.pendingOpen.isSome || d.wantHbStream

/-- The precondition of the tick branch. -/
def tickEnabled (d : Driver) : Bool := d.supportsHeartbeat && !d.hbInFlight && !d.wantHbStream

/-- `cmd_tx.is_closed()`: the receiver is gone with the task. -/
def isClosed (d : Driver) : Bool := d.ended.isSome

/-- `reply.send(r)`: a caller that still waits returns; with a caller that is gone the value is
dropped. -/
def reply (calls : CallId → Option CallState) (c : CallId) (r : Except OpenError StreamId) :
    CallId → Option CallState :=
  if calls c = some .waiting then Function.update calls c (some (.returned r)) else calls

/-- The commands whose reply sender the task holds: the pending one, then the queue. -/
def heldCommands (d : Driver) : List CallId := d.pendingOpen.toList ++ d.queue

/-- The task is over. Its locals are dropped before the captured receiver, so the pending reply
fails first and then the queued ones in order; closing the channel wakes the senders. -/
def finish (d : Driver) (reason : EndReason) : Driver × List Event :=
  ({ d with
      ended := some reason
      queue := []
      pendingOpen := none
      hbDone := []
      calls := fun c ↦
        match d.calls c with
        | some .sending => some (.returned (.error .driverGone))
        | some .waiting =>
          if c ∈ d.heldCommands then some (.returned (.error .driverDropped)) else some .waiting
        | s => s },
    d.heldCommands.map (fun c ↦ .answered c (.error .driverDropped)) ++ [.ended reason])

/-- A heartbeat failed: count it, and leave the loop with the fifth in a row. -/
def miss (d : Driver) : Driver × List Event :=
  let n := d.missedHeartbeats + 1
  let d' := { d with missedHeartbeats := n }
  if n ≥ maxMissed then
    let (d'', es) := d'.finish .missedHeartbeats
    (d'', .heartbeat false :: es)
  else (d', [.heartbeat false])

/-- The handler of `DriveEvent::Outbound(Ok(stream))`. -/
def onOutboundOk (d : Driver) : Driver × List Event :=
  let st := d.nextStream
  let d' := { d with nextStream := st + 1 }
  match d.pendingOpen with
  | some c =>
    ({ d' with pendingOpen := none, calls := reply d.calls c (.ok st) },
      [.granted st, .answered c (.ok st)])
  | none =>
    if d.wantHbStream then
      ({ d' with wantHbStream := false, hbInFlight := true, probes := d.probes ++ [st] },
        [.granted st, .probeStarted st])
    else (d', [.granted st, .discarded st])

/-- The handler of `DriveEvent::Outbound(Err(e))`. -/
def onOutboundErr (d : Driver) (e : String) : Driver × List Event :=
  let (d', es) := match d.pendingOpen with
    | some c =>
      ({ d with pendingOpen := none, calls := reply d.calls c (.error (.yamuxOpen e)) },
        [Event.answered c (.error (.yamuxOpen e))])
    | none => (d, [])
  if d'.wantHbStream then
    let (d'', es') := { d' with wantHbStream := false }.miss
    (d'', es ++ es')
  else (d', es)

/-- The handler of a probe result. -/
def onDone (d : Driver) (r : Except ProbeError Unit) (now : ℕ) : Driver × List Event :=
  let d' := { d with hbInFlight := false }
  match r with
  | .ok () => ({ d' with missedHeartbeats := 0, lastActivity := now }, [.heartbeat true])
  | .error _ => d'.miss

/-- The loop's own branches; they need the task to run. -/
def loopStep (d : Driver) : Act → Option (Driver × List Event)
  | .inboundStream => some (d, [])
  | .inboundError => some (d.finish .yamuxError)
  | .inboundClosed => some (d.finish .closed)
  | .outboundOk => if d.wantOutbound then some d.onOutboundOk else none
  | .outboundErr e => if d.wantOutbound then some (d.onOutboundErr e) else none
  | .recvCmd =>
    match d.pendingOpen, d.queue with
    | none, c :: cs => some ({ d with queue := cs, pendingOpen := some c }, [.taken c])
    | _, _ => none
  | .recvNone =>
    match d.pendingOpen, d.queue with
    | none, [] => some (d.finish .handlesDropped)
    | _, _ => none
  | .elapse => some ({ d with tickDue := true }, [.period])
  | .tick =>
    if d.tickEnabled && d.tickDue then some ({ d with wantHbStream := true, tickDue := false }, [])
    else none
  | .recvDone now =>
    match d.hbDone with
    | r :: rs => some ({ d with hbDone := rs }.onDone r now)
    | [] => none
  | .cancelled => if d.abortRequested then some (d.finish .aborted) else none
  | _ => none

/-- One step of the driver and the world around it. -/
def step (d : Driver) : Act → Option (Driver × List Event)
  | .call c =>
    match d.calls c with
    | some _ => none
    | none =>
      -- A closed channel refuses the command at once.
      let s := if d.isClosed then CallState.returned (.error .driverGone) else .sending
      some ({ d with calls := Function.update d.calls c (some s) }, [])
  | .send c =>
    if d.calls c = some .sending ∧ d.isClosed = false ∧ d.queue.length < cmdCapacity then
      some ({ d with
        queue := d.queue ++ [c]
        calls := Function.update d.calls c (some .waiting) }, [.sent c])
    else none
  | .dropCall c =>
    if d.calls c = some .sending ∨ d.calls c = some .waiting then
      some ({ d with calls := Function.update d.calls c (some .dropped) }, [])
    else none
  | .probeDone st r =>
    if st ∈ d.probes then
      some ({ d with
        probes := d.probes.erase st
        -- After the task is over nobody receives the result.
        hbDone := if d.isClosed then [] else d.hbDone ++ [r] }, [])
    else none
  | .abort => some ({ d with abortRequested := true }, [])
  | a => if d.isClosed then none else d.loopStep a

/-- The driver of a session as a machine. -/
def machine (supportsHeartbeat : Bool) (now : ℕ) : Machine Driver Act Event where
  init := spawn supportsHeartbeat now
  step := step

/-! ## What a step can do

The inversion of `step`, once: one constructor for each branch with the guards it ran under. The
three places where a heartbeat is counted as failed keep `miss` folded; `miss_cases` opens it. -/

inductive Transition (d : Driver) : Act → Driver → List Event → Prop
  | call {c : CallId} {s : CallState} (hc : d.calls c = none)
      (hs : s = if d.isClosed then .returned (.error .driverGone) else .sending) :
      Transition d (.call c) { d with calls := Function.update d.calls c (some s) } []
  | send {c : CallId} (hc : d.calls c = some .sending) (hrun : d.ended = none)
      (hroom : d.queue.length < cmdCapacity) : Transition d (.send c)
      { d with queue := d.queue ++ [c], calls := Function.update d.calls c (some .waiting) }
      [.sent c]
  | dropCall {c : CallId} (hc : d.calls c = some .sending ∨ d.calls c = some .waiting) :
      Transition d (.dropCall c)
        { d with calls := Function.update d.calls c (some .dropped) } []
  | probeDone {st : StreamId} {r : Except ProbeError Unit} (hst : st ∈ d.probes) :
      Transition d (.probeDone st r)
        { d with probes := d.probes.erase st, hbDone := if d.isClosed then [] else d.hbDone ++ [r] }
        []
  | abort : Transition d .abort { d with abortRequested := true } []
  | inboundStream (hrun : d.ended = none) : Transition d .inboundStream d []
  | stop {a : Act} {reason : EndReason} (hrun : d.ended = none)
      (ha : a ∈ [.inboundError, .inboundClosed, .recvNone, .cancelled])
      (hreason : reason ≠ .missedHeartbeats) (hcancel : a = .cancelled → d.abortRequested = true) :
      Transition d a (d.finish reason).1 (d.finish reason).2
  | grantCall {c : CallId} (hrun : d.ended = none) (hp : d.pendingOpen = some c) :
      Transition d .outboundOk
        { d with
          nextStream := d.nextStream + 1
          pendingOpen := none
          calls := reply d.calls c (.ok d.nextStream) }
        [.granted d.nextStream, .answered c (.ok d.nextStream)]
  | grantProbe (hrun : d.ended = none) (hp : d.pendingOpen = none) (hw : d.wantHbStream = true) :
      Transition d .outboundOk
        { d with
          nextStream := d.nextStream + 1
          wantHbStream := false
          hbInFlight := true
          probes := d.probes ++ [d.nextStream] }
        [.granted d.nextStream, .probeStarted d.nextStream]
  | refuseCall {e : String} {c : CallId} (hrun : d.ended = none) (hp : d.pendingOpen = some c)
      (hw : d.wantHbStream = false) :
      Transition d (.outboundErr e)
        { d with pendingOpen := none, calls := reply d.calls c (.error (.yamuxOpen e)) }
        [.answered c (.error (.yamuxOpen e))]
  | refuseBoth {e : String} {c : CallId} {d₀ : Driver} (hrun : d.ended = none)
      (hp : d.pendingOpen = some c) (hw : d.wantHbStream = true)
      (hd₀ : d₀ = { d with
        pendingOpen := none
        calls := reply d.calls c (.error (.yamuxOpen e))
        wantHbStream := false }) :
      Transition d (.outboundErr e) d₀.miss.1
        (.answered c (.error (.yamuxOpen e)) :: d₀.miss.2)
  | refuseProbe {e : String} {d₀ : Driver} (hrun : d.ended = none) (hp : d.pendingOpen = none)
      (hw : d.wantHbStream = true) (hd₀ : d₀ = { d with wantHbStream := false }) :
      Transition d (.outboundErr e) d₀.miss.1 d₀.miss.2
  | recvCmd {c : CallId} {cs : List CallId} (hrun : d.ended = none) (hp : d.pendingOpen = none)
      (hq : d.queue = c :: cs) :
      Transition d .recvCmd { d with queue := cs, pendingOpen := some c } [.taken c]
  | elapse (hrun : d.ended = none) : Transition d .elapse { d with tickDue := true } [.period]
  | tick (hrun : d.ended = none) (hen : d.tickEnabled = true) (hdue : d.tickDue = true) :
      Transition d .tick { d with wantHbStream := true, tickDue := false } []
  | success {now : ℕ} {rs : List (Except ProbeError Unit)} (hrun : d.ended = none)
      (hdone : d.hbDone = .ok () :: rs) : Transition d (.recvDone now)
      { d with hbDone := rs, hbInFlight := false, missedHeartbeats := 0, lastActivity := now }
      [.heartbeat true]
  | failure {now : ℕ} {e : ProbeError} {rs : List (Except ProbeError Unit)} {d₀ : Driver}
      (hrun : d.ended = none) (hdone : d.hbDone = .error e :: rs)
      (hd₀ : d₀ = { d with hbDone := rs, hbInFlight := false }) :
      Transition d (.recvDone now) d₀.miss.1 d₀.miss.2

@[simp] theorem isClosed_eq_false {d : Driver} : d.isClosed = false ↔ d.ended = none := by
  rw [isClosed, Option.isSome_eq_false_iff, Option.isNone_iff_eq_none]

theorem miss_cases (d : Driver) :
    (d.missedHeartbeats + 1 < maxMissed ∧
      d.miss = ({ d with missedHeartbeats := d.missedHeartbeats + 1 }, [.heartbeat false])) ∨
    (maxMissed ≤ d.missedHeartbeats + 1 ∧
      d.miss =
        (({ d with missedHeartbeats := d.missedHeartbeats + 1 }.finish .missedHeartbeats).1,
          .heartbeat false :: (d.finish .missedHeartbeats).2)) := by
  by_cases h : maxMissed ≤ d.missedHeartbeats + 1
  · exact .inr ⟨h, by rw [miss, if_pos h]; rfl⟩
  · exact .inl ⟨Nat.not_le.mp h, by rw [miss, if_neg h]⟩

private theorem loopStep_transition {d d' : Driver} {a : Act} {es : List Event}
    (hrun : d.ended = none) (h : d.loopStep a = some (d', es)) : Transition d a d' es := by
  cases a with
  | inboundStream =>
    simp only [loopStep, Option.some.injEq, Prod.mk.injEq] at h
    obtain ⟨rfl, rfl⟩ := h
    exact .inboundStream hrun
  | inboundError =>
    simp only [loopStep, Option.some.injEq] at h
    have : Transition d .inboundError _ (d.finish .yamuxError).2 := .stop hrun
      (by decide) (by decide) (by simp)
    rwa [h] at this
  | inboundClosed =>
    simp only [loopStep, Option.some.injEq] at h
    have : Transition d .inboundClosed _ (d.finish .closed).2 := .stop hrun
      (by decide) (by decide) (by simp)
    rwa [h] at this
  | outboundOk =>
    simp only [loopStep, wantOutbound, onOutboundOk] at h
    cases hp : d.pendingOpen with
    | some c =>
      simp only [hp, Option.isSome_some, Bool.true_or, if_true, Option.some.injEq,
        Prod.mk.injEq] at h
      obtain ⟨rfl, rfl⟩ := h
      exact .grantCall hrun hp
    | none =>
      by_cases hw : d.wantHbStream = true
      · simp only [hp, hw, Option.isSome_none, Bool.false_or, if_true, Option.some.injEq,
          Prod.mk.injEq] at h
        obtain ⟨rfl, rfl⟩ := h
        simpa only [hp] using Transition.grantProbe hrun hp hw
      · simp [hp, hw] at h
  | outboundErr e =>
    simp only [loopStep, wantOutbound, onOutboundErr] at h
    cases hp : d.pendingOpen with
    | some c =>
      by_cases hw : d.wantHbStream = true
      · simp only [hp, hw, Option.isSome_some, Bool.true_or, if_true, Option.some.injEq,
          Prod.mk.injEq, List.singleton_append] at h
        obtain ⟨rfl, rfl⟩ := h
        exact .refuseBoth hrun hp hw rfl
      · simp only [hp, Option.isSome_some, Bool.true_or, if_true, if_neg hw, Option.some.injEq,
          Prod.mk.injEq] at h
        obtain ⟨rfl, rfl⟩ := h
        exact .refuseCall hrun hp (Bool.eq_false_iff.mpr hw)
    | none =>
      by_cases hw : d.wantHbStream = true
      · simp only [hp, hw, Option.isSome_none, Bool.false_or, if_true, Option.some.injEq,
          Prod.mk.injEq, List.nil_append] at h
        obtain ⟨rfl, rfl⟩ := h
        exact .refuseProbe hrun hp hw (by simp only [hp])
      · simp [hp, hw] at h
  | recvCmd =>
    simp only [loopStep] at h
    cases hp : d.pendingOpen with
    | some c => simp [hp] at h
    | none =>
      cases hq : d.queue with
      | nil => simp [hp, hq] at h
      | cons c cs =>
        simp only [hp, hq, Option.some.injEq, Prod.mk.injEq] at h
        obtain ⟨rfl, rfl⟩ := h
        exact .recvCmd hrun hp hq
  | recvNone =>
    simp only [loopStep] at h
    split at h
    · rw [Option.some.injEq] at h
      have : Transition d .recvNone _ (d.finish .handlesDropped).2 := .stop hrun
        (by decide) (by decide) (by simp)
      rwa [h] at this
    · cases h
  | elapse =>
    simp only [loopStep, Option.some.injEq, Prod.mk.injEq] at h
    obtain ⟨rfl, rfl⟩ := h
    exact .elapse hrun
  | tick =>
    simp only [loopStep, Bool.and_eq_true] at h
    split at h
    · rename_i hg
      rw [Option.some.injEq, Prod.mk.injEq] at h
      obtain ⟨rfl, rfl⟩ := h
      exact .tick hrun hg.1 hg.2
    · cases h
  | recvDone now =>
    simp only [loopStep] at h
    cases hd : d.hbDone with
    | nil => simp [hd] at h
    | cons r rs =>
      cases r with
      | ok u =>
        simp only [hd, onDone, Option.some.injEq, Prod.mk.injEq] at h
        obtain ⟨rfl, rfl⟩ := h
        exact .success hrun hd
      | error e =>
        simp only [hd, onDone, Option.some.injEq] at h
        have : Transition d (.recvDone now) _ _ := .failure hrun hd rfl
        rwa [h] at this
  | cancelled =>
    simp only [loopStep] at h
    split at h
    · rename_i hg
      rw [Option.some.injEq] at h
      have : Transition d .cancelled _ (d.finish .aborted).2 := .stop hrun
        (by decide) (by decide) fun _ ↦ hg
      rwa [h] at this
    · cases h
  | call | send | dropCall | probeDone | abort => simp [loopStep] at h

/-- **Inversion.** Every step is one of the transitions. -/
theorem step_transition {d d' : Driver} {a : Act} {es : List Event}
    (h : d.step a = some (d', es)) : Transition d a d' es := by
  cases a with
  | call c =>
    simp only [step] at h
    cases hc : d.calls c with
    | some s => simp [hc] at h
    | none =>
      simp only [hc, Option.some.injEq, Prod.mk.injEq] at h
      obtain ⟨rfl, rfl⟩ := h
      exact .call hc rfl
  | send c =>
    simp only [step] at h
    split at h
    · rename_i hg
      rw [Option.some.injEq, Prod.mk.injEq] at h
      obtain ⟨rfl, rfl⟩ := h
      exact .send hg.1 (isClosed_eq_false.mp hg.2.1) hg.2.2
    · cases h
  | dropCall c =>
    simp only [step] at h
    split at h
    · rename_i hg
      rw [Option.some.injEq, Prod.mk.injEq] at h
      obtain ⟨rfl, rfl⟩ := h
      exact .dropCall hg
    · cases h
  | probeDone st r =>
    simp only [step] at h
    split at h
    · rename_i hg
      rw [Option.some.injEq, Prod.mk.injEq] at h
      obtain ⟨rfl, rfl⟩ := h
      exact .probeDone hg
    · cases h
  | abort =>
    simp only [step, Option.some.injEq, Prod.mk.injEq] at h
    obtain ⟨rfl, rfl⟩ := h
    exact .abort
  | inboundStream | inboundError | inboundClosed | outboundOk | outboundErr | recvCmd | recvNone
  | elapse | tick | recvDone | cancelled =>
    simp only [step] at h
    split at h
    · cases h
    · rename_i hopen
      exact loopStep_transition (isClosed_eq_false.mp (Bool.eq_false_iff.mpr hopen)) h

theorem running_of_step {d d' : Driver} {a : Act} {es : List Event}
    (hstep : d.step a = some (d', es)) (hrun : d'.ended = none) : d.ended = none := by
  cases step_transition hstep with
  | call | dropCall | probeDone | abort => exact hrun
  | send _ h₀ | inboundStream h₀ | stop h₀ | grantCall h₀ | grantProbe h₀ | refuseCall h₀
  | refuseBoth h₀ | refuseProbe h₀ | recvCmd h₀ | elapse h₀ | tick h₀ | success h₀ | failure h₀ =>
    exact h₀

theorem abortRequested_of_step {d d' : Driver} {a : Act} {es : List Event}
    (hstep : d.step a = some (d', es)) (ha : a ≠ .abort) :
    d'.abortRequested = d.abortRequested := by
  have hmiss : ∀ d : Driver, d.miss.1.abortRequested = d.abortRequested := by
    intro d
    rcases d.miss_cases with ⟨-, hm⟩ | ⟨-, hm⟩ <;> rw [hm]
    rfl
  cases step_transition hstep with
  | abort => exact absurd rfl ha
  | refuseBoth _ _ _ hd₀ | refuseProbe _ _ _ hd₀ | failure _ _ hd₀ => rw [hmiss, hd₀]
  | _ => rfl

theorem reply_eq_none {calls : CallId → Option CallState} {c c' : CallId}
    {r : Except OpenError StreamId} (hc : calls c' = none) : reply calls c r c' = none := by
  rw [reply]
  split
  · rename_i hw
    rw [Function.update_of_ne, hc]
    rintro rfl
    rw [hc] at hw
    cases hw
  · exact hc

theorem finish_calls_eq_none {d : Driver} {reason : EndReason} {c : CallId}
    (hc : d.calls c = none) : (d.finish reason).1.calls c = none := by
  simp only [finish, hc]

theorem calls_eq_none_of_step {d d' : Driver} {a : Act} {es : List Event} {c : CallId}
    (hstep : d.step a = some (d', es)) (hc : d.calls c = none) (ha : a ≠ .call c) :
    d'.calls c = none := by
  have hmiss : ∀ d : Driver, d.calls c = none → d.miss.1.calls c = none := by
    intro d hd
    rcases d.miss_cases with ⟨-, hm⟩ | ⟨-, hm⟩ <;> rw [hm]
    · exact hd
    · exact finish_calls_eq_none hd
  cases step_transition hstep with
  | @call c' s =>
    have hne : c ≠ c' := fun heq ↦ ha (heq ▸ rfl)
    exact (Function.update_of_ne hne _ _).trans hc
  | @send c' hc' =>
    have hne : c ≠ c' := fun heq ↦ by simp [← heq, hc] at hc'
    exact (Function.update_of_ne hne _ _).trans hc
  | @dropCall c' hc' =>
    have hne : c ≠ c' := fun heq ↦ by simp [← heq, hc] at hc'
    exact (Function.update_of_ne hne _ _).trans hc
  | stop => exact finish_calls_eq_none hc
  | grantCall | refuseCall => exact reply_eq_none hc
  | refuseBoth _ _ _ hd₀ => exact hmiss _ (hd₀ ▸ reply_eq_none hc)
  | refuseProbe _ _ _ hd₀ | failure _ _ hd₀ => exact hmiss _ (hd₀ ▸ hc)
  | _ => exact hc
end Driver

end ZoTunnel
