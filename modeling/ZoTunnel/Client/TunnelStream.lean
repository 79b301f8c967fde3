import ZoTunnel.Protocol.Message

/-!
# The client's end of a stream

For each stream that the server opens, `run_session_with_status` spawns a task. It reads one byte,
the marker. A heartbeat is answered by the same byte; behind any other marker the task connects to
the local service and copies in both directions.

The timeout for the marker is left out: the marker is assumed to arrive in time. That reading,
writing and connecting can fail is not.
-/

namespace ZoTunnel

/-- Where the task of a stream stands. -/
inductive StreamTask
  | awaiting
  /-- The marker is that of a heartbeat; writing the answer. -/
  | answering
  | answered
  | connecting
  | copying
  | finished
  deriving DecidableEq, Repr

/-- The client's end of a stream. -/
structure TunnelStream where
  inbox : Bytes := []
  task : StreamTask := .awaiting
  /-- What was passed to the local service, once it is connected to. -/
  passed : Option Bytes := none
  back : Bytes := []
  deriving DecidableEq, Repr

namespace TunnelStream

inductive Act
  | readMarker
  | answer (ok : Bool)
  | connect (ok : Bool)
  /-- `n` bytes are copied to the local service. -/
  | copy (n : ℕ)
  | copyBack (bs : Bytes)
  /-- Reading the marker fails, or the copying ends. -/
  | stop
  deriving DecidableEq, Repr

/-- Bytes arrive. -/
def recv (x : TunnelStream) (bs : Bytes) : TunnelStream := { x with inbox := x.inbox ++ bs }

/-- One step of the task. -/
def step (x : TunnelStream) : Act → Option TunnelStream
  | .readMarker =>
    match x.task, x.inbox with
    | .awaiting, marker :: inbox =>
      let task := if marker = streamTypeHeartbeat then .answering else .connecting
      some { x with inbox, task }
    | _, _ => none
  | .answer ok =>
    match x.task with
    | .answering =>
      if ok then some { x with back := x.back ++ [streamTypeHeartbeat], task := .answered }
      else some { x with task := .finished }
    | _ => none
  | .connect ok =>
    match x.task with
    | .connecting =>
      if ok then some { x with passed := some [], task := .copying }
      else some { x with task := .finished }
    | _ => none
  | .copy n =>
    match x.task, x.passed with
    | .copying, some passed =>
      some { x with passed := some (passed ++ x.inbox.take n), inbox := x.inbox.drop n }
    | _, _ => none
  | .copyBack bs =>
    match x.task with
    | .copying => some { x with back := x.back ++ bs }
    | _ => none
  | .stop =>
    match x.task with
    | .awaiting | .copying => some { x with task := .finished }
    | _ => none

/-! ## What the task has read

The invariant of the task: the bytes it has read decide what it does, and what it has done says
which bytes it has read. -/

/-- The bytes that a task has read, by where it stands and what it has done. -/
inductive Consumed : StreamTask → Bytes → Option Bytes → Bytes → Prop
  | awaiting : Consumed .awaiting [] none []
  | answering : Consumed .answering [streamTypeHeartbeat] none []
  | answered : Consumed .answered [streamTypeHeartbeat] none [streamTypeHeartbeat]
  | connecting {marker : UInt8} (hm : marker ≠ streamTypeHeartbeat) :
      Consumed .connecting [marker] none []
  | copying {marker : UInt8} {passed back : Bytes} (hm : marker ≠ streamTypeHeartbeat) :
      Consumed .copying (marker :: passed) (some passed) back
  | given {bs : Bytes} : Consumed .finished bs none []
  | copied {marker : UInt8} {passed back : Bytes} (hm : marker ≠ streamTypeHeartbeat) :
      Consumed .finished (marker :: passed) (some passed) back

/-- What the server has written to the stream is what the task has read, and then what it has not
read. -/
def Conserves (x : TunnelStream) (sent : Bytes) : Prop :=
  ∃ consumed, sent = consumed ++ x.inbox ∧ Consumed x.task consumed x.passed x.back

variable {x y : TunnelStream} {a : Act} {sent : Bytes}

namespace Conserves

theorem fresh : Conserves {} [] := ⟨[], rfl, .awaiting⟩

theorem recv (hi : x.Conserves sent) (bs : Bytes) : (x.recv bs).Conserves (sent ++ bs) := by
  obtain ⟨consumed, rfl, hc⟩ := hi
  exact ⟨consumed, List.append_assoc _ _ _, hc⟩

/-- **The step lemma.** -/
theorem step (hi : x.Conserves sent) (hstep : x.step a = some y) : y.Conserves sent := by
  obtain ⟨consumed, rfl, hc⟩ := hi
  obtain ⟨inbox, task, passed, back⟩ := x
  cases hc with
  | awaiting =>
    cases a with
    | readMarker =>
      cases inbox with
      | nil => cases hstep
      | cons marker inbox =>
        rw [TunnelStream.step, Option.some.injEq] at hstep
        subst hstep
        refine ⟨[marker], rfl, ?_⟩
        by_cases hm : marker = streamTypeHeartbeat
        · rw [hm, if_pos rfl]
          exact .answering
        · rw [if_neg hm]
          exact .connecting hm
    | stop =>
      cases hstep
      exact ⟨[], rfl, .given⟩
    | _ => cases hstep
  | answering =>
    cases a with
    | answer ok =>
      cases ok <;> cases hstep
      · exact ⟨_, rfl, .given⟩
      · exact ⟨_, rfl, .answered⟩
    | _ => cases hstep
  | connecting hm =>
    cases a with
    | connect ok =>
      cases ok <;> cases hstep
      · exact ⟨_, rfl, .given⟩
      · exact ⟨_, rfl, .copying hm⟩
    | _ => cases hstep
  | @copying marker passed _ hm =>
    cases a with
    | copy n =>
      cases hstep
      refine ⟨marker :: (passed ++ inbox.take n), ?_, .copying hm⟩
      rw [List.cons_append, List.cons_append, List.append_assoc, List.take_append_drop]
    | copyBack bs =>
      cases hstep
      exact ⟨_, rfl, .copying hm⟩
    | stop =>
      cases hstep
      exact ⟨_, rfl, .copied hm⟩
    | _ => cases hstep
  | answered | given | copied => cases a <;> cases hstep

/-- **A stream of a request.** Behind a marker other than that of a heartbeat, the bytes passed to
the local service and those not read yet are all the bytes that follow the marker. -/
theorem proxied (hi : x.Conserves sent)
    (hfirst : ∀ marker rest, sent = marker :: rest → marker ≠ streamTypeHeartbeat) :
    x.task ≠ .answering ∧ x.task ≠ .answered ∧
      ∀ passed, x.passed = some passed → ∃ marker, sent = marker :: (passed ++ x.inbox) := by
  obtain ⟨consumed, rfl, hc⟩ := hi
  obtain ⟨inbox, task, passed, back⟩ := x
  cases hc with
  | awaiting | connecting | given => exact ⟨nofun, nofun, nofun⟩
  | answering | answered => exact absurd rfl (hfirst _ _ rfl)
  | copying | copied =>
    refine ⟨nofun, nofun, fun l hl ↦ ?_⟩
    rw [Option.some.injEq] at hl
    exact hl ▸ ⟨_, rfl⟩

/-- **A heartbeat stream.** The task connects to nothing, and answers one byte at most; when it has
answered, that byte. -/
theorem heartbeat (hi : x.Conserves sent)
    (hfirst : ∀ marker rest, sent = marker :: rest → marker = streamTypeHeartbeat) :
    x.passed = none ∧ x.task ≠ .connecting ∧ x.task ≠ .copying ∧
      (x.back = [] ∨ x.task = .answered ∧ x.back = [streamTypeHeartbeat]) := by
  obtain ⟨consumed, rfl, hc⟩ := hi
  obtain ⟨inbox, task, passed, back⟩ := x
  cases hc with
  | awaiting | answering | given => exact ⟨rfl, nofun, nofun, .inl rfl⟩
  | answered => exact ⟨rfl, nofun, nofun, .inr ⟨rfl, rfl⟩⟩
  | connecting hm | copying hm | copied hm => exact absurd (hfirst _ _ rfl) hm

/-- A task that still awaits the marker has read nothing. -/
theorem awaiting (hi : x.Conserves sent) (ht : x.task = .awaiting) :
    x.inbox = sent ∧ x.passed = none ∧ x.back = [] := by
  obtain ⟨consumed, rfl, hc⟩ := hi
  obtain ⟨inbox, task, passed, back⟩ := x
  cases ht
  cases hc with
  | awaiting => exact ⟨rfl, rfl, rfl⟩

end Conserves

/-! ## What the task can still do -/

/-- Several steps of the task. -/
def run (x : TunnelStream) (as : List Act) : Option TunnelStream := as.foldlM step x

/-- All that follows the marker of a request can be passed to the local service. -/
theorem run_proxied {marker : UInt8} {http : Bytes} (hinbox : x.inbox = marker :: http)
    (ht : x.task = .awaiting) (hm : marker ≠ streamTypeHeartbeat) :
    ∃ y, x.run [.readMarker, .connect true, .copy http.length] = some y ∧
      y.passed = some http ∧ y.inbox = [] := by
  obtain ⟨inbox, task, passed, back⟩ := x
  cases hinbox
  cases ht
  refine ⟨⟨[], .copying, some http, back⟩, ?_, rfl, rfl⟩
  simp [run, step, hm]

theorem run_heartbeat {rest : Bytes} (hinbox : x.inbox = streamTypeHeartbeat :: rest)
    (ht : x.task = .awaiting) (hback : x.back = []) :
    ∃ y, x.run [.readMarker, .answer true] = some y ∧ y.back = [streamTypeHeartbeat] := by
  obtain ⟨inbox, task, passed, back⟩ := x
  cases hinbox
  cases ht
  cases hback
  exact ⟨⟨rest, .answered, passed, [streamTypeHeartbeat]⟩, rfl, rfl⟩

end TunnelStream

end ZoTunnel
