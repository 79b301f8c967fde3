import ZoTunnel.Protocol.Message

/-!
# Reconnecting

`run_with_reconnect` runs one attempt after the other and sleeps in between. An attempt fails before
it is authenticated, or it is a session that ends some time after. The loop tells the two apart by
the result of `run_cancellable`, which is an error in the first case only, but it prints a different
line for them and nothing else: the delay doubles after either, up to thirty seconds, and never goes
back. So the first session of a run that gets the initial delay has to be the first attempt
(`backoff_sound_iff`).

What the network does in an attempt is an input here. The streams of a session are left out, and so
is why it ends, since `run_cancellable` returns `Ok` for every end.
-/

namespace ZoTunnel

namespace Reconnect

/-! ## One attempt -/

/-- What the client tells about itself. -/
inductive TunnelStatus
  | stopped
  | connecting
  | connected (route : String)
  | error (message : String)
  deriving DecidableEq, Repr

/-- What an attempt reads of the client. -/
structure Client where
  serverAddr : String
  tlsEnabled : Bool

/-- What the steps of an attempt come to, each if the attempt gets there. -/
structure Attempt where
  connect : Except String Unit
  tlsConnect : Except String Unit
  sendAuthReq : Except String Unit
  authRes : Except String Message

/-- The host that the server has told, or the route. -/
def hostOf (res : AuthRes) : String :=
  match res.message.toList.dropPrefix? "OK — ".toList with
  | some host => String.ofList host
  | none => res.assignedRoute.getD "-"

variable (debug : Message → String) (client : Client)

/-- The session behind the connection, with the status that it sends. A session that was
authenticated comes to its end without an error. -/
def Attempt.runSessionWithStatus (a : Attempt) : Except String Unit × List TunnelStatus :=
  match a.sendAuthReq with
  | .error e => (.error e, [])
  | .ok () =>
    match a.authRes with
    | .error e => (.error ("read auth response: " ++ e), [])
    | .ok (.authRes res) =>
      if res.success then (.ok (), [.connected ("https://" ++ hostOf res)])
      else (.error ("Authentication failed: " ++ res.message), [])
    | .ok other => (.error ("Expected AuthRes, got " ++ debug other), [])

def Attempt.runWithStatus (a : Attempt) : Except String Unit × List TunnelStatus :=
  match a.connect with
  | .error e => (.error ("connect to " ++ client.serverAddr ++ ": " ++ e), [])
  | .ok () =>
    if client.tlsEnabled then
      match a.tlsConnect with
      | .error e => (.error e, [])
      | .ok () => a.runSessionWithStatus debug
    else a.runSessionWithStatus debug

/-- Where in a turn of the loop the cancellation is noticed. -/
inductive CancelPoint
  | before
  /-- The attempt has sent that many of its status messages. -/
  | during (sent : ℕ)
  | ended
  | sleeping
  deriving DecidableEq, Repr

/-- One attempt, and the cancellation if it comes. -/
structure Turn where
  attempt : Attempt
  cancel : Option CancelPoint := none

/-- `run_cancellable`: the result, and all status messages. -/
def Turn.runCancellable (turn : Turn) : Except String Unit × List TunnelStatus :=
  let (result, sent) := turn.attempt.runWithStatus debug client
  match turn.cancel, result with
  | some (.during n), _ => (.ok (), .connecting :: sent.take n ++ [.stopped])
  | _, .error e => (.error e, .connecting :: sent ++ [.error e])
  | _, .ok () => (.ok (), .connecting :: sent)

/-! ## The loop -/

/-- An attempt that has come to its end: its status messages, the line that is printed, and the
delay before the next one. -/
structure Ended where
  statuses : List TunnelStatus
  line : String
  delay : UInt64
  deriving DecidableEq, Repr

/-- The status has been `Connected`. -/
def Ended.Authenticated (e : Ended) : Prop := ∃ route, .connected route ∈ e.statuses

/-- The delay after the next attempt. -/
def nextBackoff (backoff : UInt64) : UInt64 := min (backoff * 2) 30

/-- `run_with_reconnect` from a turn of the loop on. It returns when it is cancelled, and only
then. -/
def runWithReconnect : UInt64 → List Turn → List Ended
  | _, [] => []
  | backoff, turn :: turns =>
    let (result, statuses) := turn.runCancellable debug client
    let line := match result with
      | .ok () => "Session ended, reconnecting in " ++ toString backoff ++ "s..."
      | .error e => "Error: " ++ e ++ ". Reconnecting in " ++ toString backoff ++ "s..."
    match turn.cancel with
    | some .before | some (.during _) | some .ended => []
    | some .sleeping => [⟨statuses, line, backoff⟩]
    | none => ⟨statuses, line, backoff⟩ :: runWithReconnect (nextBackoff backoff) turns

/-- What the delays are wanted to be. -/
structure BackoffSound (es : List Ended) : Prop where
  /-- A session that was authenticated and has ended is tried again after one second. -/
  initial : ∀ e ∈ es, e.Authenticated → e.delay = 1
  /-- From failed attempt to failed attempt the delay does not get shorter. -/
  growing : ∀ i e e', es[i]? = some e → es[i + 1]? = some e' → ¬e.Authenticated →
    ¬e'.Authenticated → e.delay ≤ e'.delay
  bounded : ∀ e ∈ es, ¬e.Authenticated → e.delay ≤ 30

/-- An attempt that gets through to a successful answer. -/
def Attempt.Authenticates (a : Attempt) : Prop :=
  a.connect = .ok () ∧ (client.tlsEnabled = true → a.tlsConnect = .ok ()) ∧
    a.sendAuthReq = .ok () ∧ ∃ res, a.authRes = .ok (.authRes res) ∧ res.success = true

/-! ## Which attempts are authenticated -/

variable {client} {a : Attempt} {turn : Turn} {turns : List Turn} {b : UInt64}

private theorem connected_runSession :
    (∃ route, .connected route ∈ (a.runSessionWithStatus debug).2) ↔
      a.sendAuthReq = .ok () ∧ ∃ res, a.authRes = .ok (.authRes res) ∧ res.success = true := by
  rw [Attempt.runSessionWithStatus]
  cases a.sendAuthReq with
  | error e => simp
  | ok =>
    cases a.authRes with
    | error e => simp
    | ok m =>
      cases m with
      | authRes res => cases hres : res.success <;> simp [hres]
      | _ => simp

private theorem connected_runWithStatus :
    (∃ route, .connected route ∈ (a.runWithStatus debug client).2) ↔ a.Authenticates client := by
  rw [Attempt.runWithStatus, Attempt.Authenticates]
  cases a.connect with
  | error e => simp
  | ok =>
    by_cases htls : client.tlsEnabled = true
    · cases a.tlsConnect with
      | error e => simp [htls]
      | ok => simpa [htls] using connected_runSession debug
    · simpa [htls] using connected_runSession debug

/-- An attempt has the status `Connected` if and only if it gets through. -/
theorem connected_runCancellable (hcancel : turn.cancel = none) :
    (∃ route, .connected route ∈ (turn.runCancellable debug client).2) ↔
      turn.attempt.Authenticates client := by
  rw [← connected_runWithStatus debug, Turn.runCancellable, hcancel]
  obtain ⟨result, sent⟩ := turn.attempt.runWithStatus debug client
  cases result with
  | error e => simp
  | ok => simp

/-! ## The delays -/

variable (client)

theorem toNat_nextBackoff (hle : b.toNat ≤ 30) :
    (nextBackoff b).toNat = min (b.toNat * 2) 30 := by
  have hmul : (b * 2).toNat = b.toNat * 2 := by
    rw [UInt64.toNat_mul]
    exact Nat.mod_eq_of_lt (by change b.toNat * 2 < _; omega)
  change (if b * 2 ≤ 30 then b * 2 else 30).toNat = _
  by_cases hmin : b * 2 ≤ 30
  · have hnat : b.toNat * 2 ≤ 30 := hmul ▸ UInt64.le_iff_toNat_le.mp hmin
    rw [if_pos hmin, hmul, Nat.min_eq_left hnat]
  · have hnat : 30 < b.toNat * 2 := by
      rw [UInt64.le_iff_toNat_le, hmul, Nat.not_le] at hmin
      exact hmin
    rw [if_neg hmin, Nat.min_eq_right hnat.le]
    rfl

/-- The attempt as it ends, with the delay that is due. -/
def Turn.ended (turn : Turn) (b : UInt64) : Ended where
  statuses := (turn.runCancellable debug client).2
  line := match (turn.runCancellable debug client).1 with
    | .ok () => "Session ended, reconnecting in " ++ toString b ++ "s..."
    | .error e => "Error: " ++ e ++ ". Reconnecting in " ++ toString b ++ "s..."
  delay := b

theorem runWithReconnect_cons (hcancel : turn.cancel = none) :
    runWithReconnect debug client b (turn :: turns) =
      turn.ended debug client b :: runWithReconnect debug client (nextBackoff b) turns := by
  rw [runWithReconnect, hcancel]
  rfl

/-- **The delays never get shorter**, and stay between the first one and thirty seconds. -/
theorem delays_sorted (hcancel : ∀ turn ∈ turns, turn.cancel = none) (hle : b.toNat ≤ 30) :
    (∀ e ∈ runWithReconnect debug client b turns, b.toNat ≤ e.delay.toNat ∧ e.delay.toNat ≤ 30) ∧
      (runWithReconnect debug client b turns).Pairwise fun e e' ↦ e.delay ≤ e'.delay := by
  induction turns generalizing b with
  | nil => exact ⟨fun e he ↦ (by cases he), .nil⟩
  | cons turn turns ih =>
    have hnext := toNat_nextBackoff hle
    obtain ⟨hbound, hpair⟩ := ih (b := nextBackoff b)
      (fun turn hmem ↦ hcancel turn (List.mem_cons_of_mem _ hmem)) (by omega)
    rw [runWithReconnect_cons debug client (hcancel turn List.mem_cons_self), List.forall_mem_cons,
      List.pairwise_cons]
    have hlater : ∀ e ∈ runWithReconnect debug client (nextBackoff b) turns,
        b.toNat ≤ e.delay.toNat := by
      intro e he
      have := (hbound e he).1
      omega
    exact ⟨⟨⟨le_rfl, hle⟩, fun e he ↦ ⟨hlater e he, (hbound e he).2⟩⟩,
      fun e he ↦ UInt64.le_iff_toNat_le.mpr (hlater e he), hpair⟩

/-- Every turn comes to an end with its own status messages. -/
theorem map_statuses (hcancel : ∀ turn ∈ turns, turn.cancel = none) :
    (runWithReconnect debug client b turns).map Ended.statuses =
      turns.map fun turn ↦ (turn.runCancellable debug client).2 := by
  induction turns generalizing b with
  | nil => rfl
  | cons turn turns ih =>
    rw [runWithReconnect_cons debug client (hcancel turn List.mem_cons_self), List.map_cons,
      List.map_cons, ih fun turn hmem ↦ hcancel turn (List.mem_cons_of_mem _ hmem)]
    rfl

/-- **Only a first attempt gets back to the initial delay.** Without a cancellation, the delays are
as they are wanted to be if and only if no attempt but the first one is authenticated. -/
theorem backoff_sound_iff (debug : Message → String) (client : Client) (turns : List Turn)
    (hcancel : ∀ turn ∈ turns, turn.cancel = none) :
    BackoffSound (runWithReconnect debug client 1 turns) ↔
      ∀ turn ∈ turns.tail, ¬turn.attempt.Authenticates client := by
  have hsorted := delays_sorted debug client (b := 1) hcancel (by decide)
  cases turns with
  | nil =>
    refine iff_of_true ⟨fun e he ↦ ?_, fun i e e' hi ↦ ?_, fun e he ↦ ?_⟩ fun turn hmem ↦ ?_
    · cases he
    · exact absurd hi (by simp [runWithReconnect])
    · cases he
    · cases hmem
  | cons turn turns =>
    rw [runWithReconnect_cons debug client (hcancel turn List.mem_cons_self)] at hsorted ⊢
    have htail : ∀ turn ∈ turns, turn.cancel = none :=
      fun turn hmem ↦ hcancel turn (List.mem_cons_of_mem _ hmem)
    have hmap := map_statuses debug client (b := nextBackoff 1) htail
    -- the second delay is two seconds already
    have hnext : (nextBackoff 1).toNat = 2 := by
      rw [toNat_nextBackoff (by decide)]
      rfl
    have htwo : ∀ e ∈ runWithReconnect debug client (nextBackoff 1) turns, e.delay ≠ 1 := by
      intro e he heq
      have hle : (nextBackoff 1).toNat ≤ e.delay.toNat :=
        ((delays_sorted debug client htail (by omega)).1 e he).1
      rw [heq, hnext] at hle
      exact absurd hle (by decide)
    constructor
    · intro hs turn' hmem hauth
      have hstat : (turn'.runCancellable debug client).2 ∈
          (runWithReconnect debug client (nextBackoff 1) turns).map Ended.statuses :=
        hmap ▸ List.mem_map_of_mem hmem
      obtain ⟨e, he, heq⟩ := List.mem_map.mp hstat
      have hconn : e.Authenticated := by
        rw [Ended.Authenticated, heq]
        exact (connected_runCancellable debug (htail turn' hmem)).mpr hauth
      exact htwo e he (hs.initial e (List.mem_cons_of_mem _ he) hconn)
    · intro hnone
      refine ⟨fun e he hauth ↦ ?_, fun i e e' hi hi' _ _ ↦ ?_, fun e he _ ↦ ?_⟩
      · rcases List.mem_cons.mp he with rfl | he
        · rfl
        · have hstat : e.statuses ∈ turns.map fun turn ↦ (turn.runCancellable debug client).2 :=
            hmap ▸ List.mem_map_of_mem he
          obtain ⟨turn', hmem, heq⟩ := List.mem_map.mp hstat
          rw [Ended.Authenticated, ← heq] at hauth
          exact absurd ((connected_runCancellable debug (htail turn' hmem)).mp hauth)
            (hnone turn' hmem)
      · obtain ⟨hlt, rfl⟩ := List.getElem?_eq_some_iff.mp hi
        obtain ⟨hlt', rfl⟩ := List.getElem?_eq_some_iff.mp hi'
        exact List.pairwise_iff_getElem.mp hsorted.2 i (i + 1) hlt hlt' (Nat.lt_succ_self i)
      · exact UInt64.le_iff_toNat_le.mpr (hsorted.1 e he).2

/-- An attempt that gets no connection. -/
def unreachable : Attempt where
  connect := .error "connection refused"
  tlsConnect := .ok ()
  sendAuthReq := .ok ()
  authRes := .error ""

/-- An attempt that is authenticated. -/
def healthy : Attempt where
  connect := .ok ()
  tlsConnect := .ok ()
  sendAuthReq := .ok ()
  authRes := .ok (.authRes
    { success := true, message := "OK — app.d.io", publicPort := none, assignedRoute := none })

/-- A client without TLS. -/
def plainClient : Client := ⟨"d.io:6200", false⟩

theorem authenticates_healthy : healthy.Authenticates plainClient :=
  ⟨rfl, fun h ↦ (by cases h), rfl, _, rfl, rfl⟩

/-- The first session is lost, and then the server is away. -/
theorem backoff_sound_iff_lost : BackoffSound
    (runWithReconnect (fun _ ↦ "") plainClient 1 [⟨healthy, none⟩, ⟨unreachable, none⟩]) := by
  refine (backoff_sound_iff _ _ _ (by simp)).mpr fun turn hmem ↦ ?_
  obtain rfl := List.mem_singleton.mp hmem
  rintro ⟨hconnect, -⟩
  cases hconnect

/-- **A session behind a failed attempt is tried again after two seconds.** -/
theorem backoff_not_sound : ¬∀ debug client turns, (∀ turn ∈ turns, turn.cancel = none) →
    BackoffSound (runWithReconnect debug client 1 turns) := by
  intro hall
  have hs := hall (fun _ ↦ "") plainClient [⟨unreachable, none⟩, ⟨healthy, none⟩] (by simp)
  rw [runWithReconnect_cons _ _ rfl, runWithReconnect_cons _ _ rfl] at hs
  have hauth : ∃ route, .connected route ∈
      (Turn.runCancellable (fun _ ↦ "") plainClient ⟨healthy, none⟩).2 :=
    (connected_runCancellable _ rfl).mpr authenticates_healthy
  have hdelay : nextBackoff 1 = 1 :=
    hs.initial _ (List.mem_cons_of_mem _ List.mem_cons_self) hauth
  exact absurd hdelay (by decide)

end Reconnect

end ZoTunnel
