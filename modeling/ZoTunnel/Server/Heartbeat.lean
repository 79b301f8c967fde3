import ZoTunnel.Server.Registry

/-!
# Heartbeats

A heartbeat is wanted, then in flight, then counted as a success or as a miss. Three branches of
the driver count: a refused stream, a failed probe and an answered one. The invariant ties the
loop's flags and its counter to the history of the counted heartbeats, and the five-miss rule is
read off it.

A heartbeat has its outcome when the loop handles it. A probe that has finished but whose result is
unread is still in flight, which is what the flag says too.

## The budget

Every period should be accounted for by a counted heartbeat. It is, as long as no period elapses
while a heartbeat is outstanding: then the periods since the last success are the misses, and one
more for a heartbeat that is due or outstanding. The loop puts no bound on the time that yamux
takes to grant the wanted stream, and the tick branch is off meanwhile; a period that elapses then
is never counted, and the bound is lost.
-/

namespace ZoTunnel

namespace Driver

/-! ## Reading a history -/

/-- The counted heartbeats, in order. -/
def outcomes (h : List Event) : List Bool :=
  h.filterMap fun | .heartbeat ok => some ok | _ => none

/-- How many heartbeats failed in a row at the end of the history. -/
def missedSinceSuccess (h : List Event) : ℕ :=
  ((outcomes h).reverse.takeWhile (!·)).length

/-- The outcome that an action gives a heartbeat, read off the state before it: a refused stream
and a failed probe are failures alike. -/
def heartbeatOutcome (d : Driver) : Act → Option Bool
  | .outboundErr _ => if d.wantHbStream then some false else none
  | .recvDone _ => d.hbDone.head?.map fun r ↦ r.isOk
  | _ => none

section Append

variable (h h' : List Event)

@[simp] theorem outcomes_append : outcomes (h ++ h') = outcomes h ++ outcomes h' :=
  List.filterMap_append

@[simp] theorem missedSinceSuccess_nil : missedSinceSuccess [] = 0 := rfl

theorem missedSinceSuccess_append_of_nil (hh' : outcomes h' = []) :
    missedSinceSuccess (h ++ h') = missedSinceSuccess h := by
  rw [missedSinceSuccess, outcomes_append, hh', List.append_nil, missedSinceSuccess]

theorem missedSinceSuccess_append_of_success (hh' : outcomes h' = [true]) :
    missedSinceSuccess (h ++ h') = 0 := by
  rw [missedSinceSuccess, outcomes_append, hh', List.reverse_append]
  rfl

theorem missedSinceSuccess_append_of_failure (hh' : outcomes h' = [false]) :
    missedSinceSuccess (h ++ h') = missedSinceSuccess h + 1 := by
  rw [missedSinceSuccess, outcomes_append, hh', List.reverse_append]
  rfl

end Append

theorem outcomes_finish (d : Driver) (reason : EndReason) : outcomes (d.finish reason).2 = [] := by
  simp [finish, outcomes]

theorem outcomes_miss (d : Driver) : outcomes d.miss.2 = [false] := by
  rcases d.miss_cases with ⟨-, hm⟩ | ⟨-, hm⟩ <;> rw [hm]
  · rfl
  · have := d.outcomes_finish .missedHeartbeats
    rw [outcomes] at this ⊢
    rw [List.filterMap_cons, this]

/-- A step counts exactly the heartbeat that its action decides. -/
theorem step_outcomes {d d' : Driver} {a : Act} {es : List Event}
    (hstep : d.step a = some (d', es)) : outcomes es = (d.heartbeatOutcome a).toList := by
  cases step_transition hstep with
  | call | send | dropCall | probeDone | abort | inboundStream | grantCall | grantProbe | recvCmd
  | elapse | tick => rfl
  | @stop a reason hrun ha =>
    rw [outcomes_finish]
    simp only [List.mem_cons, List.not_mem_nil, or_false] at ha
    rcases ha with rfl | rfl | rfl | rfl <;> rfl
  | refuseCall _ _ hw => simp [heartbeatOutcome, hw, outcomes]
  | @refuseBoth e c d₀ _ _ hw hd₀ =>
    rw [heartbeatOutcome, if_pos hw]
    exact d₀.outcomes_miss
  | @refuseProbe e d₀ _ _ hw hd₀ =>
    rw [heartbeatOutcome, if_pos hw]
    exact d₀.outcomes_miss
  | success _ hdone => simp [heartbeatOutcome, hdone, outcomes, Except.isOk, Except.toBool]
  | @failure now e rs d₀ _ hdone hd₀ =>
    rw [outcomes_miss]
    simp [heartbeatOutcome, hdone, Except.isOk, Except.toBool]

/-! ## The invariant -/

/-- The loop's flags and its counter against the history. -/
structure Counts (h : List Event) (d : Driver) : Prop where
  /-- A wanted heartbeat has no stream yet. -/
  exclusive : d.wantHbStream = true → d.hbInFlight = false
  /-- While the task runs, the heartbeat in flight is one probe that is unfinished or whose result
  is unread, and there is no other. -/
  outstanding : d.ended = none → d.probes.length + d.hbDone.length = if d.hbInFlight then 1 else 0
  missed : d.missedHeartbeats = missedSinceSuccess h
  bound : d.ended = none → d.missedHeartbeats < maxMissed
  /-- The loop ends on misses with the fifth in a row. -/
  fifth : d.ended = some .missedHeartbeats ↔ d.missedHeartbeats = maxMissed
  /-- Without heartbeat support nothing is ever wanted, opened or counted. -/
  silent : d.supportsHeartbeat = false → d.wantHbStream = false ∧ d.hbInFlight = false ∧
    outcomes h = [] ∧ ∀ st, .probeStarted st ∉ h

namespace Counts

variable {h : List Event} {d d' : Driver} {a : Act} {es : List Event}

theorem spawn (supportsHeartbeat : Bool) (now : ℕ) :
    Counts [] (Driver.spawn supportsHeartbeat now) where
  exclusive hw := by cases hw
  outstanding _ := rfl
  missed := rfl
  bound _ := Nat.zero_lt_succ 4
  fifth := by constructor <;> intro h' <;> cases h'
  silent _ := ⟨rfl, rfl, rfl, fun st hst ↦ by cases hst⟩

/-- Events that are not about heartbeats, with the loop's variables unchanged. -/
private theorem congr (hi : Counts h d) (hes : outcomes es = [])
    (hprobe : ∀ st, .probeStarted st ∉ es) (hwant : d'.wantHbStream = d.wantHbStream)
    (hflight : d'.hbInFlight = d.hbInFlight) (hprobes : d'.probes = d.probes)
    (hdone : d'.hbDone = d.hbDone) (hmissed : d'.missedHeartbeats = d.missedHeartbeats)
    (hended : d'.ended = d.ended) (hsupports : d'.supportsHeartbeat = d.supportsHeartbeat) :
    Counts (h ++ es) d' := by
  constructor
  · rw [hwant, hflight]; exact hi.exclusive
  · rw [hended, hprobes, hdone, hflight]; exact hi.outstanding
  · rw [hmissed, missedSinceSuccess_append_of_nil _ _ hes]; exact hi.missed
  · rw [hended, hmissed]; exact hi.bound
  · rw [hended, hmissed]; exact hi.fifth
  · rw [hsupports, hwant, hflight, outcomes_append, hes, List.append_nil]
    intro hs
    obtain ⟨h₁, h₂, h₃, h₄⟩ := hi.silent hs
    exact ⟨h₁, h₂, h₃, fun st hst ↦ (List.mem_append.mp hst).elim (h₄ st) (hprobe st)⟩

private theorem probeStarted_not_mem_finish {reason : EndReason} {st : StreamId} :
    Event.probeStarted st ∉ (d.finish reason).2 := by
  simp [finish]

private theorem supports_of_want (hi : Counts h d) (hw : d.wantHbStream = true) :
    d.supportsHeartbeat = true := by
  by_contra hs
  have := (hi.silent (Bool.eq_false_iff.mpr hs)).1
  simp [hw] at this

private theorem not_want_of_inFlight (hi : Counts h d) (hflight : d.hbInFlight = true) :
    d.wantHbStream = false := by
  by_contra hw
  have := hi.exclusive (Bool.not_eq_false _ ▸ hw)
  simp [hflight] at this

/-- An unread result is the one of the heartbeat in flight. -/
private theorem inFlight_of_hbDone (hi : Counts h d) (hrun : d.ended = none)
    {r : Except ProbeError Unit} {rs : List (Except ProbeError Unit)} (hdone : d.hbDone = r :: rs) :
    d.hbInFlight = true ∧ d.supportsHeartbeat = true ∧ d.probes = [] ∧ rs = [] := by
  have hout := hi.outstanding hrun
  rw [hdone, List.length_cons] at hout
  have hflight : d.hbInFlight = true := by
    by_contra hf
    rw [if_neg hf] at hout
    omega
  rw [if_pos hflight] at hout
  refine ⟨hflight, ?_, List.eq_nil_of_length_eq_zero (by omega),
    List.eq_nil_of_length_eq_zero (by omega)⟩
  by_contra hs
  have := (hi.silent (Bool.eq_false_iff.mpr hs)).2.1
  simp [hflight] at this

/-- The task ends for another reason than the misses. -/
private theorem finish (hi : Counts h d) {reason : EndReason} (hrun : d.ended = none)
    (hreason : reason ≠ .missedHeartbeats) :
    Counts (h ++ (d.finish reason).2) (d.finish reason).1 := by
  constructor
  · exact hi.exclusive
  · exact fun hr ↦ absurd hr (Option.some_ne_none _)
  · rw [missedSinceSuccess_append_of_nil _ _ (outcomes_finish _ _)]
    exact hi.missed
  · exact fun hr ↦ absurd hr (Option.some_ne_none _)
  · constructor
    · intro he
      exact absurd (Option.some.inj he) hreason
    · intro he
      exact absurd he (hi.bound hrun).ne
  · intro hs
    obtain ⟨h₁, h₂, h₃, h₄⟩ := hi.silent hs
    refine ⟨h₁, h₂, by rw [outcomes_append, outcomes_finish, h₃]; rfl, fun st hst ↦ ?_⟩
    exact (List.mem_append.mp hst).elim (h₄ st) probeStarted_not_mem_finish

/-- A failure is counted. Here the flags are the ones after the branch has reset its own. -/
private theorem miss (hi : Counts h d) (d₀ : Driver) (es : List Event) (hrun : d.ended = none)
    (hs : d.supportsHeartbeat = true) (hended : d₀.ended = d.ended)
    (hmissed : d₀.missedHeartbeats = d.missedHeartbeats)
    (hsupports : d₀.supportsHeartbeat = d.supportsHeartbeat)
    (hexcl : d₀.wantHbStream = true → d₀.hbInFlight = false)
    (hout : d₀.probes.length + d₀.hbDone.length = if d₀.hbInFlight then 1 else 0)
    (hes : outcomes es = []) : Counts (h ++ (es ++ d₀.miss.2)) d₀.miss.1 := by
  have hcount : missedSinceSuccess (h ++ (es ++ d₀.miss.2)) = d₀.missedHeartbeats + 1 := by
    rw [missedSinceSuccess_append_of_failure, hmissed, hi.missed]
    rw [outcomes_append, hes, outcomes_miss, List.nil_append]
  have hbound : d₀.missedHeartbeats < maxMissed := hmissed ▸ hi.bound hrun
  have hs₀ : d₀.supportsHeartbeat ≠ false := by simp [hsupports, hs]
  rcases d₀.miss_cases with ⟨hlt, hm⟩ | ⟨hle, hm⟩ <;> rw [hm] at hcount ⊢
  · refine ⟨hexcl, fun _ ↦ hout, hcount.symm, fun _ ↦ hlt, ?_, fun hn ↦ absurd hn hs₀⟩
    simp [hended, hrun, hlt.ne]
  · refine ⟨hexcl, fun hr ↦ absurd hr (Option.some_ne_none _), hcount.symm,
      fun hr ↦ absurd hr (Option.some_ne_none _), ?_, fun hn ↦ absurd hn hs₀⟩
    exact ⟨fun _ ↦ Nat.le_antisymm hbound hle, fun _ ↦ rfl⟩

/-- **The step lemma.** -/
theorem step (hi : Counts h d) (hstep : d.step a = some (d', es)) : Counts (h ++ es) d' := by
  cases step_transition hstep with
  | call | send | dropCall | abort | inboundStream | recvCmd =>
    exact hi.congr rfl (by simp) rfl rfl rfl rfl rfl rfl rfl
  | grantCall | refuseCall => exact hi.congr rfl (by simp) rfl rfl rfl rfl rfl rfl rfl
  | elapse => exact hi.congr rfl (by simp) rfl rfl rfl rfl rfl rfl rfl
  | @probeDone st r hst =>
    rw [List.append_nil]
    refine ⟨hi.exclusive, fun hrun ↦ ?_, hi.missed, hi.bound, hi.fifth, hi.silent⟩
    -- The result moves from the probes to the channel of the results.
    have hlen : (d.probes.erase st).length + 1 = d.probes.length :=
      List.length_erase_add_one hst
    have hopen : ¬d.isClosed = true := by rw [Bool.not_eq_true]; exact isClosed_eq_false.mpr hrun
    calc (d.probes.erase st).length + (if d.isClosed then [] else d.hbDone ++ [r]).length
      _ = (d.probes.erase st).length + 1 + d.hbDone.length := by
        rw [if_neg hopen, List.length_append, List.length_singleton]
        omega
      _ = if d.hbInFlight then 1 else 0 := by rw [hlen]; exact hi.outstanding hrun
  | stop hrun _ hreason => exact hi.finish hrun hreason
  | grantProbe hrun hp hw =>
    have hs := hi.supports_of_want hw
    have hout := hi.outstanding hrun
    rw [hi.exclusive hw, if_neg Bool.false_ne_true] at hout
    refine ⟨fun hw' ↦ absurd hw' Bool.false_ne_true, fun _ ↦ ?_, ?_, hi.bound, hi.fifth,
      fun hn ↦ ?_⟩
    · change (d.probes ++ [d.nextStream]).length + d.hbDone.length = 1
      rw [List.length_append, List.length_singleton]
      omega
    · rw [missedSinceSuccess_append_of_nil _ _ rfl]
      exact hi.missed
    · rw [hs] at hn
      cases hn
  | @refuseBoth e c d₀ hrun hp hw hd₀ =>
    have hout := hi.outstanding hrun
    exact hi.miss d₀ [.answered c (.error (.yamuxOpen e))] hrun (hi.supports_of_want hw)
      (by rw [hd₀]) (by rw [hd₀]) (by rw [hd₀]) (by simp [hd₀]) (by rw [hd₀]; exact hout) rfl
  | @refuseProbe e d₀ hrun hp hw hd₀ =>
    have hout := hi.outstanding hrun
    exact hi.miss d₀ [] hrun (hi.supports_of_want hw) (by rw [hd₀]) (by rw [hd₀])
      (by rw [hd₀]) (by simp [hd₀]) (by rw [hd₀]; exact hout) rfl
  | tick hrun hen =>
    simp only [tickEnabled, Bool.and_eq_true, Bool.not_eq_true'] at hen
    obtain ⟨⟨hs, hflight⟩, -⟩ := hen
    rw [List.append_nil]
    refine ⟨fun _ ↦ hflight, hi.outstanding, hi.missed, hi.bound, hi.fifth, fun hn ↦ ?_⟩
    rw [hs] at hn
    cases hn
  | @success now rs hrun hdone =>
    obtain ⟨-, hs, hprobes, hrs⟩ := hi.inFlight_of_hbDone hrun hdone
    refine ⟨fun _ ↦ rfl, fun _ ↦ by simp [hprobes, hrs], ?_, fun _ ↦ Nat.zero_lt_succ 4, ?_,
      fun hn ↦ ?_⟩
    · rw [missedSinceSuccess_append_of_success _ _ rfl]
    · simp [hrun, maxMissed]
    · rw [hs] at hn
      cases hn
  | @failure now e rs d₀ hrun hdone hd₀ =>
    obtain ⟨-, hs, hprobes, hrs⟩ := hi.inFlight_of_hbDone hrun hdone
    exact hi.miss d₀ [] hrun hs (by rw [hd₀]) (by rw [hd₀]) (by rw [hd₀])
      (by simp [hd₀]) (by simp [hd₀, hprobes, hrs]) rfl

/-- **The run lemma.** -/
theorem of_reach {supportsHeartbeat : Bool} {now : ℕ}
    (hr : (machine supportsHeartbeat now).Reach h d) : Counts h d :=
  hr.invariant (spawn supportsHeartbeat now) fun _ _ _ _ _ _ hi hstep ↦ hi.step hstep

end Counts

theorem miss_supportsHeartbeat (d : Driver) :
    d.miss.1.supportsHeartbeat = d.supportsHeartbeat := by
  rcases d.miss_cases with ⟨-, hm⟩ | ⟨-, hm⟩ <;> rw [hm]
  rfl

/-- Heartbeat support is fixed when the task is spawned. -/
theorem step_supportsHeartbeat {d d' : Driver} {a : Act} {es : List Event}
    (hstep : d.step a = some (d', es)) : d'.supportsHeartbeat = d.supportsHeartbeat := by
  cases step_transition hstep with
  | refuseBoth _ _ _ hd₀ | refuseProbe _ _ _ hd₀ | failure _ _ hd₀ =>
    rw [miss_supportsHeartbeat, hd₀]
  | _ => rfl

theorem supportsHeartbeat_of_reach {supportsHeartbeat : Bool} {now : ℕ} {h : List Event}
    {d : Driver} (hr : (machine supportsHeartbeat now).Reach h d) :
    d.supportsHeartbeat = supportsHeartbeat :=
  hr.invariant (P := fun _ d ↦ d.supportsHeartbeat = supportsHeartbeat) rfl
    fun _ _ _ _ _ _ hi hstep ↦ (step_supportsHeartbeat hstep).trans hi

/-! ## The five-miss rule -/

/-- What holds of heartbeats in the history so far and in every step that may come next. -/
structure HeartbeatSound (supportsHeartbeat : Bool) (h : List Event) (d : Driver) : Prop where
  exclusive : ¬(d.wantHbStream = true ∧ d.hbInFlight = true)
  /-- One probe is unfinished or has an unread result if the flag is set, and none otherwise. -/
  one_probe : d.ended = none → d.probes.length + d.hbDone.length = if d.hbInFlight then 1 else 0
  missed : d.missedHeartbeats = missedSinceSuccess h
  below_five : d.ended = none → d.missedHeartbeats < 5
  ends_with_fifth : d.ended = some .missedHeartbeats ↔ missedSinceSuccess h = 5
  no_support : supportsHeartbeat = false →
    d.missedHeartbeats = 0 ∧ ∀ st, .probeStarted st ∉ h
  /-- Refused streams and failed probes count alike, and nothing else counts. -/
  counted : ∀ a d' es, d.step a = some (d', es) → outcomes es = (d.heartbeatOutcome a).toList
  /-- After two failures in a row the session does not look alive. -/
  not_alive : ∀ (e : ClientEntry) lastActivity now, e.supportsHeartbeat = true →
    2 ≤ missedSinceSuccess h → e.isAlive d lastActivity now = false

/-- **The five-miss rule**, in every reachable state of the driver of any session. -/
theorem heartbeat_sound (supportsHeartbeat : Bool) (now : ℕ) (h : List Event) (d : Driver)
    (hr : (machine supportsHeartbeat now).Reach h d) : HeartbeatSound supportsHeartbeat h d := by
  have hi : Counts h d := .of_reach hr
  refine ⟨fun ⟨hw, hf⟩ ↦ ?_, hi.outstanding, hi.missed, hi.bound, ?_, fun hs ↦ ?_,
    fun _ _ _ ↦ step_outcomes, fun e lastActivity now' he hmiss ↦ ?_⟩
  · rw [hi.exclusive hw] at hf
    cases hf
  · rw [← hi.missed]
    exact hi.fifth
  · rw [← supportsHeartbeat_of_reach hr] at hs
    obtain ⟨-, -, hout, hprobe⟩ := hi.silent hs
    refine ⟨?_, hprobe⟩
    rw [hi.missed, missedSinceSuccess, hout]
    rfl
  · have htake : takeoverAfterMissedHeartbeats ≤ d.missedHeartbeats := by
      rw [hi.missed]
      exact hmiss
    simp [ClientEntry.isAlive, he, htake]

/-- A refused stream and then four timeouts end the task. -/
theorem heartbeat_sound_five : ∃ h d,
    (machine true 0).run (spawn true 0) ([.elapse, .tick, .outboundErr ""] ++
      (List.range 4).flatMap fun st ↦ [.elapse, .tick, .outboundOk,
        .probeDone st (.error .timeout), .recvDone 0]) = some (d, h) ∧
    d.ended = some .missedHeartbeats ∧ HeartbeatSound true h d := by
  have hrun : ((machine true 0).run (spawn true 0) ([.elapse, .tick, .outboundErr ""] ++
      (List.range 4).flatMap fun st ↦ [.elapse, .tick, .outboundOk,
        .probeDone st (.error .timeout), .recvDone 0])).map (fun p ↦ p.1.ended) =
      some (some .missedHeartbeats) := by decide
  obtain ⟨⟨d, h⟩, hdh, heq⟩ := Option.map_eq_some_iff.mp hrun
  exact ⟨h, d, hdh, heq, heartbeat_sound true 0 h d (.of_run hdh)⟩

/-! ## The budget -/

/-- The periods since the last successful heartbeat, or since the start. -/
def periodsSinceSuccess (h : List Event) : ℕ :=
  (h.reverse.takeWhile (· ≠ .heartbeat true)).count .period

/-- No branch of the loop can run: nothing to take from the channels, and no tick to take. What
yamux answers is not up to the loop. -/
def quiescent (d : Driver) : Bool :=
  !(d.pendingOpen.isNone && !d.queue.isEmpty) && !(d.tickEnabled && d.tickDue) && d.hbDone.isEmpty

/-- The driver on a clock whose periods elapse only when the loop has nothing left to run. -/
def periodic (supportsHeartbeat : Bool) (now : ℕ) : Machine Driver Act Event :=
  (machine supportsHeartbeat now).guard fun d a ↦ a ≠ .elapse || d.quiescent

/-- A heartbeat is wanted or in flight. -/
def outstanding (d : Driver) : Bool := d.wantHbStream || d.hbInFlight

/-- While the task runs, every period since the last success is accounted for by a miss, up to one,
and with one more period the timeout is not yet exceeded. -/
def WithinBudget (h : List Event) (d : Driver) : Prop :=
  d.ended = none → periodsSinceSuccess h ≤ d.missedHeartbeats + 1 ∧
    (periodsSinceSuccess h + 1) * heartbeatIntervalSecs ≤ heartbeatTimeoutSecs

section Append

variable {h es : List Event}

@[simp] theorem periodsSinceSuccess_period :
    periodsSinceSuccess (h ++ [.period]) = periodsSinceSuccess h + 1 := by
  simp [periodsSinceSuccess]

@[simp] theorem periodsSinceSuccess_success : periodsSinceSuccess (h ++ [.heartbeat true]) = 0 := by
  simp [periodsSinceSuccess]

theorem periodsSinceSuccess_append (hes : ∀ e ∈ es, e ≠ .heartbeat true ∧ e ≠ .period) :
    periodsSinceSuccess (h ++ es) = periodsSinceSuccess h := by
  have hall : ∀ e ∈ es.reverse, decide (e ≠ .heartbeat true) = true := fun e he ↦
    decide_eq_true (hes e (List.mem_reverse.mp he)).1
  have hnone : es.reverse.count .period = 0 := List.count_eq_zero.mpr fun he ↦
    (hes _ (List.mem_reverse.mp he)).2 rfl
  rw [periodsSinceSuccess, List.reverse_append, List.takeWhile_append_of_pos hall,
    List.count_append, hnone, Nat.zero_add, periodsSinceSuccess]

end Append

theorem step_elapse {d d' : Driver} {es : List Event} (hstep : d.step .elapse = some (d', es)) :
    d.ended = none ∧ d' = { d with tickDue := true } ∧ es = [.period] := by
  simp only [step, loopStep] at hstep
  split at hstep
  · cases hstep
  · rename_i hopen
    rw [Option.some.injEq, Prod.mk.injEq] at hstep
    exact ⟨isClosed_eq_false.mp (Bool.eq_false_iff.mpr hopen), hstep.1.symm, hstep.2.symm⟩

theorem miss_of_running {d : Driver} (hrun : d.miss.1.ended = none) :
    d.miss = ({ d with missedHeartbeats := d.missedHeartbeats + 1 }, [.heartbeat false]) := by
  rcases d.miss_cases with ⟨-, hm⟩ | ⟨-, hm⟩
  · exact hm
  · rw [hm] at hrun
    exact absurd hrun (Option.some_ne_none _)

/-- The schedule on which no period elapses while a heartbeat is outstanding. -/
def punctual (now : ℕ) : Machine Driver Act Event :=
  (periodic true now).guard fun d a ↦ a ≠ .elapse || !d.outstanding

/-- The budget while no period elapses on an outstanding heartbeat. -/
structure Budget (h : List Event) (d : Driver) : Prop where
  counts : Counts h d
  supports : d.supportsHeartbeat = true
  /-- The periods are the misses, and one more for a heartbeat that is due or outstanding. -/
  periods : d.ended = none → periodsSinceSuccess h =
    d.missedHeartbeats + if d.tickDue || d.outstanding then 1 else 0
  due : d.ended = none → d.outstanding = true → d.tickDue = false

namespace Budget

variable {h es : List Event} {d d' : Driver} {a : Act}

private theorem settle (hi : Budget h d) {d₀ : Driver} (es : List Event) (hrun : d.ended = none)
    (hout : d.outstanding = true) (htick : d₀.tickDue = d.tickDue)
    (hmissed : d₀.missedHeartbeats = d.missedHeartbeats) (hout₀ : d₀.outstanding = false)
    (hes : ∀ e ∈ es, e ≠ .heartbeat true ∧ e ≠ .period) (hrun' : d₀.miss.1.ended = none) :
    (periodsSinceSuccess (h ++ (es ++ d₀.miss.2)) =
      d₀.miss.1.missedHeartbeats + if d₀.miss.1.tickDue || d₀.miss.1.outstanding then 1 else 0) ∧
    (d₀.miss.1.outstanding = true → d₀.miss.1.tickDue = false) := by
  have hdue : d₀.tickDue = false := htick.trans (hi.due hrun hout)
  have hp := hi.periods hrun
  rw [hout, Bool.or_true, if_pos rfl] at hp
  have hes' : ∀ e ∈ es ++ [Event.heartbeat false], e ≠ .heartbeat true ∧ e ≠ .period := by
    intro e he
    rcases List.mem_append.mp he with he | he
    · exact hes e he
    · rw [List.mem_singleton.mp he]
      simp
  rw [miss_of_running hrun']
  refine ⟨?_, fun _ ↦ hdue⟩
  rw [periodsSinceSuccess_append hes', hp, ← hmissed]
  obtain ⟨hw₀, hf₀⟩ := Bool.or_eq_false_iff.mp hout₀
  simp [outstanding, hdue, hw₀, hf₀]

/-- **The step lemma** for the budget. -/
theorem step {now : ℕ} (hi : Budget h d) (hstep : (punctual now).step d a = some (d', es)) :
    Budget (h ++ es) d' := by
  obtain ⟨hpunctual, hstep⟩ := Machine.guard_step_eq_some.mp hstep
  obtain ⟨hquiet, hstep⟩ := Machine.guard_step_eq_some.mp hstep
  replace hstep : d.step a = some (d', es) := hstep
  have key : d'.ended = none →
      (periodsSinceSuccess (h ++ es) =
        d'.missedHeartbeats + if d'.tickDue || d'.outstanding then 1 else 0) ∧
      (d'.outstanding = true → d'.tickDue = false) := by
    intro hrun'
    have hrun := running_of_step hstep hrun'
    have hp := hi.periods hrun
    have hdue := hi.due hrun
    cases step_transition hstep with
    | call | send | dropCall | probeDone | abort | inboundStream | grantCall | refuseCall
    | recvCmd =>
      rw [periodsSinceSuccess_append (by simp)]
      exact ⟨hp, hdue⟩
    | stop => exact absurd hrun' (Option.some_ne_none _)
    | grantProbe _ _ hw =>
      have hout : d.outstanding = true := by rw [outstanding, hw, Bool.true_or]
      rw [periodsSinceSuccess_append (by simp), hp, hout]
      exact ⟨rfl, fun _ ↦ hdue hout⟩
    | @refuseBoth e c d₀ _ _ hw hd₀ =>
      have hout : d.outstanding = true := by rw [outstanding, hw, Bool.true_or]
      have hflight := hi.counts.exclusive hw
      exact hi.settle [.answered c (.error (.yamuxOpen e))] hrun hout (by rw [hd₀])
        (by rw [hd₀]) (by simp [hd₀, outstanding, hflight]) (by simp) hrun'
    | @refuseProbe e d₀ _ _ hw hd₀ =>
      have hout : d.outstanding = true := by rw [outstanding, hw, Bool.true_or]
      have hflight := hi.counts.exclusive hw
      exact hi.settle [] hrun hout (by rw [hd₀]) (by rw [hd₀])
        (by simp [hd₀, outstanding, hflight]) (by simp) hrun'
    | elapse =>
      -- The tick of the period before has been taken, since the loop was quiescent.
      have hout : d.outstanding = false := by simpa using hpunctual
      have hen : d.tickEnabled = true := by
        rw [outstanding, Bool.or_eq_false_iff] at hout
        rw [tickEnabled, hi.supports, hout.1, hout.2]
        rfl
      have htick : d.tickDue = false := by
        have hq : d.quiescent = true := by simpa using hquiet
        simp only [quiescent, hen, Bool.and_eq_true, Bool.not_eq_true', Bool.true_and] at hq
        exact hq.1.2
      rw [periodsSinceSuccess_period, hp, htick, hout]
      refine ⟨rfl, fun ho ↦ ?_⟩
      rw [show outstanding { d with tickDue := true } = d.outstanding from rfl, hout] at ho
      cases ho
    | tick _ _ htick =>
      rw [List.append_nil, hp, htick]
      exact ⟨rfl, fun _ ↦ rfl⟩
    | success _ hdone =>
      obtain ⟨hflight, -⟩ := hi.counts.inFlight_of_hbDone hrun hdone
      have hw : d.wantHbStream = false := hi.counts.not_want_of_inFlight hflight
      have htick : d.tickDue = false := hdue (by rw [outstanding, hflight, Bool.or_true])
      rw [periodsSinceSuccess_success]
      simp [outstanding, hw, htick]
    | @failure now e rs d₀ _ hdone hd₀ =>
      obtain ⟨hflight, -⟩ := hi.counts.inFlight_of_hbDone hrun hdone
      have hw : d.wantHbStream = false := hi.counts.not_want_of_inFlight hflight
      exact hi.settle [] hrun (by rw [outstanding, hflight, Bool.or_true]) (by rw [hd₀])
        (by rw [hd₀]) (by simp [hd₀, outstanding, hw]) (by simp) hrun'
  exact ⟨hi.counts.step hstep, (step_supportsHeartbeat hstep).trans hi.supports,
    fun hrun' ↦ (key hrun').1, fun hrun' ↦ (key hrun').2⟩

theorem of_reach {now : ℕ} (hr : (punctual now).Reach h d) : Budget h d :=
  hr.invariant ⟨.spawn true now, rfl, fun _ ↦ rfl, fun _ _ ↦ rfl⟩
    fun _ _ _ _ _ _ hi hstep ↦ hi.step hstep

theorem withinBudget (hi : Budget h d) : WithinBudget h d := by
  intro hrun
  have hp := hi.periods hrun
  have hle : periodsSinceSuccess h ≤ d.missedHeartbeats + 1 := by
    rw [hp]
    split <;> omega
  have hbound : d.missedHeartbeats < 5 := hi.counts.bound hrun
  refine ⟨hle, ?_⟩
  calc (periodsSinceSuccess h + 1) * heartbeatIntervalSecs
    _ ≤ 6 * 15 := Nat.mul_le_mul_right _ (by omega)
    _ = heartbeatTimeoutSecs := rfl

end Budget

/-- **The budget, exactly.** A run of the driver of a heartbeat session stays within the budget
throughout if and only if in it no period elapses while a heartbeat is outstanding. -/
theorem within_budget_iff (now : ℕ) (as : List Act) (d : Driver) (h : List Event)
    (hrun : (periodic true now).run (spawn true now) as = some (d, h)) :
    (∀ as₁ as₂ d₁ h₁, as = as₁ ++ as₂ →
      (periodic true now).run (spawn true now) as₁ = some (d₁, h₁) → WithinBudget h₁ d₁) ↔
    ∀ as₁ as₂ d₁ h₁, as = as₁ ++ .elapse :: as₂ →
      (periodic true now).run (spawn true now) as₁ = some (d₁, h₁) → d₁.outstanding = false := by
  -- A stretch on which the condition held so far keeps the invariant.
  have hreach : ∀ as₁ d₁ h₁, (periodic true now).run (spawn true now) as₁ = some (d₁, h₁) →
      (∀ bs₁ bs₂ d₂ h₂, as₁ = bs₁ ++ .elapse :: bs₂ →
        (periodic true now).run (spawn true now) bs₁ = some (d₂, h₂) → d₂.outstanding = false) →
      Budget h₁ d₁ := by
    intro as₁ d₁ h₁ hrun₁ hcond
    have hr : (punctual now).Reach h₁ d₁ := by
      refine .of_run (Machine.run_guard_of_forall hrun₁ ?_)
      intro bs₁ a bs₂ d₂ h₂ heq hrun₂
      by_cases ha : a = .elapse
      · subst ha
        simp [hcond bs₁ bs₂ d₂ h₂ heq hrun₂]
      · simp [ha]
    exact .of_reach hr
  constructor
  · intro hbudget as₁
    -- The first period on an outstanding heartbeat would break the budget.
    induction hn : as₁.length using Nat.strong_induction_on generalizing as₁ with
    | _ n ih =>
      intro as₂ d₁ h₁ heq hrun₁
      have hi : Budget h₁ d₁ := by
        refine hreach as₁ d₁ h₁ hrun₁ fun bs₁ bs₂ d₂ h₂ heq' hrun₂ ↦ ?_
        refine ih bs₁.length ?_ bs₁ rfl (bs₂ ++ .elapse :: as₂) d₂ h₂ ?_ hrun₂
        · rw [← hn, heq', List.length_append, List.length_cons]
          omega
        · rw [heq, heq', List.append_assoc, List.cons_append]
      by_contra hout
      rw [Bool.not_eq_false] at hout
      have hsplit : as = (as₁ ++ [.elapse]) ++ as₂ := by
        rw [heq, List.append_assoc, List.singleton_append]
      rw [heq] at hrun
      obtain ⟨d', h', h'', hrun', htail, -⟩ := Machine.run_append_eq_some.mp hrun
      rw [hrun₁, Option.some.injEq, Prod.mk.injEq] at hrun'
      obtain ⟨rfl, rfl⟩ := hrun'
      obtain ⟨d₂, es, h₂, hstep, -, -⟩ := Machine.run_cons_eq_some.mp htail
      have hrun₂ := Machine.run_append_eq_some.mpr
        ⟨d₁, h₁, es, hrun₁, Machine.run_singleton hstep, rfl⟩
      obtain ⟨hopen, rfl, rfl⟩ := step_elapse (Machine.guard_step_eq_some.mp hstep).2
      have hle := (hbudget _ _ _ _ hsplit hrun₂ hopen).1
      have hp := hi.periods hopen
      rw [hout, Bool.or_true, if_pos rfl] at hp
      rw [periodsSinceSuccess_period, hp] at hle
      exact absurd hle (by simp)
  · intro hcond as₁ as₂ d₁ h₁ heq hrun₁
    refine (hreach as₁ d₁ h₁ hrun₁ fun bs₁ bs₂ d₂ h₂ heq' hrun₂ ↦ ?_).withinBudget
    exact hcond bs₁ (bs₂ ++ as₂) d₂ h₂ (by rw [heq, heq', List.append_assoc, List.cons_append])
      hrun₂

/-- Two periods, of which the first heartbeat is answered and the second fails. -/
theorem within_budget_iff_two : ∃ h d,
    (periodic true 0).run (spawn true 0) [.elapse, .tick, .outboundOk, .probeDone 0 (.ok ()),
      .recvDone 20, .elapse, .tick, .outboundErr ""] = some (d, h) ∧ WithinBudget h d := by
  set as : List Act := [.elapse, .tick, .outboundOk, .probeDone 0 (.ok ()), .recvDone 20, .elapse,
    .tick, .outboundErr ""] with has
  have hrun : ((periodic true 0).run (spawn true 0) as).isSome = true := by
    rw [has]
    decide
  have hcond : ∀ i < 8, as[i]? = some .elapse → ((periodic true 0).run (spawn true 0)
      (as.take i)).map (fun p ↦ p.1.outstanding) = some false := by
    rw [has]
    decide
  obtain ⟨⟨d, h⟩, hdh⟩ := Option.isSome_iff_exists.mp hrun
  refine ⟨h, d, hdh, ?_⟩
  refine (within_budget_iff 0 as d h hdh).mpr ?_ as [] d h (List.append_nil _).symm hdh
  intro as₁ as₂ d₁ h₁ heq hrun₁
  have hlt : as₁.length < 8 := by
    have hlen : as.length = as₁.length + (as₂.length + 1) := by
      rw [heq, List.length_append, List.length_cons]
    have h8 : as.length = 8 := rfl
    omega
  have hone := hcond as₁.length hlt (by rw [heq]; simp)
  rw [heq, List.take_left, hrun₁] at hone
  exact Option.some.inj hone

/-- **The budget is broken** when yamux grants no stream: after eight periods nothing has been
counted as missed, and the task still runs. -/
theorem budget_broken : ∃ h d,
    (periodic true 0).run (spawn true 0) ([.elapse, .tick] ++ List.replicate 7 .elapse) =
      some (d, h) ∧
    d.ended = none ∧ d.missedHeartbeats = 0 ∧ periodsSinceSuccess h = 8 ∧ ¬WithinBudget h d := by
  have hrun : ((periodic true 0).run (spawn true 0)
      ([.elapse, .tick] ++ List.replicate 7 .elapse)).map
      (fun p ↦ (p.1.ended, p.1.missedHeartbeats, periodsSinceSuccess p.2)) = some (none, 0, 8) := by
    decide
  obtain ⟨⟨d, h⟩, hdh, heq⟩ := Option.map_eq_some_iff.mp hrun
  simp only [Prod.mk.injEq] at heq
  obtain ⟨hopen, hmissed, hperiods⟩ := heq
  refine ⟨h, d, hdh, hopen, hmissed, hperiods, fun hb ↦ ?_⟩
  have := (hb hopen).1
  omega

end Driver

end ZoTunnel
