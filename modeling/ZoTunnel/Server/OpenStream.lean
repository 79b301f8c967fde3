import ZoTunnel.Server.Driver

/-!
# Commands, replies and streams

Every call of `open_stream` comes to an end, and every stream that yamux hands out has one owner.

The accounting is one equation: the commands sent are the commands answered, followed by the ones
the task still holds, in the same order. It gives at-most-once and queue order, and with the task
over and nothing held it says that everything sent has been answered. A caller that drops its
future leaves its command where it is; the reply then finds nobody.
-/

namespace ZoTunnel

namespace Driver

/-! ## Reading a history -/

def sentCalls (h : List Event) : List CallId :=
  h.filterMap fun | .sent c => some c | _ => none

def takenCalls (h : List Event) : List CallId :=
  h.filterMap fun | .taken c => some c | _ => none

def answeredCalls (h : List Event) : List CallId :=
  h.filterMap fun | .answered c _ => some c | _ => none

def grantedStreams (h : List Event) : List StreamId :=
  h.filterMap fun | .granted st => some st | _ => none

/-- Who a stream goes to. -/
inductive Owner
  | call (c : CallId)
  | probe
  deriving DecidableEq

/-- The streams that found an owner, with the owner, in order. -/
def handedTo (h : List Event) : List (StreamId × Owner) :=
  h.filterMap fun
    | .answered c (.ok st) => some (st, .call c)
    | .probeStarted st => some (st, .probe)
    | _ => none

section Append

variable (h h' : List Event)

@[simp] theorem sentCalls_append : sentCalls (h ++ h') = sentCalls h ++ sentCalls h' :=
  List.filterMap_append

@[simp] theorem takenCalls_append : takenCalls (h ++ h') = takenCalls h ++ takenCalls h' :=
  List.filterMap_append

@[simp] theorem answeredCalls_append :
    answeredCalls (h ++ h') = answeredCalls h ++ answeredCalls h' :=
  List.filterMap_append

@[simp] theorem grantedStreams_append :
    grantedStreams (h ++ h') = grantedStreams h ++ grantedStreams h' :=
  List.filterMap_append

@[simp] theorem handedTo_append : handedTo (h ++ h') = handedTo h ++ handedTo h' :=
  List.filterMap_append

end Append

theorem mem_answeredCalls {h : List Event} {c : CallId} :
    c ∈ answeredCalls h ↔ ∃ r, .answered c r ∈ h := by
  rw [answeredCalls, List.mem_filterMap]
  constructor
  · rintro ⟨e, he, hc⟩
    cases e <;> simp only [reduceCtorEq, Option.some.injEq] at hc
    subst hc
    exact ⟨_, he⟩
  · rintro ⟨r, hr⟩
    exact ⟨_, hr, rfl⟩

/-! ## The accounting invariant -/

/-- The accounting of commands, callers and streams. -/
structure Accounts (h : List Event) (d : Driver) : Prop where
  order : sentCalls h = answeredCalls h ++ d.heldCommands
  taken : d.ended = none → takenCalls h = answeredCalls h ++ d.pendingOpen.toList
  taken_sent : takenCalls h <+: sentCalls h
  nodup : (sentCalls h).Nodup
  /-- A caller is past `send` once its command is in the channel. -/
  known : ∀ c ∈ sentCalls h, d.calls c ≠ none ∧ d.calls c ≠ some .sending
  waiting : ∀ c, d.calls c = some .waiting → c ∈ d.heldCommands
  held : ∀ c ∈ d.heldCommands, d.calls c = some .waiting ∨ d.calls c = some .dropped
  /-- An answer reaches the caller, unless the caller is gone. -/
  answered : ∀ c r, .answered c r ∈ h → d.calls c = some (.returned r) ∨ d.calls c = some .dropped
  /-- A caller with a stream got it from the loop. -/
  got : ∀ c st, d.calls c = some (.returned (.ok st)) → .answered c (.ok st) ∈ h
  /-- The task over, nothing is held and nobody waits for room. -/
  atEnd : d.ended ≠ none → d.heldCommands = [] ∧ ∀ c, d.calls c ≠ some .sending
  granted : grantedStreams h = List.range d.nextStream
  /-- The streams that found an owner are the streams granted. -/
  owned : (handedTo h).map Prod.fst = grantedStreams h
  notDiscarded : ∀ st, .discarded st ∉ h

namespace Accounts

variable {h : List Event} {d d' : Driver}

theorem spawn (supportsHeartbeat : Bool) (now : ℕ) :
    Accounts [] (Driver.spawn supportsHeartbeat now) where
  order := rfl
  taken _ := rfl
  taken_sent := List.nil_prefix
  nodup := List.nodup_nil
  known c hc := by cases hc
  waiting c hc := by cases hc
  held c hc := by cases hc
  answered c r hr := by cases hr
  got c st hc := by cases hc
  atEnd hne := absurd rfl hne
  granted := rfl
  owned := rfl
  notDiscarded st hst := by cases hst

/-- Only the callers, the commands, the task and yamux's counter matter. -/
theorem congr (hi : Accounts h d) (hcalls : d'.calls = d.calls) (hqueue : d'.queue = d.queue)
    (hpending : d'.pendingOpen = d.pendingOpen) (hended : d'.ended = d.ended)
    (hstream : d'.nextStream = d.nextStream) : Accounts h d' := by
  have hheld : d'.heldCommands = d.heldCommands := by
    rw [heldCommands, heldCommands, hqueue, hpending]
  constructor
  · rw [hheld]; exact hi.order
  · rw [hended, hpending]; exact hi.taken
  · exact hi.taken_sent
  · exact hi.nodup
  · rw [hcalls]; exact hi.known
  · rw [hcalls, hheld]; exact hi.waiting
  · rw [hcalls, hheld]; exact hi.held
  · rw [hcalls]; exact hi.answered
  · rw [hcalls]; exact hi.got
  · rw [hended, hheld, hcalls]; exact hi.atEnd
  · rw [hstream]; exact hi.granted
  · exact hi.owned
  · exact hi.notDiscarded

/-- An event that is neither about a command nor about a stream. -/
private def Quiet (e : Event) : Prop :=
  (∃ ok, e = .heartbeat ok) ∨ e = .period ∨ ∃ reason, e = .ended reason

private theorem quiet (hi : Accounts h d) {e : Event} (he : Quiet e) : Accounts (h ++ [e]) d := by
  have hsent : sentCalls [e] = [] := by rcases he with ⟨_, rfl⟩ | rfl | ⟨_, rfl⟩ <;> rfl
  have htaken : takenCalls [e] = [] := by rcases he with ⟨_, rfl⟩ | rfl | ⟨_, rfl⟩ <;> rfl
  have hans : answeredCalls [e] = [] := by rcases he with ⟨_, rfl⟩ | rfl | ⟨_, rfl⟩ <;> rfl
  have hgr : grantedStreams [e] = [] := by rcases he with ⟨_, rfl⟩ | rfl | ⟨_, rfl⟩ <;> rfl
  have hto : handedTo [e] = [] := by rcases he with ⟨_, rfl⟩ | rfl | ⟨_, rfl⟩ <;> rfl
  constructor
  · simpa [hsent, hans] using hi.order
  · simpa [htaken, hans] using hi.taken
  · simpa [htaken, hsent] using hi.taken_sent
  · simpa [hsent] using hi.nodup
  · simpa [hsent] using hi.known
  · exact hi.waiting
  · exact hi.held
  · intro c r hr
    rcases List.mem_append.mp hr with hr | hr
    · exact hi.answered c r hr
    · rcases he with ⟨_, rfl⟩ | rfl | ⟨_, rfl⟩ <;> simp at hr
  · exact fun c st hc ↦ List.mem_append_left _ (hi.got c st hc)
  · exact hi.atEnd
  · simpa [hgr] using hi.granted
  · simpa [hto, hgr] using hi.owned
  · intro st hst
    rcases List.mem_append.mp hst with hst | hst
    · exact hi.notDiscarded st hst
    · rcases he with ⟨_, rfl⟩ | rfl | ⟨_, rfl⟩ <;> simp at hst

private theorem finish_calls_cases (d : Driver) (reason : EndReason) (c : CallId) :
    d.calls c = some .sending ∧
        (d.finish reason).1.calls c = some (.returned (.error .driverGone)) ∨
      d.calls c = some .waiting ∧ (d.finish reason).1.calls c =
        (if c ∈ d.heldCommands then some (.returned (.error .driverDropped)) else some .waiting) ∨
      d.calls c ≠ some .sending ∧ d.calls c ≠ some .waiting ∧
        (d.finish reason).1.calls c = d.calls c := by
  simp only [Driver.finish]
  split
  · exact .inl ⟨‹_›, rfl⟩
  · exact .inr (.inl ⟨‹_›, rfl⟩)
  · exact .inr (.inr ⟨‹_›, ‹_›, rfl⟩)

/-- The end of the task: the pending reply and the queued ones fail. -/
private theorem finish (hi : Accounts h d) (reason : EndReason) :
    Accounts (h ++ (d.finish reason).2) (d.finish reason).1 := by
  set es := (d.finish reason).2 with hes
  replace hes : es = d.heldCommands.map (fun c ↦ .answered c (.error .driverDropped)) ++
    [.ended reason] := hes
  have hsent : sentCalls es = [] := by simp [hes, sentCalls]
  have htaken : takenCalls es = [] := by simp [hes, takenCalls]
  have hans : answeredCalls es = d.heldCommands := by
    simp [hes, answeredCalls, List.filterMap_map]
  have hgr : grantedStreams es = [] := by simp [hes, grantedStreams]
  have hto : handedTo es = [] := by simp [hes, handedTo]
  have hheld : (d.finish reason).1.heldCommands = [] := rfl
  constructor
  · rw [sentCalls_append, answeredCalls_append, hsent, hans, hheld, List.append_nil,
      List.append_nil]
    exact hi.order
  · exact fun hrun ↦ absurd hrun (Option.some_ne_none reason)
  · simpa [hsent, htaken] using hi.taken_sent
  · simpa [hsent] using hi.nodup
  · intro c hc
    rw [sentCalls_append, hsent, List.append_nil] at hc
    obtain ⟨hne, hns⟩ := hi.known c hc
    rcases finish_calls_cases d reason c with ⟨hs, -⟩ | ⟨-, heq⟩ | ⟨-, -, heq⟩
    · exact absurd hs hns
    · rw [heq]
      split <;> simp
    · rw [heq]
      exact ⟨hne, hns⟩
  · -- Whoever waits has a command that is held, so it has been answered.
    intro c hc
    rcases finish_calls_cases d reason c with ⟨-, heq⟩ | ⟨hw, heq⟩ | ⟨-, hnw, heq⟩
    · rw [heq] at hc
      cases hc
    · rw [heq, if_pos (hi.waiting c hw)] at hc
      cases hc
    · exact absurd (heq ▸ hc) hnw
  · intro c hc
    rw [hheld] at hc
    cases hc
  · intro c r hr
    rcases List.mem_append.mp hr with hr | hr
    · rcases hi.answered c r hr with hc | hc <;> simp [Driver.finish, hc]
    · rw [hes, List.mem_append] at hr
      rcases hr with hr | hr
      · obtain ⟨c', hc', heq⟩ := List.mem_map.mp hr
        rw [Event.answered.injEq] at heq
        obtain ⟨rfl, rfl⟩ := heq
        rcases hi.held _ hc' with hw | hw <;> simp [Driver.finish, hw, hc']
      · simp at hr
  · intro c st hc
    rcases finish_calls_cases d reason c with ⟨-, heq⟩ | ⟨-, heq⟩ | ⟨-, -, heq⟩
    · rw [heq] at hc
      cases hc
    · rw [heq] at hc
      split at hc <;> cases hc
    · exact List.mem_append_left _ (hi.got c st (heq ▸ hc))
  · refine fun _ ↦ ⟨hheld, fun c hc ↦ ?_⟩
    rcases finish_calls_cases d reason c with ⟨-, heq⟩ | ⟨-, heq⟩ | ⟨hs, -, heq⟩
    · rw [heq] at hc
      cases hc
    · rw [heq] at hc
      split at hc <;> cases hc
    · exact absurd (heq ▸ hc) hs
  · rw [grantedStreams_append, hgr, List.append_nil]
    exact hi.granted
  · rw [handedTo_append, grantedStreams_append, hto, hgr, List.append_nil, List.append_nil]
    exact hi.owned
  · intro st hst
    rcases List.mem_append.mp hst with hst | hst
    · exact hi.notDiscarded st hst
    · simp [hes] at hst

/-- A counted failure changes no command; with the fifth the task ends. -/
private theorem miss (hi : Accounts h d) : Accounts (h ++ d.miss.2) d.miss.1 := by
  have hi' : Accounts (h ++ [.heartbeat false])
      { d with missedHeartbeats := d.missedHeartbeats + 1 } :=
    (hi.quiet (.inl ⟨_, rfl⟩)).congr rfl rfl rfl rfl rfl
  rcases d.miss_cases with ⟨-, hm⟩ | ⟨-, hm⟩
  · rw [hm]
    exact hi'
  · rw [hm]
    have := hi'.finish .missedHeartbeats
    rwa [List.append_assoc] at this

/-- The pending command is answered, and the stream, if one came, is its caller's. -/
private theorem answer (hi : Accounts h d) {c : CallId} (gr : List Event) (hrun : d.ended = none)
    (hp : d.pendingOpen = some c) {r : Except OpenError StreamId}
    (hgr : (gr = [] ∧ d'.nextStream = d.nextStream ∧ ∃ e, r = .error e) ∨
      (gr = [.granted d.nextStream] ∧ d'.nextStream = d.nextStream + 1 ∧ r = .ok d.nextStream))
    (hcalls : d'.calls = reply d.calls c r) (hqueue : d'.queue = d.queue)
    (hpending : d'.pendingOpen = none) (hended : d'.ended = d.ended) :
    Accounts (h ++ (gr ++ [.answered c r])) d' := by
  have hheld : d.heldCommands = c :: d'.heldCommands := by
    rw [heldCommands, heldCommands, hp, hpending, hqueue]
    rfl
  have hsent : sentCalls (gr ++ [.answered c r]) = [] := by
    rcases hgr with ⟨rfl, -⟩ | ⟨rfl, -⟩ <;> rfl
  have htaken : takenCalls (gr ++ [.answered c r]) = [] := by
    rcases hgr with ⟨rfl, -⟩ | ⟨rfl, -⟩ <;> rfl
  have hans : answeredCalls (gr ++ [.answered c r]) = [c] := by
    rcases hgr with ⟨rfl, -⟩ | ⟨rfl, -⟩ <;> rfl
  -- The pending command is sent once, so it is neither answered before nor held behind.
  have hnodup : (answeredCalls h ++ c :: d'.heldCommands).Nodup := by
    rw [← hheld, ← hi.order]
    exact hi.nodup
  have hfresh : c ∉ answeredCalls h := fun hc ↦
    (List.disjoint_of_nodup_append hnodup) hc List.mem_cons_self
  have hother : c ∉ d'.heldCommands := fun hc ↦
    (List.nodup_cons.mp (List.nodup_append.mp hnodup).2.1).1 hc
  have hc' : d.calls c = some .waiting ∨ d.calls c = some .dropped :=
    hi.held c (hheld ▸ List.mem_cons_self)
  -- The answer finds its caller, or the caller is gone.
  have hself : d'.calls c = some (.returned r) ∨ d'.calls c = some .dropped := by
    rw [hcalls, reply]
    rcases hc' with hw | hw
    · exact .inl (by rw [if_pos hw, Function.update_self])
    · exact .inr (by rw [if_neg (by simp [hw]), hw])
  have hrest : ∀ c', c' ≠ c → d'.calls c' = d.calls c' := by
    intro c' hne
    rw [hcalls, reply]
    split
    · exact Function.update_of_ne hne _ _
    · rfl
  constructor
  · rw [sentCalls_append, answeredCalls_append, hsent, hans, List.append_nil, hi.order, hheld,
      List.append_assoc, List.singleton_append]
  · intro _
    rw [takenCalls_append, answeredCalls_append, htaken, hans, hpending, hi.taken hrun, hp]
    simp
  · simpa [hsent, htaken] using hi.taken_sent
  · simpa [hsent] using hi.nodup
  · intro c' hc
    rw [sentCalls_append, hsent, List.append_nil] at hc
    by_cases hcc : c' = c
    · rw [hcc]
      rcases hself with h' | h' <;> simp [h']
    · rw [hrest c' hcc]
      exact hi.known c' hc
  · intro c' hw
    have hcc : c' ≠ c := by
      rintro rfl
      rcases hself with h' | h' <;> simp [h'] at hw
    rw [hrest c' hcc] at hw
    have := hi.waiting c' hw
    rw [hheld, List.mem_cons] at this
    exact this.resolve_left hcc
  · intro c' hh
    rw [hrest c' fun hcc ↦ hother (hcc ▸ hh)]
    exact hi.held c' (hheld ▸ List.mem_cons_of_mem _ hh)
  · intro c' r' hr
    rcases List.mem_append.mp hr with hr | hr
    · rw [hrest c' fun hcc ↦ hfresh (hcc ▸ mem_answeredCalls.mpr ⟨r', hr⟩)]
      exact hi.answered c' r' hr
    · have heq : c' = c ∧ r' = r := by
        rcases hgr with ⟨rfl, -⟩ | ⟨rfl, -⟩ <;> simpa using hr
      rw [heq.1, heq.2]
      exact hself
  · intro c' st hc
    by_cases hcc : c' = c
    · subst hcc
      have hr : r = .ok st := by
        rcases hself with h' | h' <;> rw [h'] at hc <;> cases hc
        rfl
      rw [hr]
      exact List.mem_append_right _ (List.mem_append_right _ List.mem_cons_self)
    · rw [hrest c' hcc] at hc
      exact List.mem_append_left _ (hi.got c' st hc)
  · intro hne
    exact absurd (hended.trans hrun) hne
  · rcases hgr with ⟨rfl, hn, -⟩ | ⟨rfl, hn, -⟩
    · rw [grantedStreams_append, hn, ← hi.granted]
      exact List.append_nil _
    · rw [grantedStreams_append, hn, List.range_succ, ← hi.granted]
      rfl
  · rw [handedTo_append, grantedStreams_append, List.map_append, hi.owned]
    rcases hgr with ⟨rfl, -, e, rfl⟩ | ⟨rfl, -, rfl⟩ <;> rfl
  · intro st hst
    rcases List.mem_append.mp hst with hst | hst
    · exact hi.notDiscarded st hst
    · rcases hgr with ⟨rfl, -⟩ | ⟨rfl, -⟩ <;> simp at hst

/-- A new call, or a caller that goes away: no command moves. -/
private theorem caller (hi : Accounts h d) {c : CallId} {s : CallState} (hw : s ≠ .waiting)
    (hs : s = .sending → d.ended = none) (hok : ∀ st, s ≠ .returned (.ok st))
    (hc : d.calls c = none ∨ s = .dropped) :
    Accounts h { d with calls := Function.update d.calls c (some s) } := by
  refine ⟨hi.order, hi.taken, hi.taken_sent, hi.nodup, fun c' hc' ↦ ?_, fun c' hc' ↦ ?_,
    fun c' hc' ↦ ?_, fun c' r hr ↦ ?_, fun c' st hc' ↦ ?_,
    fun hover ↦ ⟨(hi.atEnd hover).1, fun c' hc' ↦ ?_⟩, hi.granted, hi.owned, hi.notDiscarded⟩
  all_goals by_cases hcc : c' = c
  · subst hcc
    rcases hc with hc | rfl
    · exact absurd hc (hi.known c' hc').1
    · simp
  · simpa [hcc] using hi.known c' hc'
  · subst hcc
    exact absurd (by simpa using hc') hw
  · exact hi.waiting c' (by simpa [hcc] using hc')
  · subst hcc
    rcases hc with hc | rfl
    · have := hi.held c' hc'
      simp [hc] at this
    · simp
  · simpa [hcc] using hi.held c' hc'
  · subst hcc
    rcases hc with hc | rfl
    · have := hi.answered c' r hr
      simp [hc] at this
    · simp
  · simpa [hcc] using hi.answered c' r hr
  · subst hcc
    exact absurd (by simpa using hc') (hok st)
  · exact hi.got c' st (by simpa [hcc] using hc')
  · subst hcc
    exact hover (hs (by simpa using hc'))
  · exact (hi.atEnd hover).2 c' (by simpa [hcc] using hc')

/-- A command enters the channel behind all the others. -/
private theorem send (hi : Accounts h d) {c : CallId} (hc : d.calls c = some .sending)
    (hrun : d.ended = none) : Accounts (h ++ [.sent c])
      { d with queue := d.queue ++ [c], calls := Function.update d.calls c (some .waiting) } := by
  have hheld (calls' : CallId → Option CallState) :
      ({ d with queue := d.queue ++ [c], calls := calls' } : Driver).heldCommands =
        d.heldCommands ++ [c] :=
    (List.append_assoc _ _ _).symm
  have hsent : sentCalls (h ++ [.sent c]) = sentCalls h ++ [c] := sentCalls_append _ _
  have hans : answeredCalls (h ++ [.sent c]) = answeredCalls h := by simp [answeredCalls]
  have htaken : takenCalls (h ++ [.sent c]) = takenCalls h := by simp [takenCalls]
  -- A caller that waits for room has not sent its command.
  have hnew : c ∉ sentCalls h := fun hm ↦ (hi.known c hm).2 hc
  have hmem : ∀ c' ∈ d.heldCommands, c' ≠ c := by
    rintro c' hc' rfl
    rcases hi.held _ hc' with h' | h' <;> simp [hc] at h'
  constructor
  · rw [hsent, hans, hheld, hi.order, List.append_assoc]
  · rw [hans, htaken]
    exact hi.taken
  · rw [hsent, htaken]
    exact hi.taken_sent.trans (List.prefix_append _ _)
  · rw [hsent, List.nodup_append]
    refine ⟨hi.nodup, List.nodup_singleton c, fun x hx y hy hxy ↦ hnew ?_⟩
    rwa [← List.mem_singleton.mp hy, ← hxy]
  · intro c' hc'
    by_cases hcc : c' = c
    · simp [hcc]
    · rw [hsent, List.mem_append, List.mem_singleton, or_iff_left hcc] at hc'
      simpa [hcc] using hi.known c' hc'
  · intro c' hw
    rw [hheld, List.mem_append, List.mem_singleton]
    by_cases hcc : c' = c
    · exact .inr hcc
    · exact .inl (hi.waiting c' (by simpa [hcc] using hw))
  · intro c' hc'
    rw [hheld, List.mem_append, List.mem_singleton] at hc'
    rcases hc' with hc' | rfl
    · simpa [hmem c' hc'] using hi.held c' hc'
    · simp
  · intro c' r hr
    have hr' : .answered c' r ∈ h := by simpa using hr
    have hcc : c' ≠ c := by
      rintro rfl
      rcases hi.answered _ _ hr' with h' | h' <;> simp [hc] at h'
    simpa [hcc] using hi.answered c' r hr'
  · intro c' st hc'
    by_cases hcc : c' = c
    · simp [hcc] at hc'
    · exact List.mem_append_left _ (hi.got c' st (by simpa [hcc] using hc'))
  · exact fun hover ↦ absurd hrun hover
  · simpa [grantedStreams] using hi.granted
  · simpa [grantedStreams, handedTo] using hi.owned
  · exact fun st hst ↦ hi.notDiscarded st (by simpa using hst)

/-- The loop takes the oldest command of the channel into the free slot. -/
private theorem take (hi : Accounts h d) {c : CallId} {cs : List CallId} (hrun : d.ended = none)
    (hp : d.pendingOpen = none) (hq : d.queue = c :: cs) :
    Accounts (h ++ [.taken c]) { d with queue := cs, pendingOpen := some c } := by
  have hheld : ({ d with queue := cs, pendingOpen := some c } : Driver).heldCommands =
      d.heldCommands := by
    rw [heldCommands, heldCommands, hp, hq]
    rfl
  have htaken : takenCalls (h ++ [.taken c]) = answeredCalls h ++ [c] := by
    rw [takenCalls_append, hi.taken hrun, hp, Option.toList_none, List.append_nil]
    rfl
  have hsent : sentCalls (h ++ [.taken c]) = sentCalls h := by simp [sentCalls]
  have hans : answeredCalls (h ++ [.taken c]) = answeredCalls h := by simp [answeredCalls]
  constructor
  · rw [hsent, hans, hheld]
    exact hi.order
  · intro _
    rw [htaken, hans]
    rfl
  · rw [htaken, hsent, hi.order, heldCommands, hp, hq]
    exact ⟨cs, by simp⟩
  · rw [hsent]
    exact hi.nodup
  · rw [hsent]
    exact hi.known
  · rw [hheld]
    exact hi.waiting
  · rw [hheld]
    exact hi.held
  · exact fun c' r hr ↦ hi.answered c' r (by simpa using hr)
  · exact fun c' st hc' ↦ List.mem_append_left _ (hi.got c' st hc')
  · exact fun hover ↦ absurd hrun hover
  · simpa [grantedStreams] using hi.granted
  · simpa [grantedStreams, handedTo] using hi.owned
  · exact fun st hst ↦ hi.notDiscarded st (by simpa using hst)

/-- A stream that no command waits for goes to the probe. -/
private theorem probe (hi : Accounts h d) (hcalls : d'.calls = d.calls)
    (hqueue : d'.queue = d.queue) (hpending : d'.pendingOpen = d.pendingOpen)
    (hended : d'.ended = d.ended) (hstream : d'.nextStream = d.nextStream + 1) :
    Accounts (h ++ [.granted d.nextStream, .probeStarted d.nextStream]) d' := by
  set es : List Event := [.granted d.nextStream, .probeStarted d.nextStream] with hes
  have hheld : d'.heldCommands = d.heldCommands := by
    rw [heldCommands, heldCommands, hqueue, hpending]
  have hsent : sentCalls (h ++ es) = sentCalls h := by simp [hes, sentCalls]
  have hans : answeredCalls (h ++ es) = answeredCalls h := by simp [hes, answeredCalls]
  have htaken : takenCalls (h ++ es) = takenCalls h := by simp [hes, takenCalls]
  constructor
  · rw [hsent, hans, hheld]; exact hi.order
  · rw [hended, htaken, hans, hpending]; exact hi.taken
  · rw [hsent, htaken]; exact hi.taken_sent
  · rw [hsent]; exact hi.nodup
  · rw [hsent, hcalls]; exact hi.known
  · rw [hcalls, hheld]; exact hi.waiting
  · rw [hcalls, hheld]; exact hi.held
  · rw [hcalls]; exact fun c r hr ↦ hi.answered c r (by simpa [hes] using hr)
  · rw [hcalls]; exact fun c st hc ↦ List.mem_append_left _ (hi.got c st hc)
  · rw [hended, hheld, hcalls]; exact hi.atEnd
  · rw [grantedStreams_append, hi.granted, hstream, List.range_succ]
    rfl
  · rw [handedTo_append, grantedStreams_append, List.map_append, hi.owned]
    rfl
  · exact fun st hst ↦ hi.notDiscarded st (by simpa [hes] using hst)

/-- **The step lemma.** Every step keeps the accounts. -/
theorem step {a : Act} {es : List Event} (hi : Accounts h d) (hstep : d.step a = some (d', es)) :
    Accounts (h ++ es) d' := by
  cases step_transition hstep with
  | @call c s hc hs =>
    rw [List.append_nil]
    rw [hs]
    by_cases hopen : d.isClosed = true
    · rw [if_pos hopen]
      exact hi.caller (by simp) (by simp) (by simp) (.inl hc)
    · rw [if_neg hopen]
      exact hi.caller (by simp)
        (fun _ ↦ isClosed_eq_false.mp (Bool.eq_false_iff.mpr hopen)) (by simp) (.inl hc)
  | send hc hrun => exact hi.send hc hrun
  | dropCall =>
    rw [List.append_nil]
    exact hi.caller (by simp) (by simp) (by simp) (.inr rfl)
  | probeDone | abort | tick =>
    rw [List.append_nil]
    exact hi.congr rfl rfl rfl rfl rfl
  | inboundStream => rwa [List.append_nil]
  | stop => exact hi.finish _
  | grantCall hrun hp =>
    exact hi.answer [.granted d.nextStream] hrun hp (.inr ⟨rfl, rfl, rfl⟩) rfl rfl rfl rfl
  | grantProbe => exact hi.probe rfl rfl rfl rfl rfl
  | refuseCall hrun hp =>
    exact hi.answer [] hrun hp (.inl ⟨rfl, rfl, _, rfl⟩) rfl rfl rfl rfl
  | @refuseBoth e c d₀ hrun hp _ hd₀ =>
    have hi₀ : Accounts (h ++ ([] ++ [.answered c (.error (.yamuxOpen e))])) d₀ := by
      rw [hd₀]
      exact hi.answer [] hrun hp (.inl ⟨rfl, rfl, _, rfl⟩) rfl rfl rfl rfl
    have := hi₀.miss
    rwa [List.nil_append, List.append_assoc] at this
  | @refuseProbe e d₀ _ _ _ hd₀ =>
    have hi₀ : Accounts h d₀ := by
      rw [hd₀]
      exact hi.congr rfl rfl rfl rfl rfl
    exact hi₀.miss
  | recvCmd hrun hp hq => exact hi.take hrun hp hq
  | elapse => exact (hi.quiet (.inr (.inl rfl))).congr rfl rfl rfl rfl rfl
  | success => exact (hi.quiet (.inl ⟨_, rfl⟩)).congr rfl rfl rfl rfl rfl
  | @failure now e rs d₀ _ _ hd₀ =>
    have hi₀ : Accounts h d₀ := by
      rw [hd₀]
      exact hi.congr rfl rfl rfl rfl rfl
    exact hi₀.miss

/-- **The run lemma.** The accounts hold in every reachable state. -/
theorem of_reach {supportsHeartbeat : Bool} {now : ℕ}
    (hr : (machine supportsHeartbeat now).Reach h d) : Accounts h d :=
  hr.invariant (spawn supportsHeartbeat now) fun _ _ _ _ _ _ hi hstep ↦ hi.step hstep

theorem answered_prefix (hi : Accounts h d) : answeredCalls h <+: sentCalls h :=
  ⟨d.heldCommands, hi.order.symm⟩

theorem answered_nodup (hi : Accounts h d) : (answeredCalls h).Nodup :=
  hi.nodup.sublist hi.answered_prefix.sublist

theorem granted_nodup (hi : Accounts h d) : (grantedStreams h).Nodup := by
  rw [hi.granted]
  exact List.nodup_range

/-- **Nobody is left waiting** once the task is over. -/
theorem nobody_waits (hi : Accounts h d) (hover : d.ended ≠ none) (c : CallId) :
    d.calls c ≠ some .sending ∧ d.calls c ≠ some .waiting := by
  obtain ⟨hheld, hsending⟩ := hi.atEnd hover
  refine ⟨hsending c, fun hw ↦ ?_⟩
  have hc := hi.waiting c hw
  rw [hheld] at hc
  cases hc

end Accounts

/-! ## What one step does to the slot, to a stream and to the callers -/

variable {h : List Event} {d d' : Driver} {a : Act} {es : List Event}

private theorem mem_finish {reason : EndReason} {c : CallId} (hc : c ∈ d.heldCommands) :
    c ∈ answeredCalls (d.finish reason).2 :=
  mem_answeredCalls.mpr ⟨_, List.mem_append_left _ (List.mem_map.mpr ⟨c, hc, rfl⟩)⟩

private theorem miss_pendingOpen {c : CallId} (hp : d.pendingOpen = some c) :
    d.miss.1.pendingOpen = some c ∨
      d.miss.1.pendingOpen = none ∧ c ∈ answeredCalls d.miss.2 := by
  rcases d.miss_cases with ⟨-, hm⟩ | ⟨-, hm⟩
  · exact .inl (by rw [hm]; exact hp)
  · have hc : c ∈ d.heldCommands := by rw [heldCommands, hp]; exact List.mem_cons_self
    rw [hm]
    exact .inr ⟨rfl, mem_finish hc⟩

private theorem miss_pendingOpen_none (hp : d.pendingOpen = none) :
    d.miss.1.pendingOpen = none := by
  rcases d.miss_cases with ⟨-, hm⟩ | ⟨-, hm⟩ <;> rw [hm]
  · exact hp
  · rfl

/-- **The slot is never overwritten.** It keeps its command until that command is answered, and is
empty then. -/
theorem step_pendingOpen {c : CallId} (hstep : d.step a = some (d', es))
    (hp : d.pendingOpen = some c) :
    d'.pendingOpen = some c ∨ d'.pendingOpen = none ∧ c ∈ answeredCalls es := by
  have hheld : c ∈ d.heldCommands := by rw [heldCommands, hp]; exact List.mem_cons_self
  cases step_transition hstep with
  | call | send | dropCall | probeDone | abort | inboundStream | elapse | tick | success =>
    exact .inl hp
  | stop => exact .inr ⟨rfl, mem_finish hheld⟩
  | grantCall _ hp' | refuseCall _ hp' =>
    rw [hp, Option.some.injEq] at hp'
    exact .inr ⟨rfl, by simp [answeredCalls, hp']⟩
  | grantProbe _ hp' | recvCmd _ hp' | refuseProbe _ hp' => simp [hp] at hp'
  | @refuseBoth e c' d₀ _ hp' _ hd₀ =>
    rw [hp, Option.some.injEq] at hp'
    exact .inr ⟨miss_pendingOpen_none (by rw [hd₀]), by simp [answeredCalls, hp']⟩
  | failure _ _ hd₀ => exact miss_pendingOpen (by rw [hd₀]; exact hp)

private theorem granted_not_mem_finish {reason : EndReason} {st : StreamId} :
    Event.granted st ∉ (d.finish reason).2 := by
  simp [finish]

private theorem granted_not_mem_miss {st : StreamId} : Event.granted st ∉ d.miss.2 := by
  rcases d.miss_cases with ⟨-, hm⟩ | ⟨-, hm⟩ <;> rw [hm]
  · simp
  · simpa using granted_not_mem_finish

/-- **The owner of a stream.** It is the pending command, which is the oldest one unanswered; or,
with no command taken and unanswered, the heartbeat probe that wants one. -/
theorem step_granted {st : StreamId} (hi : Accounts h d) (hstep : d.step a = some (d', es))
    (hst : .granted st ∈ es) :
    (∃ c rest, d.pendingOpen = some c ∧ sentCalls h = answeredCalls h ++ c :: rest ∧
      es = [.granted st, .answered c (.ok st)]) ∨
    (takenCalls h = answeredCalls h ∧ d.wantHbStream = true ∧
      es = [.granted st, .probeStarted st]) := by
  cases step_transition hstep with
  | @grantCall c hrun hp =>
    obtain rfl : st = d.nextStream := by simpa using hst
    refine .inl ⟨c, d.queue, hp, ?_, rfl⟩
    rw [hi.order, heldCommands, hp]
    rfl
  | grantProbe hrun hp hw =>
    obtain rfl : st = d.nextStream := by simpa using hst
    refine .inr ⟨?_, hw, rfl⟩
    rw [hi.taken hrun, hp]
    exact List.append_nil _
  | stop => exact absurd hst granted_not_mem_finish
  | refuseBoth | refuseProbe | failure => simp [granted_not_mem_miss] at hst
  | call | send | dropCall | probeDone | abort | inboundStream | elapse | tick | success
  | refuseCall | recvCmd => simp at hst

private theorem finish_calls (hi : Accounts h d) (reason : EndReason) {c : CallId}
    (hc : d.calls c = some .sending ∨ d.calls c = some .waiting) :
    ∃ e, (d.finish reason).1.calls c = some (.returned (.error e)) := by
  rcases hc with hc | hc
  · exact ⟨.driverGone, by simp [finish, hc]⟩
  · exact ⟨.driverDropped, by simp [finish, hc, hi.waiting c hc]⟩

private theorem miss_calls (hi : Accounts h d) (hrun : d.ended = none)
    (hover : d.miss.1.ended ≠ none) {c : CallId}
    (hc : d.calls c = some .sending ∨ d.calls c = some .waiting) :
    ∃ e, d.miss.1.calls c = some (.returned (.error e)) := by
  rcases d.miss_cases with ⟨-, hm⟩ | ⟨-, hm⟩
  · rw [hm] at hover
    exact absurd hrun hover
  · rw [hm]
    have hi' : Accounts h { d with missedHeartbeats := d.missedHeartbeats + 1 } :=
      hi.congr rfl rfl rfl rfl rfl
    exact finish_calls hi' .missedHeartbeats hc

/-- The step that ends the task gives an error to every caller that had no answer. -/
theorem step_ended (hi : Accounts h d) (hstep : d.step a = some (d', es)) (hrun : d.ended = none)
    (hover : d'.ended ≠ none) {c : CallId}
    (hc : d.calls c = some .sending ∨ d.calls c = some .waiting) :
    ∃ e, d'.calls c = some (.returned (.error e)) := by
  cases step_transition hstep with
  | call | send | dropCall | probeDone | abort | inboundStream | grantCall | grantProbe
  | refuseCall | recvCmd | elapse | tick | success => exact absurd hrun hover
  | stop => exact finish_calls hi _ hc
  | @refuseBoth e c' d₀ _ hp _ hd₀ =>
    have hi₀ : Accounts (h ++ ([] ++ [.answered c' (.error (.yamuxOpen e))])) d₀ := by
      rw [hd₀]
      exact hi.answer [] hrun hp (.inl ⟨rfl, rfl, _, rfl⟩) rfl rfl rfl rfl
    have hrun₀ : d₀.ended = none := by rw [hd₀]; exact hrun
    by_cases hw : d₀.calls c = some .sending ∨ d₀.calls c = some .waiting
    · exact miss_calls hi₀ hrun₀ hover hw
    · -- The caller whose command was pending has its error already.
      have hc₀ : d₀.calls c = some (.returned (.error (.yamuxOpen e))) := by
        have hreply : d₀.calls = reply d.calls c' (.error (.yamuxOpen e)) := by rw [hd₀]
        rw [hreply, reply] at hw ⊢
        split at hw
        · rename_i hw'
          rw [if_pos hw']
          by_cases hcc : c = c'
          · rw [hcc, Function.update_self]
          · rw [Function.update_of_ne hcc] at hw
            exact absurd hc hw
        · exact absurd hc hw
      refine ⟨.yamuxOpen e, ?_⟩
      rcases d₀.miss_cases with ⟨-, hm⟩ | ⟨-, hm⟩ <;> rw [hm]
      · exact hc₀
      · simp [finish, hc₀]
  | @refuseProbe e d₀ _ _ _ hd₀ | @failure _ _ _ d₀ _ _ hd₀ =>
    have hi₀ : Accounts h d₀ := by
      rw [hd₀]
      exact hi.congr rfl rfl rfl rfl rfl
    have hrun₀ : d₀.ended = none := by rw [hd₀]; exact hrun
    exact miss_calls hi₀ hrun₀ hover (by rw [hd₀]; exact hc)

/-- What the loop owes to its callers and to the streams of yamux: in the history so far, and in
every step that may come next. -/
structure Served (h : List Event) (d : Driver) : Prop where
  answered_once : (answeredCalls h).Nodup
  answered_in_order : answeredCalls h <+: sentCalls h
  taken_in_order : takenCalls h <+: sentCalls h
  /-- An answer reaches its caller, unless the caller has dropped the call. -/
  answer_arrives : ∀ c r, .answered c r ∈ h →
    d.calls c = some (.returned r) ∨ d.calls c = some .dropped
  /-- Every stream has exactly one owner. -/
  one_owner : (handedTo h).map Prod.fst = grantedStreams h ∧ (grantedStreams h).Nodup
  never_discarded : ∀ st, .discarded st ∉ h
  /-- A caller that holds a stream is that stream's owner. -/
  owner : ∀ c st, d.calls c = some (.returned (.ok st)) → (st, .call c) ∈ handedTo h
  nobody_waits : d.ended ≠ none → ∀ c, d.calls c ≠ some .sending ∧ d.calls c ≠ some .waiting
  /-- The slot keeps its command until the command is answered. -/
  slot_kept : ∀ a d' es c, d.step a = some (d', es) → d.pendingOpen = some c →
    d'.pendingOpen = some c ∨ d'.pendingOpen = none ∧ c ∈ answeredCalls es
  /-- A stream goes to the oldest command that waits for one; if the loop has none, to the probe
  that is wanted. -/
  stream_goes_to : ∀ a d' es st, d.step a = some (d', es) → .granted st ∈ es →
    (∃ c rest, d.pendingOpen = some c ∧ sentCalls h = answeredCalls h ++ c :: rest ∧
      es = [.granted st, .answered c (.ok st)]) ∨
    (takenCalls h = answeredCalls h ∧ d.wantHbStream = true ∧
      es = [.granted st, .probeStarted st])
  /-- The end of the task gives an error to every caller without an answer. -/
  error_at_end : ∀ a d' es c, d.step a = some (d', es) → d.ended = none → d'.ended ≠ none →
    d.calls c = some .sending ∨ d.calls c = some .waiting →
    ∃ e, d'.calls c = some (.returned (.error e))

/-- **Commands, replies and streams**, in every reachable state of the driver of any session. -/
theorem open_stream_served (supportsHeartbeat : Bool) (now : ℕ) (h : List Event) (d : Driver)
    (hr : (machine supportsHeartbeat now).Reach h d) : Served h d := by
  have hi : Accounts h d := .of_reach hr
  exact {
    answered_once := hi.answered_nodup
    answered_in_order := hi.answered_prefix
    taken_in_order := hi.taken_sent
    answer_arrives := hi.answered
    one_owner := ⟨hi.owned, hi.granted_nodup⟩
    never_discarded := hi.notDiscarded
    owner := fun c st hc ↦ List.mem_filterMap.mpr ⟨_, hi.got c st hc, rfl⟩
    nobody_waits := hi.nobody_waits
    slot_kept := fun _ _ _ _ ↦ step_pendingOpen
    stream_goes_to := fun _ _ _ _ ↦ step_granted hi
    error_at_end := fun _ _ _ _ hstep hrun hover ↦ step_ended hi hstep hrun hover }

/-- A caller races a probe for two streams; the task is then aborted with a command still held. -/
theorem open_stream_served_race : ∃ h d,
    (machine true 0).run (spawn true 0) [.elapse, .tick, .call 0, .send 0, .call 1, .recvCmd,
      .outboundOk, .outboundOk, .send 1, .recvCmd, .abort, .cancelled] = some (d, h) ∧
    handedTo h = [(0, .call 0), (1, .probe)] ∧
    d.calls 1 = some (.returned (.error .driverDropped)) ∧ Served h d := by
  have hrun : ((machine true 0).run (spawn true 0) [.elapse, .tick, .call 0, .send 0, .call 1,
      .recvCmd, .outboundOk, .outboundOk, .send 1, .recvCmd, .abort, .cancelled]).map
      (fun p ↦ (handedTo p.2, p.1.calls 1)) =
      some ([(0, .call 0), (1, .probe)], some (.returned (.error .driverDropped))) := by decide
  obtain ⟨⟨d, h⟩, hdh, heq⟩ := Option.map_eq_some_iff.mp hrun
  rw [Prod.mk.injEq] at heq
  exact ⟨h, d, hdh, heq.1, heq.2, open_stream_served true 0 h d (.of_run hdh)⟩

end Driver

end ZoTunnel
