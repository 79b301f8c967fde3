import ZoTunnel.Server.Takeover

/-!
# One live session for an id

Abort is asked for in two places: a takeover aborts the session that it replaces, and a refused
registration aborts its own driver. The invariant keeps apart who was asked to abort and who has a
slot. A session that was swapped in still has its slot, or was asked to abort, or has unregistered
after the end of its driver; so of the sessions of one id at most one is live.
-/

namespace ZoTunnel

namespace Control

open LastWriter

variable {serde : SerdeJson} {config : ServerConfig} {routes : RouteFiles} {h h' : List Event}
  {s t : State} {a : Act} {es : List Event} {c : ConnId} {k : String} {conn conn' : Conn}
  {auth : AuthReq} {sessionId : UInt64}

/-- The driver of a connection has been asked to abort. -/
def AbortRequested (s : State) (c : ConnId) : Prop :=
  ∃ conn d, s.conns c = some conn ∧ conn.driver = some d ∧ d.abortRequested = true

/-- The driver of a connection has neither ended nor been asked to abort. -/
def Live (s : State) (c : ConnId) : Prop :=
  ∃ conn d, s.conns c = some conn ∧ conn.driver = some d ∧ d.ended = none ∧
    d.abortRequested = false

/-- A session had the slot, and another one was swapped in. -/
def Superseded (h : List Event) (c : ConnId) (k : String) : Prop :=
  ∃ h₁ c' sessionId h₂, h = h₁ ++ .swapped c' k sessionId :: h₂ ∧ lastSwap h₁ k = some c ∧
    ¬Unregistered h₁ c k

/-! ## Tasks and their drivers -/

namespace Task

/-- A task that has spawned its driver. -/
def spawned : Task → Bool
  | registering _ | checked _ | numbered .. | refused _ | registered .. | routing .. | serving ..
  | leaving .. | done .registrationFailed | done .disconnected => true
  | reading | rejecting _ | rejected _ | accepting _ | accepted _ | done _ => false

/-- A task whose registration has been decided. -/
def settled : Task → Bool
  | registered .. | routing .. | serving .. | leaving .. | done .registrationFailed
  | done .disconnected => true
  | _ => false

/-- A task that has seen the end of its driver. -/
def joined : Task → Bool
  | leaving .. | done .disconnected => true
  | _ => false

variable {task task' : Task}

theorem settled_of_held {x : AuthReq × UInt64} (ht : task.held = some x) : task.settled = true := by
  cases task <;> simp_all [held, settled]

theorem spawned_of_settled (ht : task.settled = true) : task.spawned = true := by
  rcases task with _ | _ | _ | _ | _ | _ | _ | _ | _ | _ | _ | _ | _ | o
  case done => cases o <;> simp_all [settled, spawned]
  all_goals simp_all [settled, spawned]

theorem settled_of_joined (ht : task.joined = true) : task.settled = true := by
  rcases task with _ | _ | _ | _ | _ | _ | _ | _ | _ | _ | _ | _ | _ | o
  case done => cases o <;> simp_all [joined, settled]
  all_goals simp_all [joined, settled]

theorem spawned_onFirstFrame {r : Except ProtocolError Message} :
    (onFirstFrame config r).spawned = false := by
  rcases r with e | m
  · rfl
  · cases m with
    | authReq auth =>
      rw [onFirstFrame]
      split <;> rfl
    | _ => rfl

theorem spawned_of_answer {res : AuthRes} (hans : answer config task = some (res, task')) :
    task.spawned = false ∧ task'.spawned = false := by
  rcases answer_eq_some hans with ⟨_, rfl, -, rfl⟩ | ⟨_, rfl, -, rfl⟩ <;> exact ⟨rfl, rfl⟩

theorem settled_of_move (ht : task.settled = true) (hm : TaskMove config s c task task' es) :
    task'.settled = true := by
  cases hm with
  | answered hans | writeEnds hans =>
    have := spawned_of_settled ht
    rw [(spawned_of_answer hans).1] at this
    cases this
  | readRoute ht' => rcases ht' with rfl | rfl <;> rfl
  | writeRoute | join | unregister => rfl
  | _ => cases ht

end Task

/-! ## The invariant of a driver -/

/-- The driver of a connection, by how far its task has come and by who was asked to abort. -/
structure DriverInv (h : List Event) (c : ConnId) (conn : Conn) : Prop where
  spawned : conn.driver.isSome = conn.task.spawned
  joined : ∀ d, conn.driver = some d → conn.task.joined = true → d.ended ≠ none
  flag : ∀ d, conn.driver = some d → (d.abortRequested = true ↔ .aborted c ∈ h)

namespace DriverInv

theorem fresh : DriverInv h c {} where
  spawned := rfl
  joined _ hd := by cases hd
  flag _ hd := by cases hd

/-- Nothing has changed but how far the task has come. -/
theorem move (hi : DriverInv h c conn) (hd : conn'.driver = conn.driver)
    (hs : conn'.task.spawned = conn.task.spawned)
    (hj : conn'.task.joined = true → conn.task.joined = true) : DriverInv h c conn' where
  spawned := by rw [hd, hs, hi.spawned]
  joined d hd' hj' := hi.joined d (hd ▸ hd') (hj hj')
  flag d hd' := hi.flag d (hd ▸ hd')

theorem unspawned (hi : DriverInv h c conn) (hd : conn'.driver = conn.driver)
    (hs : conn.task.spawned = false) (hs' : conn'.task.spawned = false) : DriverInv h c conn' :=
  hi.move hd (hs'.trans hs.symm) fun hj ↦ by
    rw [Task.spawned_of_settled (Task.settled_of_joined hj)] at hs'
    cases hs'

theorem append (hi : DriverInv h c conn) (hc : .aborted c ∉ h') : DriverInv (h ++ h') c conn where
  spawned := hi.spawned
  joined := hi.joined
  flag d hd := by
    rw [hi.flag d hd, List.mem_append]
    exact ⟨.inl, fun hmem ↦ hmem.resolve_right hc⟩

theorem abort (hi : DriverInv h c conn) (hc : .aborted c ∈ h') :
    DriverInv (h ++ h') c conn.abortDriver where
  spawned := by rw [Conn.abortDriver, Option.isSome_map, hi.spawned]
  joined d hd hj := by
    obtain ⟨d₀, hd₀, rfl⟩ := Option.map_eq_some_iff.mp hd
    exact hi.joined d₀ hd₀ hj
  flag d hd := by
    obtain ⟨d₀, -, rfl⟩ := Option.map_eq_some_iff.mp hd
    exact ⟨fun _ ↦ List.mem_append_right _ hc, fun _ ↦ rfl⟩

theorem drive (hi : DriverInv h c conn) {d d' : Driver} {b : Driver.Act} {es : List Driver.Event}
    (hd : conn.driver = some d) (hb : b ≠ .abort) (hstep : d.step b = some (d', es)) :
    DriverInv h c { conn with driver := some d' } where
  spawned := by rw [← hi.spawned, hd]; rfl
  joined d₁ hd₁ hj hrun := by
    rw [Option.some.injEq] at hd₁
    exact hi.joined d hd hj (Driver.running_of_step hstep (hd₁ ▸ hrun))
  flag d₁ hd₁ := by
    rw [Option.some.injEq] at hd₁
    rw [← hd₁, Driver.abortRequested_of_step hstep hb]
    exact hi.flag d hd

end DriverInv

/-! ## The invariant of all drivers -/

/-- The drivers of the connections. -/
structure Drivers (h : List Event) (s : State) : Prop where
  conn : ∀ c conn, s.conns c = some conn → DriverInv h c conn
  /-- Nobody is asked to abort before the registration is decided. -/
  target : ∀ c, .aborted c ∈ h → ∃ conn, s.conns c = some conn ∧ conn.task.settled = true

namespace Drivers

theorem start : Drivers [] (start routes) where
  conn c conn hc := by cases hc
  target c hc := by cases hc

private theorem set (hi : Drivers h s) (s₀ : State) (hconns : s₀.conns = s.conns)
    (hconn : DriverInv h c conn') :
    ∀ c' conn, (s₀.setConn c conn').conns c' = some conn → DriverInv h c' conn := by
  intro c' conn hc'
  rw [setConn_conns, hconns] at hc'
  split at hc'
  · rename_i hcc
    rw [Option.some.injEq] at hc'
    exact hcc ▸ hc' ▸ hconn
  · exact hi.conn c' conn hc'

private theorem append {es : List Event} (hi : ∀ c conn, s.conns c = some conn → DriverInv h c conn)
    (hes : ∀ c, .aborted c ∉ es) : ∀ c conn, s.conns c = some conn → DriverInv (h ++ es) c conn :=
  fun c conn hc ↦ (hi c conn hc).append (hes c)

private theorem abort {es : List Event} {o : ConnId}
    (hi : ∀ c conn, s.conns c = some conn → DriverInv h c conn)
    (hes : ∀ c, .aborted c ∈ es ↔ c = o) :
    ∀ c conn, (s.abortDriver o).conns c = some conn → DriverInv (h ++ es) c conn := by
  intro c conn hc
  rw [abortDriver_conns] at hc
  split at hc
  · rename_i hco
    obtain ⟨conn₀, hc₀, rfl⟩ := Option.map_eq_some_iff.mp hc
    exact (hi c conn₀ hc₀).abort ((hes c).mpr hco)
  · rename_i hco
    exact (hi c conn hc).append fun hmem ↦ hco ((hes c).mp hmem)

private theorem step_conn (hi : Drivers h s) (hstep : step serde config s a = some (t, es)) :
    ∀ c conn, t.conns c = some conn → DriverInv (h ++ es) c conn := by
  cases step_transition hstep with
  | @accept c m hc => exact append (hi.set { s with metrics := m } rfl .fresh) (by simp)
  | recv hc | peerClose hc =>
    exact append (hi.set s rfl ((hi.conn _ _ hc).move rfl rfl id)) (by simp)
  | readFrame hc ht =>
    exact append (hi.set s rfl
      ((hi.conn _ _ hc).unspawned rfl (by rw [ht]; rfl) Task.spawned_onFirstFrame)) (by simp)
  | readEnds hc ht ha =>
    refine append (hi.set s rfl ((hi.conn _ _ hc).unspawned rfl (by rw [ht]; rfl) ?_)) (by simp)
    rcases ha with ⟨-, rfl⟩ | ⟨-, rfl⟩ <;> rfl
  | answered hc hans =>
    obtain ⟨hs, hs'⟩ := Task.spawned_of_answer hans
    exact append (hi.set s rfl ((hi.conn _ _ hc).unspawned rfl hs hs')) (by simp)
  | writeEnds hc hans =>
    exact append (hi.set s rfl
      ((hi.conn _ _ hc).unspawned rfl (Task.spawned_of_answer hans).1 rfl)) (by simp)
  | @countFailed c conn auth m hc ht =>
    exact append (hi.set { s with metrics := m } rfl
      ((hi.conn _ _ hc).unspawned rfl (by rw [ht]; rfl) rfl)) (by simp)
  | @spawnDriver c conn auth now hc ht =>
    refine append (hi.set s rfl ⟨rfl, fun _ _ hj ↦ (by cases hj), fun d hd ↦ ?_⟩) (by simp)
    -- A task that has no driver yet cannot have been asked to abort.
    rw [Option.some.injEq] at hd
    refine ⟨fun hflag ↦ ?_, fun hmem ↦ ?_⟩
    · rw [← hd] at hflag
      cases hflag
    · obtain ⟨conn₀, hc₀, hs⟩ := hi.target c hmem
      rw [hc, Option.some.injEq] at hc₀
      rw [← hc₀, ht] at hs
      cases hs
  | refuse hc ht | check hc ht | writeRoute hc ht =>
    exact append (hi.set _ rfl
      ((hi.conn _ _ hc).move rfl (by rw [ht]; rfl) nofun)) (by simp)
  | fetchSession hc ht | insertVacant hc ht =>
    exact append (hi.set _ (by rfl)
      ((hi.conn _ _ hc).move rfl (by rw [ht]; rfl) nofun)) (by simp)
  | insertOccupied hc ht =>
    exact abort (hi.set _ (by rfl) ((hi.conn _ _ hc).move rfl (by rw [ht]; rfl) nofun))
      (by simp)
  | abortOwn hc ht =>
    exact abort (hi.set s rfl ((hi.conn _ _ hc).move rfl (by rw [ht]; rfl) nofun)) (by simp)
  | readRoute hc ht htask hes =>
    refine append (hi.set s rfl ((hi.conn _ _ hc).move rfl ?_ ?_)) fun c ↦ ?_
    · rw [ht]
      rcases htask with rfl | rfl <;> rfl
    · rcases htask with rfl | rfl <;> exact nofun
    · rcases hes with rfl | rfl <;> simp
  | driver hc hd hb hs =>
    exact append (hi.set s rfl ((hi.conn _ _ hc).drive hd hb hs)) (by simp)
  | @join c conn auth sessionId d hc ht hd hended =>
    have hinv := hi.conn _ _ hc
    refine append (hi.set s rfl ⟨?_, fun d' hd' _ ↦ ?_, hinv.flag⟩) (by simp)
    · rw [hd]
      rfl
    · rw [hd, Option.some.injEq] at hd'
      exact hd' ▸ hended
  | unregister hc ht =>
    exact append (hi.set _ (by rfl)
      ((hi.conn _ _ hc).move rfl (by rw [ht]; rfl) fun _ ↦ by rw [ht]; rfl)) (by simp)

/-- **The step lemma.** -/
theorem step (hi : Drivers h s) (hg : Gate serde config h s)
    (hstep : step serde config s a = some (t, es)) : Drivers (h ++ es) t where
  conn := hi.step_conn hstep
  target c hmem := by
    have hstays : ∀ conn, s.conns c = some conn → conn.task.settled = true →
        ∃ conn', t.conns c = some conn' ∧ conn'.task.settled = true := by
      intro conn hc hs
      obtain ⟨conn', hc', ht | ⟨-, hm⟩⟩ := task_of_step hstep hc
      · exact ⟨conn', hc', ht ▸ hs⟩
      · exact ⟨conn', hc', Task.settled_of_move hs hm⟩
    rcases List.mem_append.mp hmem with hmem | hmem
    · obtain ⟨conn, hc, hs⟩ := hi.target c hmem
      exact hstays conn hc hs
    · rcases aborted_of_step hstep hmem with
        ⟨_, _, auth, _, old, -, -, hold, rfl, -⟩ | ⟨_, conn', _, -, hc', -, ht', -⟩
      · obtain ⟨-, conn, auth', hc, hheld, -⟩ := hg.entry _ old hold
        exact hstays conn hc (Task.settled_of_held hheld)
      · exact ⟨conn', hc', by rw [ht']; rfl⟩

/-- **The run lemma.** -/
theorem of_reach (hr : (machine serde config routes).Reach h s) : Drivers h s :=
  hr.invariant start fun _ _ _ _ _ hr hi hstep ↦ hi.step (.of_reach hr) hstep

theorem abortRequested_iff (hi : Drivers h s) : AbortRequested s c ↔ .aborted c ∈ h := by
  constructor
  · rintro ⟨conn, d, hc, hd, hflag⟩
    exact ((hi.conn c conn hc).flag d hd).mp hflag
  · intro hmem
    obtain ⟨conn, hc, hs⟩ := hi.target c hmem
    have hsome := (hi.conn c conn hc).spawned
    rw [Task.spawned_of_settled hs, Option.isSome_iff_exists] at hsome
    obtain ⟨d, hd⟩ := hsome
    exact ⟨conn, d, hc, hd, ((hi.conn c conn hc).flag d hd).mpr hmem⟩

end Drivers

/-! ## Who is asked to abort -/

/-- An entry after a step was there before, or its own task has just swapped it in. -/
theorem entry_of_step {e : ClientEntry} (hstep : step serde config s a = some (t, es))
    (he : t.registry.get k = some e) :
    (s.registry.get k = some e ∧ ∀ c sessionId, .swapped c k sessionId ∉ es) ∨
    ∃ conn auth, s.conns e.handle = some conn ∧ conn.task = .numbered auth e.sessionId := by
  have hnot : (∀ c, .claim k c ∉ sessionOps es) → ∀ c sessionId, .swapped c k sessionId ∉ es :=
    fun hall c sessionId hmem ↦ hall c (claim_mem_sessionOps.mpr ⟨sessionId, hmem⟩)
  rcases registry_of_step hstep with ⟨hes, hreg⟩ |
    ⟨c, conn, auth, sessionId, hc, ht, hes, hreg⟩ | ⟨c, conn, auth, sessionId, hc, ht, hes, hreg⟩
  · exact .inl ⟨by rw [← hreg, he], hnot (by simp [hes])⟩
  · rw [hreg] at he
    split at he
    · rw [Option.some.injEq] at he
      exact .inr ⟨conn, auth, he ▸ hc, he ▸ ht⟩
    · rename_i hk
      exact .inl ⟨he, hnot (by simp [hes, hk])⟩
  · rw [hreg] at he
    split at he
    · cases he
    · exact .inl ⟨he, hnot (by simp [hes])⟩

/-- A step that aborts the session in a slot takes the slot over. -/
theorem swapped_of_aborted {e : ClientEntry} (hg : Gate serde config h s)
    (hstep : step serde config s a = some (t, es)) (he : s.registry.get k = some e)
    (hab : .aborted e.handle ∈ es) : ∃ c sessionId, .swapped c k sessionId ∈ es := by
  obtain ⟨-, conn, auth, hc, hheld, hauth, -⟩ := hg.entry k e he
  rcases aborted_of_step hstep hab with
    ⟨c', _, auth', sessionId, old, -, -, hold, hhandle, hes⟩ | ⟨conn', _, _, hc', -, ht', -⟩
  · -- The task of the aborted connection holds one slot only.
    obtain ⟨-, conn', auth'', hc', hheld', hauth', -⟩ := hg.entry _ old hold
    rw [hhandle, hc, Option.some.injEq] at hc'
    rw [← hc', hheld, Option.some.injEq, Prod.mk.injEq] at hheld'
    rw [← hheld'.1, hauth] at hauth'
    exact ⟨c', sessionId, by rw [hes, hauth']; exact List.mem_cons_self⟩
  · rw [hc, Option.some.injEq] at hc'
    rw [hc', ht'] at hheld
    cases hheld

theorem not_aborted_of_entry (hr : (machine serde config routes).Reach h s) {e : ClientEntry}
    (he : s.registry.get k = some e) : .aborted e.handle ∉ h := by
  refine hr.invariant
    (P := fun h s ↦ ∀ k e, s.registry.get k = some e → .aborted e.handle ∉ h)
    (fun _ _ _ hmem ↦ (List.not_mem_nil hmem).elim) ?_ k e he
  intro h s a t es hr hi hstep k e he hmem
  have hg : Gate serde config h s := .of_reach hr
  rcases entry_of_step hstep he with ⟨he, hnot⟩ | ⟨conn, auth, hc, ht⟩
  · rcases List.mem_append.mp hmem with hmem | hmem
    · exact hi k e he hmem
    · obtain ⟨c, sessionId, hsw⟩ := swapped_of_aborted hg hstep he hmem
      exact hnot c sessionId hsw
  · -- A task that is about to swap its entry in has no decision behind it.
    rcases List.mem_append.mp hmem with hmem | hmem
    · obtain ⟨conn', hc', hs⟩ := (Drivers.of_reach hr).target _ hmem
      rw [hc, Option.some.injEq] at hc'
      rw [← hc', ht] at hs
      cases hs
    · rcases aborted_of_step hstep hmem with
        ⟨_, _, _, _, old, -, -, hold, hhandle, -⟩ | ⟨conn', _, _, hc', -, ht', -⟩
      · obtain ⟨-, conn', _, hc', hheld, -⟩ := hg.entry _ old hold
        rw [hhandle, hc, Option.some.injEq] at hc'
        rw [← hc', ht] at hheld
        cases hheld
      · rw [hc, Option.some.injEq] at hc'
        rw [hc', ht'] at ht
        cases ht

/-- The step that swaps a session in reports nothing before that, and aborts the session that it
finds in the slot. -/
theorem takeover_of_step {es₁ es₂ : List Event}
    (hstep : step serde config s a = some (t, es₁ ++ .swapped c k sessionId :: es₂)) :
    es₁ = [] ∧ ∀ old, s.registry.get k = some old → .aborted old.handle ∈ es₂ := by
  generalize hes : es₁ ++ .swapped c k sessionId :: es₂ = es at hstep
  have hmem : .swapped c k sessionId ∈ es := hes ▸ List.mem_append_right _ List.mem_cons_self
  cases step_transition hstep with
  | insertVacant hc ht he hslot =>
    obtain ⟨rfl, heq⟩ := List.append_eq_singleton_iff.mp hes |>.resolve_right (by simp)
    rw [List.cons.injEq, Event.swapped.injEq] at heq
    obtain ⟨⟨-, rfl, -⟩, -⟩ := heq
    exact ⟨rfl, fun old hold ↦ by rw [hslot] at hold; cases hold⟩
  | @insertOccupied c₀ conn auth sessionId₀ e old₀ hc ht he hslot =>
    cases es₁ with
    | nil =>
      rw [List.nil_append, List.cons.injEq, Event.swapped.injEq] at hes
      obtain ⟨⟨-, rfl, -⟩, rfl⟩ := hes
      refine ⟨rfl, fun old hold ↦ ?_⟩
      rw [hslot, Option.some.injEq] at hold
      exact hold ▸ List.mem_cons_self
    | cons e' es₁ =>
      rw [List.cons_append, List.cons.injEq] at hes
      have : Event.swapped c k sessionId ∈ [Event.aborted old₀.handle] :=
        hes.2 ▸ List.mem_append_right _ List.mem_cons_self
      simp at this
  | readRoute _ _ _ hes' => rcases hes' with rfl | rfl <;> simp at hmem
  | _ => simp at hmem

/-- The session in a slot was swapped in last, and has not unregistered. -/
theorem Slots.last_of_entry (hi : Slots h s) (hg : Gate serde config h s) {e : ClientEntry}
    (he : s.registry.get k = some e) :
    lastSwap h k = some e.handle ∧ ¬Unregistered h e.handle k := by
  have hslot : slots (sessionOps h) k = some e.handle := by rw [← hi.slot, he, Option.map_some]
  obtain ⟨-, conn, auth, hc, hheld, hauth, -⟩ := hg.entry k e he
  have hrel : .release k e.handle ∉ sessionOps h := by
    intro hrel
    obtain ⟨conn', hc', ⟨_, _, -, -, hnot⟩ | ⟨hd, -⟩⟩ :=
      hi.status _ k (hi.disciplined.claimed hrel)
    · exact hnot hrel
    · rw [hc, Option.some.injEq] at hc'
      rw [hc', hd] at hheld
      cases hheld
  exact ⟨(slots_eq_some_iff hi.disciplined hrel).mp hslot,
    fun hu ↦ hrel (release_mem_sessionOps.mpr hu)⟩

/-- A superseded session was asked to abort, by the takeover itself. -/
theorem aborted_of_superseded (hr : (machine serde config routes).Reach h s) (hn : NumbersFit h)
    (hsup : Superseded h c k) : .aborted c ∈ h := by
  obtain ⟨h₁, c', sessionId, h₂, rfl, hlast, hnot⟩ := hsup
  obtain ⟨h₀, v, a, w, es₁, es₂, h₃, hv, hstep, -, rfl, rfl⟩ := Machine.Steps.split hr
  obtain ⟨rfl, hab⟩ := takeover_of_step hstep
  rw [List.append_nil] at hlast hnot hn ⊢
  obtain ⟨e, he, rfl, -⟩ := (Slots.of_reach hv hn.of_append).holds (.of_reach hv) hlast hnot
  exact List.mem_append_right _ (List.mem_cons_of_mem _ (List.mem_append_left _ (hab e he)))

/-! ## Refused registrations -/

/-- The connections whose registration was refused. -/
structure Refusals (h : List Event) (s : State) : Prop where
  failed : ∀ c k, .refused c k ∈ h → ∃ conn, s.conns c = some conn ∧
    ((∃ auth, conn.task = .refused auth) ∨ conn.task = .done .registrationFailed)
  reported : ∀ c conn auth, s.conns c = some conn → conn.task = .refused auth →
    .refused c auth.clientId ∈ h

namespace Refusals

theorem step (hi : Refusals h s) (hstep : step serde config s a = some (t, es)) :
    Refusals (h ++ es) t where
  failed c k hmem := by
    rcases List.mem_append.mp hmem with hmem | hmem
    · obtain ⟨conn, hc, hf⟩ := hi.failed c k hmem
      obtain ⟨conn', hc', ht | ⟨-, hm⟩⟩ := task_of_step hstep hc
      · exact ⟨conn', hc', ht ▸ hf⟩
      · refine ⟨conn', hc', .inr ?_⟩
        generalize conn.task = task at hm hf
        generalize conn'.task = task' at hm
        rcases hf with ⟨auth, rfl⟩ | rfl
        · cases hm with
          | abortOwn => rfl
          | answered hans | writeEnds hans => cases hans
        · cases hm with
          | answered hans | writeEnds hans => cases hans
    · obtain ⟨-, conn, conn', auth, hc, hc', -, ht'⟩ := refused_of_step hstep hmem
      exact ⟨conn', hc', .inl ⟨auth, ht'⟩⟩
  reported c conn' auth hc' ht' := by
    rw [List.mem_append]
    rcases conn_of_step hstep hc' with ⟨-, ht⟩ | ⟨conn, hc, ht | ⟨-, hm⟩⟩
    · rw [ht] at ht'
      cases ht'
    · exact .inl (hi.reported c conn auth hc (ht ▸ ht'))
    · generalize conn.task = task at hm
      generalize conn'.task = task' at hm ht'
      cases hm with
      | refuse =>
        cases ht'
        exact .inr List.mem_cons_self
      | @read r =>
        have : (onFirstFrame config r).spawned = false := Task.spawned_onFirstFrame
        rw [ht'] at this
        cases this
      | answered hans =>
        rcases answer_eq_some hans with ⟨_, -, -, rfl⟩ | ⟨_, -, -, rfl⟩ <;> cases ht'
      | readRoute ht => rcases ht with rfl | rfl <;> cases ht'
      | _ => cases ht'

theorem of_reach (hr : (machine serde config routes).Reach h s) : Refusals h s :=
  hr.invariant ⟨fun _ _ hmem ↦ (List.not_mem_nil hmem).elim, fun _ _ _ hc ↦ by cases hc⟩
    fun _ _ _ _ _ _ hi hstep ↦ hi.step hstep

end Refusals

/-- Only a superseded session and a refused connection are asked to abort. -/
theorem cause_of_aborted (hr : (machine serde config routes).Reach h s) (hn : NumbersFit h)
    (hab : .aborted c ∈ h) : (∃ k, Superseded h c k) ∨ ∃ k, .refused c k ∈ h := by
  obtain ⟨h₁, h₂, rfl⟩ := List.append_of_mem hab
  obtain ⟨h₀, v, a, w, es₁, es₂, h₃, hv, hstep, -, rfl, rfl⟩ := Machine.Steps.split hr
  rw [List.append_assoc] at hn ⊢
  rcases aborted_of_step hstep (List.mem_append_right _ List.mem_cons_self) with
    ⟨c', _, auth, sessionId, old, -, -, hold, rfl, hes⟩ | ⟨_, _, auth, hc, -, ht, -⟩
  · obtain ⟨hlast, hnot⟩ := (Slots.of_reach hv hn.of_append).last_of_entry (.of_reach hv) hold
    refine .inl ⟨auth.clientId, h₀, c', sessionId, .aborted old.handle :: h₃, ?_, hlast, hnot⟩
    rw [← List.cons_append, ← List.append_assoc es₁, hes]
    rfl
  · exact .inr ⟨_, List.mem_append_left _ ((Refusals.of_reach hv).reported c _ auth hc ht)⟩

/-! ## At most one live session -/

private theorem lastSwap_append_singleton (h : List Event) (e : Event) (k : String) :
    (∃ c sessionId, e = .swapped c k sessionId ∧ lastSwap (h ++ [e]) k = some c) ∨
    (∀ c sessionId, e ≠ .swapped c k sessionId) ∧ lastSwap (h ++ [e]) k = lastSwap h k := by
  rw [lastSwap, sessionOps_append]
  cases e with
  | swapped c k' sessionId =>
    have hlast : lastClaim (sessionOps h ++ sessionOps [.swapped c k' sessionId]) k =
        if k = k' then some c else lastClaim (sessionOps h) k := lastClaim_claim
    by_cases hk : k = k'
    · exact .inl ⟨c, sessionId, by rw [hk], by rw [hlast, if_pos hk]⟩
    · exact .inr ⟨fun _ _ heq ↦ hk (Event.swapped.inj heq).2.1.symm, by rw [hlast, if_neg hk]; rfl⟩
  | unregistered => exact .inr ⟨by simp, lastClaim_release⟩
  | _ => exact .inr ⟨by simp, by simp [sessionOps, lastSwap]⟩

/-- A session that was swapped in is the last one, or was superseded, or has unregistered. -/
theorem lastSwap_or_superseded (hmem : .swapped c k sessionId ∈ h) :
    lastSwap h k = some c ∨ Superseded h c k ∨ Unregistered h c k := by
  induction h using List.reverseRecOn with
  | nil => cases hmem
  | append_singleton h e ih =>
    rcases lastSwap_append_singleton h e k with ⟨c', sessionId', rfl, hlast⟩ | ⟨hne, hlast⟩
    · rw [hlast, Option.some.injEq]
      rcases List.mem_append.mp hmem with hmem | hmem
      · rcases ih hmem with hc | ⟨h₁, c₁, x, h₂, rfl, hlast₁, hnot⟩ | ⟨x, removed, hu⟩
        · -- The session was the last one, and this is its takeover, unless it has left before.
          by_cases hu : Unregistered h c k
          · obtain ⟨x, removed, hu⟩ := hu
            exact .inr (.inr ⟨x, removed, List.mem_append_left _ hu⟩)
          · exact .inr (.inl ⟨h, c', sessionId', [], rfl, hc, hu⟩)
        · exact .inr (.inl ⟨h₁, c₁, x, h₂ ++ [_], by rw [List.append_assoc, List.cons_append],
            hlast₁, hnot⟩)
        · exact .inr (.inr ⟨x, removed, List.mem_append_left _ hu⟩)
      · rw [List.mem_singleton, Event.swapped.injEq] at hmem
        exact .inl hmem.1.symm
    · have hmem : .swapped c k sessionId ∈ h := (List.mem_append.mp hmem).resolve_right fun hm ↦
        hne c sessionId (List.mem_singleton.mp hm).symm
      rw [hlast]
      rcases ih hmem with hc | ⟨h₁, c₁, x, h₂, rfl, hlast₁, hnot⟩ | ⟨x, removed, hu⟩
      · exact .inl hc
      · exact .inr (.inl ⟨h₁, c₁, x, h₂ ++ [e], by rw [List.append_assoc, List.cons_append],
          hlast₁, hnot⟩)
      · exact .inr (.inr ⟨x, removed, List.mem_append_left _ hu⟩)

/-- A session that has unregistered has seen the end of its driver. -/
theorem not_live_of_unregistered (hi : Slots h s) (hd : Drivers h s) (hu : Unregistered h c k) :
    ¬Live s c := by
  rintro ⟨conn, d, hc, hdr, hrun, -⟩
  have hrel : .release k c ∈ sessionOps h := release_mem_sessionOps.mpr hu
  obtain ⟨conn', hc', ⟨_, _, -, -, hnot⟩ | ⟨hdone, -⟩⟩ :=
    hi.status c k (hi.disciplined.claimed hrel)
  · exact hnot hrel
  · rw [hc, Option.some.injEq] at hc'
    subst hc'
    exact (hd.conn c conn hc).joined d hdr (by rw [hdone]; rfl) hrun

/-- The live session of an id is the one that was swapped in last. -/
theorem lastSwap_of_live (hr : (machine serde config routes).Reach h s) (hn : NumbersFit h)
    (hmem : .swapped c k sessionId ∈ h) (hlive : Live s c) : lastSwap h k = some c := by
  have hd : Drivers h s := .of_reach hr
  rcases lastSwap_or_superseded hmem with hc | hsup | hu
  · exact hc
  · obtain ⟨conn, d, hc, hdr, -, hflag⟩ := hlive
    have hab := ((hd.conn c conn hc).flag d hdr).mpr (aborted_of_superseded hr hn hsup)
    rw [hflag] at hab
    cases hab
  · exact absurd hlive (not_live_of_unregistered (.of_reach hr hn) hd hu)

theorem frame_of_refused (hstep : step serde config s a = some (t, es))
    (hmem : .refused c k ∈ es) :
    t.registry = s.registry ∧ (∀ c', c' ≠ c → t.conns c' = s.conns c') ∧
      ∀ c', .aborted c' ∉ es := by
  cases step_transition hstep with
  | refuse hc =>
    rw [List.mem_singleton, Event.refused.injEq] at hmem
    obtain ⟨rfl, -⟩ := hmem
    exact ⟨rfl, fun c' hne ↦ setConn_of_ne hne _ _, by simp⟩
  | readRoute _ _ _ hes => rcases hes with rfl | rfl <;> simp at hmem
  | _ => simp at hmem

theorem frame_of_abortOwn (hstep : step serde config s (.abortOwn c) = some (t, es)) :
    t.registry = s.registry ∧ (∀ c', c' ≠ c → t.conns c' = s.conns c') ∧ es = [.aborted c] ∧
      ∃ conn auth, s.conns c = some conn ∧ conn.task = .refused auth := by
  cases step_transition hstep with
  | abortOwn hc ht =>
    refine ⟨rfl, fun c' hne ↦ ?_, rfl, _, _, hc, ht⟩
    rw [abortDriver_conns, if_neg hne, setConn_of_ne hne]
  | readEnds _ _ ha => rcases ha with ⟨ha, -⟩ | ⟨ha, -⟩ <;> cases ha
  | writeEnds _ _ ha => rcases ha with ha | ⟨_, ha⟩ <;> cases ha

/-- Whose drivers are asked to abort, in the history so far and in every step that may come
next. -/
structure AbortSound (serde : SerdeJson) (config : ServerConfig) (h : List Event) (s : State) :
    Prop where
  superseded : ∀ c k, Superseded h c k → AbortRequested s c
  /-- The session in a slot has a driver, and nobody has asked it to abort. -/
  occupant : ∀ k e, s.registry.get k = some e → ∃ conn d, s.conns e.handle = some conn ∧
    conn.driver = some d ∧ d.abortRequested = false
  /-- At most one registered session of an id is live. -/
  live_unique : ∀ k c₁ c₂ sessionId₁ sessionId₂, .swapped c₁ k sessionId₁ ∈ h →
    .swapped c₂ k sessionId₂ ∈ h → Live s c₁ → Live s c₂ → c₁ = c₂
  /-- An abort has one of the two causes. -/
  cause : ∀ c, AbortRequested s c → (∃ k, Superseded h c k) ∨ ∃ k, .refused c k ∈ h
  /-- A refusal moves the refused connection alone, and aborts nobody. -/
  refusal : ∀ a t es c k, step serde config s a = some (t, es) → .refused c k ∈ es →
    t.registry = s.registry ∧ (∀ c', c' ≠ c → t.conns c' = s.conns c') ∧ ∀ c', .aborted c' ∉ es
  /-- The driver that is aborted after it is that of the refused connection, which has never had a
  slot. -/
  refusal_abort : ∀ c t es, step serde config s (.abortOwn c) = some (t, es) →
    t.registry = s.registry ∧ (∀ c', c' ≠ c → t.conns c' = s.conns c') ∧ es = [.aborted c] ∧
    ∃ k, .refused c k ∈ h
  refused_never : ∀ c k, .refused c k ∈ h → ∀ k' sessionId, .swapped c k' sessionId ∉ h

/-- **Aborts hit the right driver**, in every reachable state, as long as there are fewer than 2⁶⁴
session numbers. -/
theorem abort_sound (serde : SerdeJson) (config : ServerConfig) (routes : RouteFiles)
    (h : List Event) (s : State) (hr : (machine serde config routes).Reach h s)
    (hn : NumbersFit h) : AbortSound serde config h s := by
  have hd : Drivers h s := .of_reach hr
  refine ⟨fun c k hsup ↦ hd.abortRequested_iff.mpr (aborted_of_superseded hr hn hsup),
    fun k e he ↦ ?_, fun k c₁ c₂ _ _ hm₁ hm₂ hl₁ hl₂ ↦ ?_,
    fun c hab ↦ cause_of_aborted hr hn (hd.abortRequested_iff.mp hab),
    fun a t es c k hstep hmem ↦ ?_, fun c t es hstep ↦ ?_, fun c k href k' sessionId hmem ↦ ?_⟩
  · obtain ⟨-, conn, auth, hc, hheld, -⟩ := (Gate.of_reach hr).entry k e he
    have hinv := hd.conn _ conn hc
    have hsome := hinv.spawned
    rw [Task.spawned_of_settled (Task.settled_of_held hheld), Option.isSome_iff_exists] at hsome
    obtain ⟨d, hdr⟩ := hsome
    refine ⟨conn, d, hc, hdr, Bool.eq_false_iff.mpr fun hflag ↦ ?_⟩
    exact not_aborted_of_entry hr he ((hinv.flag d hdr).mp hflag)
  · have h₁ := lastSwap_of_live hr hn hm₁ hl₁
    rw [lastSwap_of_live hr hn hm₂ hl₂, Option.some.injEq] at h₁
    exact h₁.symm
  · exact frame_of_refused hstep hmem
  · obtain ⟨hreg, hothers, hes, conn, auth, hc, ht⟩ := frame_of_abortOwn hstep
    exact ⟨hreg, hothers, hes, _, (Refusals.of_reach hr).reported c conn auth hc ht⟩
  · obtain ⟨conn, hc, hfailed⟩ := (Refusals.of_reach hr).failed c k href
    obtain ⟨conn', hc', hst⟩ := (Slots.of_reach hr hn).status c k'
      (claim_mem_sessionOps.mpr ⟨sessionId, hmem⟩)
    rw [hc, Option.some.injEq] at hc'
    subst hc'
    rcases hst with ⟨_, _, hheld, -⟩ | ⟨hdone, -⟩
    · rcases hfailed with ⟨auth, ht⟩ | ht <;> rw [ht] at hheld <;> cases hheld
    · rcases hfailed with ⟨auth, ht⟩ | ht <;> rw [ht] at hdone <;> cases hdone

/-- A takeover, and next to it a refused registration. -/
theorem abort_sound_takeover : ∃ h s,
    (machine compactSerde sampleConfig fun _ ↦ none).run (start fun _ ↦ none)
      (answerSegments 0 ⟨"app", "t", some "1"⟩ ++ registerSegments 0 0 ++
        answerSegments 1 ⟨"app", "t", some "1"⟩ ++ registerSegments 1 0 ++
        answerSegments 2 ⟨"www", "t", none⟩ ++ [.spawnDriver 2 0, .checkId 2, .abortOwn 2]) =
      some (s, h) ∧
    .swapped 0 "app" 1 ∈ h ∧ .swapped 1 "app" 2 ∈ h ∧ .aborted 0 ∈ h ∧ .aborted 1 ∉ h ∧
    .aborted 2 ∈ h ∧ AbortSound compactSerde sampleConfig h s := by
  have hrun : ((machine compactSerde sampleConfig fun _ ↦ none).run (start fun _ ↦ none)
      (answerSegments 0 ⟨"app", "t", some "1"⟩ ++ registerSegments 0 0 ++
        answerSegments 1 ⟨"app", "t", some "1"⟩ ++ registerSegments 1 0 ++
        answerSegments 2 ⟨"www", "t", none⟩ ++ [.spawnDriver 2 0, .checkId 2, .abortOwn 2])).map
      (fun p ↦ (decide (.swapped 0 "app" 1 ∈ p.2), decide (.swapped 1 "app" 2 ∈ p.2),
        decide (.aborted 0 ∈ p.2), decide (.aborted 1 ∈ p.2), decide (.aborted 2 ∈ p.2),
        (numberedSessions p.2).length)) =
      some (true, true, true, false, true, 2) := by decide +kernel
  obtain ⟨⟨s, h⟩, hsh, heq⟩ := Option.map_eq_some_iff.mp hrun
  simp only [Prod.mk.injEq, decide_eq_true_eq, decide_eq_false_iff_not] at heq
  obtain ⟨h₀, h₁, hab₀, hab₁, hab₂, hlen⟩ := heq
  have hn : NumbersFit h := by
    rw [NumbersFit, hlen]
    decide
  exact ⟨h, s, hsh, h₀, h₁, hab₀, hab₁, hab₂, abort_sound _ _ _ h s (.of_run hsh) hn⟩

end Control

end ZoTunnel
