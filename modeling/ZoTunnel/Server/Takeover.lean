import ZoTunnel.Lib.LastWriter
import ZoTunnel.Server.Admission

/-!
# Takeovers

The registry as a table that its last writer holds. Seen from the table, a session claims its slot
with the map operation of `register` and releases it with `unregister`; the session is the
`handle_client` task, and the number it took is only what `unregister` recognises it by. The
registry refines the table of `LastWriter` as long as different sessions have different numbers,
which is so for the first 2⁶⁴ − 1 of them.

From the refinement follows who is aborted: the session that a takeover finds in the slot, and the
driver of a refused connection, and no other.
-/

namespace ZoTunnel

namespace Control

open LastWriter

/-! ## Sessions and their numbers -/

/-- The session number of a task that has one. -/
def Task.sessionId : Task → Option UInt64
  | numbered _ sessionId | registered _ sessionId | routing _ sessionId | serving _ sessionId
  | leaving _ sessionId => some sessionId
  | reading | rejecting _ | rejected _ | accepting _ | accepted _ | registering _ | checked _
  | refused _ | done _ => none

/-- The history as the table sees it. -/
def sessionOps (h : List Event) : List (Op String ConnId) :=
  h.filterMap fun
    | .swapped c k _ => some (.claim k c)
    | .unregistered c k _ _ => some (.release k c)
    | _ => none

/-- The session numbers that were given out, in order. -/
def numberedSessions (h : List Event) : List (ConnId × UInt64) :=
  h.filterMap fun | .numbered c sessionId => some (c, sessionId) | _ => none

/-- The session whose map operation for the id was the most recent. -/
def lastSwap (h : List Event) (k : String) : Option ConnId := lastClaim (sessionOps h) k

/-- The session has run its `unregister`. -/
def Unregistered (h : List Event) (c : ConnId) (k : String) : Prop :=
  ∃ sessionId removed, .unregistered c k sessionId removed ∈ h

/-- Fewer than 2⁶⁴ session numbers were given out. -/
def NumbersFit (h : List Event) : Prop := (numberedSessions h).length < 2 ^ 64

section Append

variable (h h' : List Event)

@[simp] theorem sessionOps_append : sessionOps (h ++ h') = sessionOps h ++ sessionOps h' :=
  List.filterMap_append

@[simp] theorem numberedSessions_append :
    numberedSessions (h ++ h') = numberedSessions h ++ numberedSessions h' :=
  List.filterMap_append

end Append

variable {serde : SerdeJson} {config : ServerConfig} {routes : RouteFiles} {h h' : List Event}
  {s t : State} {a : Act} {es : List Event} {c : ConnId} {k : String} {conn : Conn}
  {auth : AuthReq} {sessionId : UInt64}

theorem claim_mem_sessionOps :
    .claim k c ∈ sessionOps h ↔ ∃ sessionId, .swapped c k sessionId ∈ h := by
  rw [sessionOps, List.mem_filterMap]
  constructor
  · rintro ⟨e, he, heq⟩
    cases e <;> simp only [Option.some.injEq, Op.claim.injEq, reduceCtorEq] at heq
    obtain ⟨rfl, rfl⟩ := heq
    exact ⟨_, he⟩
  · rintro ⟨sessionId, he⟩
    exact ⟨_, he, rfl⟩

theorem release_mem_sessionOps : .release k c ∈ sessionOps h ↔ Unregistered h c k := by
  rw [sessionOps, List.mem_filterMap]
  constructor
  · rintro ⟨e, he, heq⟩
    cases e <;> simp only [Option.some.injEq, Op.release.injEq, reduceCtorEq] at heq
    obtain ⟨rfl, rfl⟩ := heq
    exact ⟨_, _, he⟩
  · rintro ⟨sessionId, removed, he⟩
    exact ⟨_, he, rfl⟩

theorem NumbersFit.of_append (hn : NumbersFit (h ++ h')) : NumbersFit h := by
  rw [NumbersFit, numberedSessions_append, List.length_append] at hn
  exact Nat.lt_of_le_of_lt (Nat.le_add_right _ _) hn

theorem Task.sessionId_of_held {task : Task} (ht : task.held = some (auth, sessionId)) :
    task.sessionId = some sessionId := by
  cases task <;> simp_all [held, Task.sessionId]

theorem Task.answered_of_sessionId {task : Task} (ht : task.sessionId = some sessionId) :
    ∃ auth, task.answered = some auth := by
  cases task <;> simp_all [answered, Task.sessionId]

/-! ## What a step does to the registry -/

/-- The slots change with the map operation of `register` and with `unregister` only. -/
theorem registry_of_step (hstep : step serde config s a = some (t, es)) :
    (sessionOps es = [] ∧ ∀ k, t.registry.get k = s.registry.get k) ∨
    (∃ c conn auth sessionId, s.conns c = some conn ∧ conn.task = .numbered auth sessionId ∧
      sessionOps es = [.claim auth.clientId c] ∧ ∀ k, t.registry.get k =
        if k = auth.clientId then some ⟨auth.clientId, sessionId, c, auth.supportsHeartbeat⟩
        else s.registry.get k) ∨
    (∃ c conn auth sessionId, s.conns c = some conn ∧ conn.task = .leaving auth sessionId ∧
      sessionOps es = [.release auth.clientId c] ∧ ∀ k, t.registry.get k =
        if k = auth.clientId ∧ (s.registry.unregister auth.clientId sessionId).2 = true then none
        else s.registry.get k) := by
  cases step_transition hstep with
  | accept | recv | peerClose | readFrame | readEnds | answered | writeEnds | countFailed
  | spawnDriver | refuse | check | fetchSession | abortOwn | writeRoute | join =>
    exact .inl ⟨rfl, fun _ ↦ rfl⟩
  | readRoute _ _ _ hes =>
    refine .inl ⟨?_, fun _ ↦ rfl⟩
    rcases hes with rfl | rfl <;> rfl
  | driver => exact .inl ⟨by simp [sessionOps, List.filterMap_map], fun _ ↦ rfl⟩
  | insertVacant hc ht he =>
    subst he
    exact .inr (.inl ⟨_, _, _, _, hc, ht, rfl, fun k ↦ Registry.get_insertEntry ..⟩)
  | insertOccupied hc ht he =>
    subst he
    exact .inr (.inl ⟨_, _, _, _, hc, ht, rfl, fun k ↦ Registry.get_insertEntry ..⟩)
  | unregister hc ht =>
    exact .inr (.inr ⟨_, _, _, _, hc, ht, rfl, fun k ↦ Registry.get_unregister ..⟩)

theorem nextSession_of_step (hstep : step serde config s a = some (t, es)) :
    (numberedSessions es = [] ∧ t.registry.nextSession = s.registry.nextSession) ∨
    (∃ c, numberedSessions es = [(c, s.registry.nextSession)] ∧
      t.registry.nextSession = s.registry.nextSession + 1) := by
  cases step_transition hstep with
  | accept | recv | peerClose | readFrame | readEnds | answered | writeEnds | countFailed
  | spawnDriver | refuse | check | abortOwn | writeRoute | join => exact .inl ⟨rfl, rfl⟩
  | readRoute _ _ _ hes =>
    refine .inl ⟨?_, rfl⟩
    rcases hes with rfl | rfl <;> rfl
  | driver => exact .inl ⟨by simp [numberedSessions, List.filterMap_map], rfl⟩
  | insertVacant | insertOccupied => exact .inl ⟨rfl, Registry.nextSession_insertEntry ..⟩
  | unregister => exact .inl ⟨rfl, Registry.nextSession_unregister ..⟩
  | fetchSession => exact .inr ⟨_, rfl, rfl⟩

/-! ## The refinement -/

/-- The registry refines the table. -/
structure Slots (h : List Event) (s : State) : Prop where
  next : s.registry.nextSession = UInt64.ofNat ((numberedSessions h).length + 1)
  numbers : (numberedSessions h).map Prod.snd =
    (List.range (numberedSessions h).length).map fun i ↦ UInt64.ofNat (i + 1)
  own : ∀ c conn sessionId, s.conns c = some conn → conn.task.sessionId = some sessionId →
    (c, sessionId) ∈ numberedSessions h
  /-- A session that claimed a slot is under way until it releases it. -/
  status : ∀ c k, .claim k c ∈ sessionOps h → ∃ conn, s.conns c = some conn ∧
    ((∃ auth sessionId, conn.task.held = some (auth, sessionId) ∧ auth.clientId = k ∧
        .release k c ∉ sessionOps h) ∨
      conn.task = .done .disconnected ∧ .release k c ∈ sessionOps h)
  disciplined : Disciplined (sessionOps h)
  slot : ∀ k, (s.registry.get k).map (·.handle) = slots (sessionOps h) k

namespace Slots

theorem start : Slots [] (start routes) where
  next := rfl
  numbers := rfl
  own c conn sessionId hc := by cases hc
  status c k hk := by cases hk
  disciplined := .nil
  slot k := rfl

theorem unique (hi : Slots h s) (hn : NumbersFit h) {c' : ConnId}
    (hc : (c, sessionId) ∈ numberedSessions h) (hc' : (c', sessionId) ∈ numberedSessions h) :
    c = c' := by
  have hnodup : ((numberedSessions h).map Prod.snd).Nodup := by
    rw [hi.numbers]
    refine List.Nodup.map_on (fun i hi' j hj heq ↦ ?_) List.nodup_range
    rw [List.mem_range] at hi' hj
    have := congrArg UInt64.toNat heq
    rw [UInt64.toNat_ofNat', UInt64.toNat_ofNat'] at this
    rw [NumbersFit] at hn
    omega
  have := List.inj_on_of_nodup_map hnodup hc hc' rfl
  exact congrArg Prod.fst this

/-- `unregister` recognises the entry of its own session. -/
theorem unregister_iff (hi : Slots h s) (hg : Gate serde config h s) (hn : NumbersFit h)
    (hc : s.conns c = some conn) (ht : conn.task = .leaving auth sessionId) :
    (s.registry.unregister auth.clientId sessionId).2 = true ↔
      slots (sessionOps h) auth.clientId = some c := by
  rw [Registry.unregister_snd, ← hi.slot, Option.map_eq_some_iff]
  have hown := hi.own c conn sessionId hc (by rw [ht]; rfl)
  constructor
  · rintro ⟨e, he, hs⟩
    obtain ⟨-, conn', auth', hc', hheld, -⟩ := hg.entry _ e he
    have hown' := hi.own _ _ _ hc' (Task.sessionId_of_held hheld)
    rw [hs] at hown'
    exact ⟨e, he, hi.unique hn hown' hown⟩
  · rintro ⟨e, he, rfl⟩
    obtain ⟨-, conn', auth', hc', hheld, -⟩ := hg.entry _ e he
    rw [hc, Option.some.injEq] at hc'
    rw [← hc', ht, Task.held, Option.some.injEq, Prod.mk.injEq] at hheld
    exact ⟨e, he, hheld.2.symm⟩

/-- A session that has not swapped its entry in has not claimed anything. -/
theorem not_claimed (hi : Slots h s) (hc : s.conns c = some conn) (hheld : conn.task.held = none)
    (hdone : conn.task ≠ .done .disconnected) (k : String) : .claim k c ∉ sessionOps h := by
  intro hk
  obtain ⟨conn', hc', ⟨auth, sessionId, hh, -⟩ | ⟨hd, -⟩⟩ := hi.status c k hk
  · rw [hc, Option.some.injEq] at hc'
    rw [← hc', hheld] at hh
    cases hh
  · rw [hc, Option.some.injEq] at hc'
    exact hdone (hc' ▸ hd)

private theorem step_own (hi : Slots h s) (hstep : step serde config s a = some (t, es)) :
    ∀ c conn sessionId, t.conns c = some conn → conn.task.sessionId = some sessionId →
      (c, sessionId) ∈ numberedSessions (h ++ es) := by
  intro c conn' sessionId hc' hs
  rw [numberedSessions_append, List.mem_append]
  rcases conn_of_step hstep hc' with ⟨-, ht⟩ | ⟨conn, hc, ht | ⟨rfl, hm⟩⟩
  · rw [ht] at hs
    cases hs
  · exact .inl (hi.own c conn sessionId hc (ht ▸ hs))
  · have hown := hi.own _ conn sessionId hc
    generalize conn.task = task at hm hown
    generalize conn'.task = task' at hm hs
    cases hm with
    | fetchSession =>
      rw [Task.sessionId, Option.some.injEq] at hs
      exact .inr (by simp [numberedSessions, hs])
    | insertVacant | insertOccupied | writeRoute | join => exact .inl (hown hs)
    | readRoute ht' => rcases ht' with rfl | rfl <;> exact .inl (hown hs)
    | @read r =>
      obtain ⟨auth, hans⟩ := Task.answered_of_sessionId hs
      rw [answered_onFirstFrame] at hans
      cases hans
    | answered hans =>
      rcases answer_eq_some hans with ⟨_, -, -, rfl⟩ | ⟨_, -, -, rfl⟩ <;> cases hs
    | readEnds | writeEnds | countFailed | spawnDriver | refuse | check | abortOwn | unregister =>
      cases hs

private theorem step_status (hi : Slots h s) (hstep : step serde config s a = some (t, es)) :
    ∀ c k, .claim k c ∈ sessionOps (h ++ es) → ∃ conn, t.conns c = some conn ∧
      ((∃ auth sessionId, conn.task.held = some (auth, sessionId) ∧ auth.clientId = k ∧
          .release k c ∉ sessionOps (h ++ es)) ∨
        conn.task = .done .disconnected ∧ .release k c ∈ sessionOps (h ++ es)) := by
  intro c k hk
  simp only [sessionOps_append, List.mem_append] at hk ⊢
  rcases hk with hk | hk
  · obtain ⟨conn, hc, hst⟩ := hi.status c k hk
    obtain ⟨conn', hc', ht | ⟨-, hm⟩⟩ := task_of_step hstep hc
    · -- The task has not moved, so it has not released anything in this step.
      refine ⟨conn', hc', ?_⟩
      rcases hst with ⟨auth, sessionId, hh, hk', hrel⟩ | ⟨hd, hrel⟩
      · refine .inl ⟨auth, sessionId, ht ▸ hh, hk', ?_⟩
        rintro (hrel' | hrel')
        · exact hrel hrel'
        · obtain ⟨_, _, he⟩ := release_mem_sessionOps.mp hrel'
          obtain ⟨-, _, conn'', _, hc₀, hc'', ht₀, ht'', -⟩ := unregistered_of_step hstep he
          rw [hc, Option.some.injEq] at hc₀
          rw [hc', Option.some.injEq] at hc''
          subst hc₀ hc''
          rw [ht, ht₀] at ht''
          cases ht''
      · exact .inr ⟨ht ▸ hd, .inl hrel⟩
    · -- Only `unregister` ends a task that holds a slot, and it releases it.
      refine ⟨conn', hc', ?_⟩
      generalize conn.task = task at hm hst
      generalize conn'.task = task' at hm ⊢
      rcases hst with ⟨auth, sessionId, hh, hk', hrel⟩ | ⟨rfl, hrel⟩
      · cases hm with
        | readRoute ht' hes =>
          cases hh
          refine .inl ⟨auth, sessionId, ?_, hk', ?_⟩
          · rcases ht' with rfl | rfl <;> rfl
          · rcases hes with rfl | rfl <;> simpa [sessionOps] using hrel
        | writeRoute | join =>
          cases hh
          exact .inl ⟨auth, sessionId, rfl, hk', by simpa [sessionOps] using hrel⟩
        | unregister =>
          cases hh
          exact .inr ⟨rfl, .inr (by simp [sessionOps, hk'])⟩
        | answered hans | writeEnds hans => rw [held_of_answer hans] at hh; cases hh
        | _ => cases hh
      · cases hm with
        | answered hans | writeEnds hans => cases hans
  · -- The session claims its slot in this step, and cannot have released one.
    obtain ⟨sessionId, he⟩ := claim_mem_sessionOps.mp hk
    obtain ⟨conn, conn', auth, hc, hc', ht, ht', hk'⟩ := swapped_of_step hstep he
    refine ⟨conn', hc', .inl ⟨auth, sessionId, by rw [ht']; rfl, hk', ?_⟩⟩
    rintro (hrel | hrel)
    · exact hi.not_claimed hc (by rw [ht]; rfl) (by simp [ht]) k (hi.disciplined.claimed hrel)
    · obtain ⟨_, _, he'⟩ := release_mem_sessionOps.mp hrel
      obtain ⟨-, conn₀, _, _, hc₀, -, ht₀, -⟩ := unregistered_of_step hstep he'
      rw [hc, Option.some.injEq] at hc₀
      subst hc₀
      rw [ht] at ht₀
      cases ht₀

/-- **The step lemma.** -/
theorem step (hi : Slots h s) (hg : Gate serde config h s) (hn : NumbersFit h)
    (hstep : step serde config s a = some (t, es)) : Slots (h ++ es) t := by
  have hnumbers : t.registry.nextSession =
      UInt64.ofNat ((numberedSessions (h ++ es)).length + 1) ∧
      (numberedSessions (h ++ es)).map Prod.snd =
        (List.range (numberedSessions (h ++ es)).length).map fun i ↦ UInt64.ofNat (i + 1) := by
    rw [numberedSessions_append]
    rcases nextSession_of_step hstep with ⟨hes, hnext⟩ | ⟨c, hes, hnext⟩
    · rw [hes, List.append_nil, hnext]
      exact ⟨hi.next, hi.numbers⟩
    · rw [hes, List.map_append, List.length_append, List.length_singleton, hnext, hi.next,
        List.range_succ, List.map_append, hi.numbers]
      exact ⟨(UInt64.ofNat_add _ _).symm, rfl⟩
  have hslots : Disciplined (sessionOps (h ++ es)) ∧
      ∀ k, (t.registry.get k).map (·.handle) = slots (sessionOps (h ++ es)) k := by
    rw [sessionOps_append]
    rcases registry_of_step hstep with ⟨hes, hreg⟩ |
      ⟨c, conn, auth, sessionId, hc, ht, hes, hreg⟩ |
      ⟨c, conn, auth, sessionId, hc, ht, hes, hreg⟩
    · rw [hes, List.append_nil]
      exact ⟨hi.disciplined, fun k ↦ by rw [hreg]; exact hi.slot k⟩
    · rw [hes]
      refine ⟨.claim hi.disciplined (hi.not_claimed hc (by rw [ht]; rfl) (by simp [ht])),
        fun k ↦ ?_⟩
      rw [slots_append_singleton, LastWriter.step, hreg]
      by_cases hk : k = auth.clientId
      · rw [if_pos hk, hk, Function.update_self]
        rfl
      · rw [if_neg hk, Function.update_of_ne hk]
        exact hi.slot k
    · rw [hes]
      obtain ⟨h₁, h₂, rfl, -⟩ := (hg.conn c conn hc).held auth sessionId (by rw [ht]; rfl)
      refine ⟨.release hi.disciplined (claim_mem_sessionOps.mpr ⟨sessionId, by simp⟩),
        fun k ↦ ?_⟩
      rw [slots_append_singleton, LastWriter.step, hreg]
      -- `unregister` compares session numbers, the abstract release compares sessions.
      have hiff := hi.unregister_iff hg hn hc ht
      by_cases hslot : slots (sessionOps (h₁ ++ Event.swapped c auth.clientId sessionId :: h₂))
          auth.clientId = some c
      · rw [if_pos hslot, hiff.mpr hslot]
        by_cases hk : k = auth.clientId
        · rw [if_pos ⟨hk, rfl⟩, hk, Function.update_self]
          rfl
        · rw [if_neg fun h ↦ hk h.1, Function.update_of_ne hk]
          exact hi.slot k
      · rw [if_neg hslot, if_neg fun h ↦ hslot (hiff.mp h.2)]
        exact hi.slot k
  exact ⟨hnumbers.1, hnumbers.2, hi.step_own hstep, hi.step_status hstep, hslots.1, hslots.2⟩

/-- **The run lemma.** -/
theorem of_reach (hr : (machine serde config routes).Reach h s) (hn : NumbersFit h) :
    Slots h s := by
  refine hr.invariant (P := fun h s ↦ NumbersFit h → Slots h s) (fun _ ↦ start) ?_ hn
  intro h s a t es hr hi hstep hn
  exact (hi hn.of_append).step (.of_reach hr) hn.of_append hstep

/-- The slot holds the session that was swapped in last. -/
theorem holds (hi : Slots h s) (hg : Gate serde config h s) {k : String}
    (hlast : lastSwap h k = some c) (hnot : ¬Unregistered h c k) :
    ∃ e, s.registry.get k = some e ∧ e.handle = c ∧ .swapped c k e.sessionId ∈ h := by
  have hslot := (slots_eq hi.disciplined k).1 c hlast fun hrel ↦
    hnot (release_mem_sessionOps.mp hrel)
  rw [← hi.slot, Option.map_eq_some_iff] at hslot
  obtain ⟨e, he, rfl⟩ := hslot
  obtain ⟨-, conn, auth, hc, hheld, rfl, -⟩ := hg.entry k e he
  obtain ⟨h₁, h₂, rfl, -⟩ := (hg.conn _ _ hc).held _ _ hheld
  exact ⟨e, he, rfl, List.mem_append_right _ List.mem_cons_self⟩

end Slots

/-! ## The slots -/

/-- Who has a slot, in the history so far and in every step that may come next. -/
structure SlotsSound (serde : SerdeJson) (config : ServerConfig) (h : List Event) (s : State) :
    Prop where
  /-- The slot holds the session that was swapped in last. -/
  holds : ∀ k c, lastSwap h k = some c → ¬Unregistered h c k → ∃ e, s.registry.get k = some e ∧
    e.handle = c ∧ .swapped c k e.sessionId ∈ h
  /-- Unless that session has unregistered. -/
  left : ∀ k c, lastSwap h k = some c → Unregistered h c k → s.registry.get k = none
  never : ∀ k, lastSwap h k = none → s.registry.get k = none
  /-- `unregister` returns true if and only if the session was not superseded before. -/
  unregister_result : ∀ h₁ h₂ c k sessionId removed,
    h = h₁ ++ .unregistered c k sessionId removed :: h₂ →
    (removed = true ↔ lastSwap h₁ k = some c)
  /-- `unregister` keeps every entry of another session. -/
  unregister_own : ∀ c t es k e, step serde config s (.unregister c) = some (t, es) →
    s.registry.get k = some e → e.handle ≠ c → t.registry.get k = some e
  /-- No entry is orphaned. -/
  finished : ∀ k, (∀ c sessionId, .swapped c k sessionId ∈ h →
    ∃ conn o, s.conns c = some conn ∧ conn.task = .done o) → s.registry.get k = none

/-- **The last registration has the slot**, for any number of tasks in any interleaving, as long as
there are fewer than 2⁶⁴ session numbers. -/
theorem slots_sound (serde : SerdeJson) (config : ServerConfig) (routes : RouteFiles)
    (h : List Event) (s : State) (hr : (machine serde config routes).Reach h s)
    (hn : NumbersFit h) : SlotsSound serde config h s := by
  have hi : Slots h s := .of_reach hr hn
  have hg : Gate serde config h s := .of_reach hr
  refine ⟨fun k c hl hu ↦ hi.holds hg hl hu, fun k c hl hu ↦ ?_, fun k hl ↦ ?_,
    fun h₁ h₂ c k sessionId removed heq ↦ ?_, fun c t es k e hstep he hne ↦ ?_, fun k hall ↦ ?_⟩
  · have hslot := (slots_eq hi.disciplined k).2.1 c hl (release_mem_sessionOps.mpr hu)
    rwa [← hi.slot, Option.map_eq_none_iff] at hslot
  · have hslot := (slots_eq hi.disciplined k).2.2 hl
    rwa [← hi.slot, Option.map_eq_none_iff] at hslot
  · -- Look at the step that made the call.
    rw [heq] at hr hn
    obtain ⟨h₀, v, a, w, es₁, es₂, -, hv, hstep, -, hh₁, -⟩ := Machine.Steps.split hr
    obtain ⟨hes, conn, -, auth, hc, -, ht, -, rfl, rfl⟩ :=
      unregistered_of_step hstep (List.mem_append_right _ List.mem_cons_self)
    have hes₁ : es₁ = [] := by
      have := congrArg List.length hes
      rw [List.length_append, List.length_cons, List.length_singleton] at this
      exact List.eq_nil_of_length_eq_zero (by omega)
    rw [hes₁, List.append_nil] at hh₁
    subst hh₁
    have hi₀ : Slots h₁ v := .of_reach hv hn.of_append
    rw [hi₀.unregister_iff (.of_reach hv) hn.of_append hc ht]
    refine slots_eq_some_iff hi₀.disciplined fun hrel ↦ ?_
    obtain ⟨conn', hc', ⟨_, _, -, -, hnot⟩ | ⟨hd, -⟩⟩ :=
      hi₀.status c _ (hi₀.disciplined.claimed hrel)
    · exact hnot hrel
    · rw [hc, Option.some.injEq] at hc'
      rw [← hc', ht] at hd
      cases hd
  · cases step_transition hstep with
    | @unregister _ conn auth sessionId hc ht =>
      have hget : ((s.registry.unregister auth.clientId sessionId).1).get k = some e := by
        rw [Registry.get_unregister, if_neg, he]
        rintro ⟨rfl, hrem⟩
        rw [hi.unregister_iff hg hn hc ht, ← hi.slot, he, Option.map_some,
          Option.some.injEq] at hrem
        exact hne hrem
      exact hget
    | readEnds _ _ ha => rcases ha with ⟨ha, -⟩ | ⟨ha, -⟩ <;> cases ha
    | writeEnds _ _ ha => rcases ha with ha | ⟨_, ha⟩ <;> cases ha
  · have hslot : slots (sessionOps h) k = none := by
      refine slots_eq_none hi.disciplined fun c hcl ↦ ?_
      obtain ⟨sessionId, hmem⟩ := claim_mem_sessionOps.mp hcl
      obtain ⟨conn, o, hc, hd⟩ := hall c sessionId hmem
      obtain ⟨conn', hc', ⟨auth, sessionId', hh, -⟩ | ⟨-, hrel⟩⟩ := hi.status c k hcl
      · rw [hc, Option.some.injEq] at hc'
        rw [← hc', hd] at hh
        cases hh
      · exact hrel
    rwa [← hi.slot, Option.map_eq_none_iff] at hslot

/-- A takeover, after which the replaced session unregisters late. -/
theorem slots_sound_late_unregister : ∃ h s,
    (machine compactSerde sampleConfig fun _ ↦ none).run (start fun _ ↦ none)
      (answerSegments 0 ⟨"app", "t", some "1"⟩ ++ registerSegments 0 0 ++
        answerSegments 1 ⟨"app", "t", some "1"⟩ ++ registerSegments 1 0 ++
        [.readRoute 0, .driver 0 .cancelled, .join 0, .unregister 0]) = some (s, h) ∧
    s.registry.get "app" = some ⟨"app", 2, 1, true⟩ ∧ .unregistered 0 "app" 1 false ∈ h ∧
    SlotsSound compactSerde sampleConfig h s := by
  have hrun : ((machine compactSerde sampleConfig fun _ ↦ none).run (start fun _ ↦ none)
      (answerSegments 0 ⟨"app", "t", some "1"⟩ ++ registerSegments 0 0 ++
        answerSegments 1 ⟨"app", "t", some "1"⟩ ++ registerSegments 1 0 ++
        [.readRoute 0, .driver 0 .cancelled, .join 0, .unregister 0])).map
      (fun p ↦ (p.1.registry.get "app", decide (.unregistered 0 "app" 1 false ∈ p.2),
        (numberedSessions p.2).length)) =
      some (some ⟨"app", 2, 1, true⟩, true, 2) := by decide +kernel
  obtain ⟨⟨s, h⟩, hsh, heq⟩ := Option.map_eq_some_iff.mp hrun
  simp only [Prod.mk.injEq, decide_eq_true_eq] at heq
  obtain ⟨hslot, hmem, hlen⟩ := heq
  have hn : NumbersFit h := by
    rw [NumbersFit, hlen]
    decide
  exact ⟨h, s, hsh, hslot, hmem, slots_sound _ _ _ h s (.of_run hsh) hn⟩

end Control

end ZoTunnel
