import Mathlib.Tactic.TFAE
import ZoTunnel.Server.Wraparound

/-!
# The order of takeovers

`register` draws a session number and then inserts the entry, in two steps, and another session of
the same id can do both in between. The slot goes to whoever inserts last, and the session that was
there is aborted, whatever the two numbers are; so a session with the lower number can take the slot
from one with the higher number (`newer_session_replaced`).

The numbers in a slot grow from its first entry to the next time it is emptied exactly if the
sessions of the id that are inserted in between come in the order in which they drew their numbers
(`takeover_order`).
-/

namespace ZoTunnel

namespace Control

variable {serde : SerdeJson} {config : ServerConfig} {routes : RouteFiles} {h h' : List Event}
  {s t u : State} {a : Act} {as : List Act} {es : List Event} {c c' : ConnId} {k : String}
  {conn : Conn} {auth : AuthReq} {n n' : UInt64} {e e' old : ClientEntry}

/-- The slot of an id is not emptied. -/
def Kept (h : List Event) (k : String) : Prop := ∀ c n, .unregistered c k n true ∉ h

/-- Session `c'` drew its number before session `c` did. -/
def DrawnBefore (h : List Event) (c' : ConnId) (n' : UInt64) (c : ConnId) (n : UInt64) : Prop :=
  ∃ h₁ h₂, h = h₁ ++ h₂ ∧ .numbered c' n' ∈ h₁ ∧ .numbered c n ∈ h₂

/-- Session `c` is inserted after session `c'`, into a slot that was not emptied in between. -/
def InsertedAfter (h : List Event) (k : String) (c' : ConnId) (n' : UInt64) (c : ConnId)
    (n : UInt64) : Prop :=
  ∃ h₁ mid h₂, h = h₁ ++ .swapped c' k n' :: (mid ++ .swapped c k n :: h₂) ∧ Kept mid k

/-- A takeover of a run: after the actions `bs`, in state `t`, session `c` with the number `n`
inserts its entry for `k` where `old` is. -/
structure Takeover (serde : SerdeJson) (config : ServerConfig) (routes : RouteFiles)
    (as bs : List Act) (t : State) (c : ConnId) (k : String) (n : UInt64) (old : ClientEntry) :
    Prop where
  split : ∃ cs, as = bs ++ .insertEntry c :: cs
  run : ∃ h, (machine serde config routes).run (start routes) bs = some (t, h)
  numbered : ∃ conn auth, t.conns c = some conn ∧ conn.task = .numbered auth n ∧ auth.clientId = k
  slot : t.registry.get k = some old

/-! ## What a step does to a slot -/

theorem numbered_mem : .numbered c n ∈ h ↔ (c, n) ∈ numberedSessions h := by
  rw [numberedSessions, List.mem_filterMap]
  constructor
  · intro hmem
    exact ⟨_, hmem, rfl⟩
  · rintro ⟨e, he, heq⟩
    cases e <;> simp only [Option.some.injEq, Prod.mk.injEq, reduceCtorEq] at heq
    obtain ⟨rfl, rfl⟩ := heq
    exact he

/-- An insertion: it makes no other entry than its own. -/
theorem insertion_of_step (hstep : step serde config s a = some (t, es))
    (hmem : .swapped c k n ∈ es) :
    a = .insertEntry c ∧ (∃ conn auth, s.conns c = some conn ∧ conn.task = .numbered auth n ∧
      auth.clientId = k) ∧ (∃ hb, t.registry.get k = some ⟨k, n, c, hb⟩) ∧
      ∃ l, es = .swapped c k n :: l ∧ (∀ c₁ k₁ n₁, .swapped c₁ k₁ n₁ ∉ l) ∧ Kept es k := by
  cases step_transition hstep with
  | insertVacant hc ht he hslot =>
    subst he
    obtain ⟨rfl, rfl, rfl⟩ := Event.swapped.inj (List.mem_singleton.mp hmem)
    refine ⟨rfl, ⟨_, _, hc, ht, rfl⟩, ⟨_, (Registry.get_insertEntry ..).trans (if_pos rfl)⟩, [],
      rfl, fun _ _ _ ↦ List.not_mem_nil, ?_⟩
    intro c₁ n₁ hmem₁
    cases List.mem_singleton.mp hmem₁
  | insertOccupied hc ht he hslot =>
    subst he
    have hne : ∀ {c₁ k₁ n₁ c₂}, Event.swapped c₁ k₁ n₁ ∉ [Event.aborted c₂] := by
      intro c₁ k₁ n₁ c₂ hmem₁
      cases List.mem_singleton.mp hmem₁
    obtain ⟨rfl, rfl, rfl⟩ := Event.swapped.inj ((List.mem_cons.mp hmem).resolve_right hne)
    refine ⟨rfl, ⟨_, _, hc, ht, rfl⟩, ⟨_, (Registry.get_insertEntry ..).trans (if_pos rfl)⟩, _,
      rfl, fun _ _ _ ↦ hne, ?_⟩
    intro c₁ n₁ hmem₁
    rcases List.mem_cons.mp hmem₁ with heq | hmem₁
    · cases heq
    · cases List.mem_singleton.mp hmem₁
  | readRoute _ _ _ hes => rcases hes with rfl | rfl <;> simp at hmem
  | _ => simp at hmem

/-- The insertion is the first event of its step, and the only one. -/
theorem insertion_split {es₁ es₂ : List Event}
    (hstep : step serde config s a = some (t, es₁ ++ .swapped c k n :: es₂)) :
    es₁ = [] ∧ (∀ c₁ k₁ n₁, .swapped c₁ k₁ n₁ ∉ es₂) ∧ Kept es₂ k := by
  obtain ⟨-, -, -, l, hes, hl, hkept⟩ :=
    insertion_of_step hstep (List.mem_append_right _ List.mem_cons_self)
  cases es₁ with
  | nil =>
    obtain ⟨-, rfl⟩ := List.cons.inj hes
    exact ⟨rfl, hl, fun c₁ n₁ hmem ↦ hkept c₁ n₁ (List.mem_cons_of_mem _ hmem)⟩
  | cons e es₁ =>
    obtain ⟨-, rfl⟩ := List.cons.inj hes
    exact absurd (List.mem_append_right _ List.mem_cons_self) (hl c k n)

/-- What a step does to a slot: nothing, or it inserts an entry, or it empties it. -/
theorem slot_of_step (hstep : step serde config s a = some (t, es)) (k : String) :
    t.registry.get k = s.registry.get k ∧ Kept es k ∨ (∃ c n, .swapped c k n ∈ es) ∨
      t.registry.get k = none ∧ ¬Kept es k := by
  have hquiet : (∀ c₁ k₁ n₁, .unregistered c₁ k₁ n₁ true ∉ es) → Kept es k :=
    fun hall c₁ n₁ ↦ hall c₁ k n₁
  cases step_transition hstep with
  | accept | recv | peerClose | readFrame | readEnds | answered | writeEnds | countFailed
  | spawnDriver | refuse | check | fetchSession | abortOwn | writeRoute | join | driver =>
    exact .inl ⟨rfl, hquiet (by simp)⟩
  | readRoute _ _ _ hes =>
    refine .inl ⟨rfl, hquiet fun c₁ k₁ n₁ hmem ↦ ?_⟩
    rcases hes with rfl | rfl <;> simp at hmem
  | @insertVacant c conn auth n e hc ht he hslot =>
    subst he
    by_cases hk : k = auth.clientId
    · exact .inr (.inl ⟨c, n, hk ▸ List.mem_cons_self⟩)
    · exact .inl ⟨(Registry.get_insertEntry ..).trans (if_neg hk), hquiet (by simp)⟩
  | @insertOccupied c conn auth n e old hc ht he hslot =>
    subst he
    by_cases hk : k = auth.clientId
    · exact .inr (.inl ⟨c, n, hk ▸ List.mem_cons_self⟩)
    · exact .inl ⟨(Registry.get_insertEntry ..).trans (if_neg hk), hquiet (by simp)⟩
  | @unregister c conn auth n hc ht =>
    by_cases hk : k = auth.clientId ∧ (s.registry.unregister auth.clientId n).2 = true
    · refine .inr (.inr ⟨(Registry.get_unregister ..).trans (if_pos hk), fun hkept ↦ ?_⟩)
      exact hkept c n (by rw [hk.1, hk.2]; exact List.mem_cons_self)
    · refine .inl ⟨(Registry.get_unregister ..).trans (if_neg hk), fun c₁ n₁ hmem ↦ hk ?_⟩
      obtain ⟨-, rfl, -, hremoved⟩ := Event.unregistered.inj (List.mem_singleton.mp hmem)
      exact ⟨rfl, hremoved.symm⟩

theorem Kept.append (hk : Kept h k) (hk' : Kept h' k) : Kept (h ++ h') k := by
  intro c n hmem
  rcases List.mem_append.mp hmem with hmem | hmem
  · exact hk c n hmem
  · exact hk' c n hmem

/-- The entry of a slot was inserted, and the slot has not been emptied since. -/
theorem inserted_of_entry (hr : (machine serde config routes).Reach h s)
    (he : s.registry.get k = some e) :
    ∃ h₁ mid, h = h₁ ++ .swapped e.handle k e.sessionId :: mid ∧ Kept mid k := by
  refine hr.invariant (P := fun h s ↦ ∀ e, s.registry.get k = some e →
    ∃ h₁ mid, h = h₁ ++ .swapped e.handle k e.sessionId :: mid ∧ Kept mid k)
    (fun e he ↦ by cases he) ?_ e he
  intro h s a t es _ ih hstep e he
  rcases slot_of_step hstep k with ⟨hsame, hkept⟩ | ⟨c, n, hmem⟩ | ⟨hnone, -⟩
  · obtain ⟨h₁, mid, rfl, hmid⟩ := ih e (hsame ▸ he)
    exact ⟨h₁, mid ++ es, by rw [List.append_assoc]; rfl, hmid.append hkept⟩
  · obtain ⟨-, -, ⟨hb, hslot⟩, l, rfl, -, hkept⟩ := insertion_of_step hstep hmem
    rw [hslot, Option.some.injEq] at he
    subst he
    exact ⟨h, l, rfl, fun c₁ n₁ hmem₁ ↦ hkept c₁ n₁ (List.mem_cons_of_mem _ hmem₁)⟩
  · rw [hnone] at he
    cases he

/-! ## Numbers in the order of the draws -/

/-- Who draws before another session gets the lower number. -/
theorem lt_of_drawnBefore (hi : Slots h s) (hn : NumbersFit h) (hd : DrawnBefore h c' n' c n) :
    n' < n := by
  obtain ⟨h₁, h₂, rfl, hmem', hmem⟩ := hd
  have hsorted : ((numberedSessions (h₁ ++ h₂)).map Prod.snd).Pairwise (· < ·) := by
    rw [hi.numbers, List.pairwise_map]
    refine List.pairwise_lt_range.imp_of_mem fun {i j} hi' hj hlt ↦ ?_
    rw [List.mem_range] at hi' hj
    rw [NumbersFit] at hn
    rw [UInt64.lt_iff_toNat_lt, UInt64.toNat_ofNat', UInt64.toNat_ofNat']
    omega
  rw [numberedSessions_append, List.map_append, List.pairwise_append] at hsorted
  exact hsorted.2.2 n' (List.mem_map.mpr ⟨_, numbered_mem.mp hmem', rfl⟩)
    n (List.mem_map.mpr ⟨_, numbered_mem.mp hmem, rfl⟩)

/-- Of two sessions that have drawn, the one with the lower number did so before. -/
theorem drawnBefore_of_lt (hi : Slots h s) (hn : NumbersFit h) (hc' : (c', n') ∈ numberedSessions h)
    (hc : (c, n) ∈ numberedSessions h) (hlt : n' < n) : DrawnBefore h c' n' c n := by
  obtain ⟨h₁, h₂, rfl⟩ := List.append_of_mem (numbered_mem.mpr hc)
  rcases List.mem_append.mp (numbered_mem.mpr hc') with hmem | hmem
  · exact ⟨h₁, _, rfl, hmem, List.mem_cons_self⟩
  · rcases List.mem_cons.mp hmem with heq | hmem
    · obtain ⟨-, rfl⟩ := Event.numbered.inj heq
      exact absurd hlt (UInt64.lt_irrefl n')
    · -- drawn after it, the number would be the higher one
      have hgt : n < n' := lt_of_drawnBefore hi hn
        ⟨h₁ ++ [.numbered c n], h₂, by rw [List.append_assoc]; rfl,
          List.mem_append_right _ List.mem_cons_self, hmem⟩
      exact absurd hlt (UInt64.lt_asymm hgt)

/-! ## Runs -/

/-- The takeovers of a run go to higher numbers. -/
def Upwards (serde : SerdeJson) (config : ServerConfig) (routes : RouteFiles) (as : List Act) :
    Prop :=
  ∀ bs t c k n old, Takeover serde config routes as bs t c k n old → old.sessionId < n

/-- The numbers in a slot grow, as long as the slot is not emptied. -/
def Growing (serde : SerdeJson) (config : ServerConfig) (routes : RouteFiles) (as : List Act) :
    Prop :=
  ∀ bs cs ds t u h₁ h₂ k e, as = bs ++ cs ++ ds →
    (machine serde config routes).run (start routes) bs = some (t, h₁) →
    (machine serde config routes).run t cs = some (u, h₂) → t.registry.get k = some e →
    Kept h₂ k → ∃ e', u.registry.get k = some e' ∧ e.sessionId ≤ e'.sessionId

/-- The sessions that are inserted into a slot before it is emptied come in the order of their
draws. -/
def InTurn (h : List Event) : Prop :=
  ∀ k c' n' c n, InsertedAfter h k c' n' c n → DrawnBefore h c' n' c n

/-- The session in the slot was inserted before, and the slot has been kept. -/
theorem Takeover.insertedAfter {bs : List Act} (hrun : (machine serde config routes).run
    (start routes) as = some (s, h)) (ht : Takeover serde config routes as bs t c k n old) :
    InsertedAfter h k old.handle old.sessionId c n := by
  obtain ⟨⟨cs, rfl⟩, ⟨h₀, hbs⟩, ⟨conn, auth, hc, htask, rfl⟩, hslot⟩ := ht
  obtain ⟨t', h₁, h₂, hbs', hrest, rfl⟩ := Machine.run_append_eq_some.mp hrun
  obtain ⟨rfl, rfl⟩ := Prod.mk.inj (Option.some.inj (hbs'.symm.trans hbs))
  obtain ⟨u, es, h₃, hstep, -, rfl⟩ := Machine.run_cons_eq_some.mp hrest
  have htakeover := step_insertOccupied serde config hc htask hslot
  obtain ⟨-, rfl⟩ := Prod.mk.inj (Option.some.inj (htakeover.symm.trans hstep))
  obtain ⟨h₁, mid, rfl, hkept⟩ := inserted_of_entry (.of_run hbs) hslot
  exact ⟨h₁, mid, _, by rw [List.append_assoc]; rfl, hkept⟩

theorem upwards_of_inTurn (hrun : (machine serde config routes).run (start routes) as = some (s, h))
    (hn : NumbersFit h) (hturn : InTurn h) : Upwards serde config routes as :=
  fun _ _ _ _ _ _ ht ↦
    lt_of_drawnBefore (.of_reach (.of_run hrun) hn) hn (hturn _ _ _ _ _ (ht.insertedAfter hrun))

/-- What takeovers do to a slot one by one, they do to it over a run. -/
theorem growing_of_upwards (hup : Upwards serde config routes as) :
    Growing serde config routes as := by
  intro bs cs
  induction cs generalizing bs with
  | nil =>
    intro ds t u h₁ h₂ k e _ _ hcs he _
    obtain ⟨rfl, -⟩ := Prod.mk.inj (Option.some.inj hcs)
    exact ⟨e, he, UInt64.le_refl _⟩
  | cons a cs ih =>
    rintro ds t u h₁ h₂ k e heq hbs hcs he hkept
    obtain ⟨v, es, h₃, hstep, hrest, rfl⟩ := Machine.run_cons_eq_some.mp hcs
    have hkept₁ : Kept es k := fun c n hmem ↦ hkept c n (List.mem_append_left _ hmem)
    have hkept₂ : Kept h₃ k := fun c n hmem ↦ hkept c n (List.mem_append_right _ hmem)
    obtain ⟨e', he', hle⟩ : ∃ e', v.registry.get k = some e' ∧ e.sessionId ≤ e'.sessionId := by
      rcases slot_of_step hstep k with ⟨hsame, -⟩ | ⟨c, n, hmem⟩ | ⟨-, hnot⟩
      · exact ⟨e, hsame.trans he, UInt64.le_refl _⟩
      · obtain ⟨rfl, hnumbered, ⟨hb, hslot⟩, -⟩ := insertion_of_step hstep hmem
        refine ⟨_, hslot, UInt64.le_of_lt (hup bs t c k n e ⟨⟨cs ++ ds, ?_⟩, ⟨h₁, hbs⟩, hnumbered,
          he⟩)⟩
        rw [heq, List.append_assoc]
        rfl
      · exact absurd hkept₁ hnot
    obtain ⟨e'', he'', hle'⟩ := ih (bs ++ [a]) ds v u _ h₃ k e' (by rw [heq]; simp)
      (Machine.run_trans hbs (Machine.run_singleton hstep)) hrest he' hkept₂
    exact ⟨e'', he'', UInt64.le_trans hle hle'⟩

/-- A session that is inserted has drawn its number, and has not been inserted before. -/
theorem drawn_of_numbered (hr : (machine serde config routes).Reach h s) (hn : NumbersFit h)
    (hnumbered : ∃ conn auth, s.conns c = some conn ∧ conn.task = .numbered auth n ∧
      auth.clientId = k) :
    (c, n) ∈ numberedSessions h ∧ ∀ n', .swapped c k n' ∉ h := by
  obtain ⟨conn, auth, hc, ht, rfl⟩ := hnumbered
  have hi : Slots h s := .of_reach hr hn
  refine ⟨hi.own c conn n hc (by rw [ht]; rfl), fun n' hmem ↦ ?_⟩
  exact hi.not_claimed hc (by rw [ht]; rfl) (by simp [ht]) auth.clientId
    (claim_mem_sessionOps.mpr ⟨n', hmem⟩)

theorem inTurn_of_growing (hrun : (machine serde config routes).run (start routes) as = some (s, h))
    (hn : NumbersFit h) (hgrow : Growing serde config routes as) : InTurn h := by
  rintro k c' n' c n ⟨h₁, mid, h₂, rfl, hkept⟩
  -- the run is split at both insertions
  obtain ⟨bs, a, cs, h₀, v, es₁, es₂, w, h₃, rfl, hbs, hstep, hcs, rfl, heq⟩ :=
    Machine.run_split hrun
  obtain ⟨rfl, hes₂, hkept₂⟩ := insertion_split hstep
  obtain ⟨mid', rfl, rfl⟩ : ∃ mid', mid = es₂ ++ mid' ∧ h₃ = mid' ++ .swapped c k n :: h₂ := by
    rcases List.append_eq_append_iff.mp heq with ⟨l, hl, hl'⟩ | ⟨l, hl, hl'⟩
    · cases l with
      | nil => exact ⟨[], by rw [hl, List.append_nil, List.append_nil], hl'.symm⟩
      | cons e l =>
        obtain ⟨rfl, -⟩ := List.cons.inj hl'
        exact absurd (hl ▸ List.mem_append_right _ List.mem_cons_self) (hes₂ c k n)
    · exact ⟨l, hl, hl'⟩
  obtain ⟨bs', a', cs', h₀', v', es₁', es₂', w', h₄, rfl, hbs', hstep', hcs', rfl, -⟩ :=
    Machine.run_split hcs
  obtain ⟨rfl, hes₂', hkept₂'⟩ := insertion_split hstep'
  obtain ⟨-, hnumbered', ⟨hb', hslot'⟩, -⟩ := insertion_of_step hstep List.mem_cons_self
  obtain ⟨-, hnumbered, ⟨hb, hslot⟩, -, -, -, hkeptc⟩ :=
    insertion_of_step hstep' List.mem_cons_self
  -- in between the number in the slot has not become less
  have hw := Machine.run_trans hbs (Machine.run_singleton hstep)
  have hw' := Machine.run_trans hbs' (Machine.run_singleton hstep')
  have hkept₁ : Kept h₀' k := fun c₁ n₁ hmem ↦
    hkept c₁ n₁ (List.mem_append_right _ (List.mem_append_left _ hmem))
  obtain ⟨e, he, hle⟩ := hgrow (bs ++ [a]) (bs' ++ [a']) cs' w w' _ _ k _ (by simp) hw hw' hslot'
    (hkept₁.append hkeptc)
  obtain rfl := Option.some.inj (hslot.symm.trans he)
  -- both have drawn before the second insertion, and they are not the same session
  set past := h₀ ++ ([] ++ .swapped c' k n' :: es₂) ++ h₀' with hpast
  have hwhole : h₀ ++ [] ++ .swapped c' k n' :: (es₂ ++ (h₀' ++ []) ++ .swapped c k n :: h₂) =
      past ++ .swapped c k n :: h₂ := by simp [hpast]
  rw [hwhole] at hn hrun ⊢
  obtain ⟨hdrawn', -⟩ := drawn_of_numbered (.of_run hbs)
    (hn.of_append.of_append.of_append) hnumbered'
  obtain ⟨hdrawn, hnew⟩ := drawn_of_numbered (.of_run (Machine.run_trans hw hbs'))
    hn.of_append hnumbered
  replace hdrawn' : (c', n') ∈ numberedSessions past := by
    rw [hpast, numberedSessions_append, numberedSessions_append]
    exact List.mem_append_left _ (List.mem_append_left _ hdrawn')
  have hi : Slots past v' := .of_reach (.of_run (Machine.run_trans hw hbs')) hn.of_append
  have hne : n' ≠ n := by
    rintro rfl
    obtain rfl := hi.unique hn.of_append hdrawn' hdrawn
    exact hnew n' (by simp)
  obtain ⟨h₅, h₆, heq, hmem', hmem⟩ :=
    drawnBefore_of_lt hi hn.of_append hdrawn' hdrawn (UInt64.lt_of_le_of_ne hle hne)
  exact ⟨h₅, h₆ ++ .swapped c k n :: h₂, by rw [heq, List.append_assoc], hmem',
    List.mem_append_left _ hmem⟩

/-! ## The order -/

/-- **The order of takeovers.** In a run with fewer than 2⁶⁴ sessions, a takeover gives the slot to
the session that comes last, and aborts the one that was there, and no other. It is always from a
lower number to a higher one exactly if the numbers in a slot only grow until it is emptied, and
exactly if sessions that are inserted into a slot before it is emptied have drawn in that order. -/
theorem takeover_order (serde : SerdeJson) (config : ServerConfig) (routes : RouteFiles)
    (as : List Act) (s : State) (h : List Event)
    (hrun : (machine serde config routes).run (start routes) as = some (s, h))
    (hn : NumbersFit h) :
    (∀ bs t c k n old, Takeover serde config routes as bs t c k n old → ∃ u hb,
      step serde config t (.insertEntry c) = some (u, [.swapped c k n, .aborted old.handle]) ∧
      u.registry.get k = some ⟨k, n, c, hb⟩ ∧
      (∀ k', k' ≠ k → u.registry.get k' = t.registry.get k') ∧
      ∀ c', c' ≠ c → c' ≠ old.handle → u.conns c' = t.conns c') ∧
    [Upwards serde config routes as, Growing serde config routes as, InTurn h].TFAE := by
  constructor
  · rintro bs t c k n old ⟨-, -, ⟨conn, auth, hc, htask, rfl⟩, hslot⟩
    refine ⟨_, _, step_insertOccupied serde config hc htask hslot,
      (Registry.get_insertEntry ..).trans (if_pos rfl),
      fun k' hk' ↦ (Registry.get_insertEntry ..).trans (if_neg hk'), fun c' hc' hold ↦ ?_⟩
    rw [abortDriver_conns, if_neg hold, setConn_of_ne hc' _ _]
  · tfae_have 1 → 2 := growing_of_upwards
    tfae_have 2 → 3 := inTurn_of_growing hrun hn
    tfae_have 3 → 1 := upwards_of_inTurn hrun hn
    tfae_finish

/-- Two sessions draw, and insert in that order. -/
def inTurnRun : List Act := numberSegments 0 ++ numberSegments 1 ++ [.insertEntry 0, .insertEntry 1]

/-- The sessions that were inserted, in order. -/
def insertions (h : List Event) : List (ConnId × UInt64) :=
  h.filterMap fun | .swapped c _ n => some (c, n) | _ => none

theorem InsertedAfter.sublist (ha : InsertedAfter h k c' n' c n) :
    [(c', n'), (c, n)].Sublist (insertions h) := by
  obtain ⟨h₁, mid, h₂, rfl, -⟩ := ha
  have hsub : [Event.swapped c' k n', .swapped c k n].Sublist
      (h₁ ++ .swapped c' k n' :: (mid ++ .swapped c k n :: h₂)) := by
    refine List.Sublist.trans ?_ (List.sublist_append_right h₁ _)
    refine List.Sublist.cons_cons _ (List.Sublist.trans ?_ (List.sublist_append_right mid _))
    exact List.singleton_sublist.mpr List.mem_cons_self
  exact hsub.filterMap fun | .swapped c _ n => some (c, n) | _ => none

/-- The second session takes over from the first one, and the number in the slot grows. -/
theorem takeover_order_in_turn : ∃ s h,
    (machine compactSerde sampleConfig fun _ ↦ none).run (start fun _ ↦ none) inTurnRun =
      some (s, h) ∧
    s.registry.get "app" = some ⟨"app", 2, 1, true⟩ ∧
    Growing compactSerde sampleConfig (fun _ ↦ none) inTurnRun := by
  have hrun : ((machine compactSerde sampleConfig fun _ ↦ none).run (start fun _ ↦ none)
      inTurnRun).map (fun p ↦ (p.1.registry.get "app", numberedSessions p.2, insertions p.2)) =
      some (some ⟨"app", 2, 1, true⟩, [(0, 1), (1, 2)], [(0, 1), (1, 2)]) := by
    decide +kernel
  obtain ⟨⟨s, h⟩, hsh, heq⟩ := Option.map_eq_some_iff.mp hrun
  simp only [Prod.mk.injEq] at heq
  obtain ⟨hslot, hnumbered, hinserted⟩ := heq
  have hn : NumbersFit h := by
    rw [NumbersFit, hnumbered]
    decide
  refine ⟨s, h, hsh, hslot, ((takeover_order _ _ _ _ s h hsh hn).2.out 2 1).mp ?_⟩
  intro k c' n' c n ha
  have hsub := ha.sublist
  rw [hinserted] at hsub
  have hpair := hsub.eq_of_length rfl
  simp only [List.cons.injEq, Prod.mk.injEq, and_true] at hpair
  obtain ⟨⟨rfl, rfl⟩, rfl, rfl⟩ := hpair
  exact drawnBefore_of_lt (.of_reach (.of_run hsh) hn) hn (by simp [hnumbered])
    (by simp [hnumbered]) (by decide)

/-- The first of two sessions to draw is the last one to insert. -/
def overtakenRun : List Act :=
  numberSegments 0 ++ numberSegments 1 ++ [.insertEntry 1, .insertEntry 0]

/-- **A session with a higher number is replaced**: it has drawn after the one that takes over. -/
theorem newer_session_replaced : ¬∀ (serde : SerdeJson) (config : ServerConfig)
    (routes : RouteFiles) (as : List Act) (s : State) (h : List Event),
    (machine serde config routes).run (start routes) as = some (s, h) → NumbersFit h →
      ∀ bs t c k n old, Takeover serde config routes as bs t c k n old → ¬n < old.sessionId := by
  intro hclaim
  have hrun : ((machine compactSerde sampleConfig fun _ ↦ none).run (start fun _ ↦ none)
      overtakenRun).map (fun p ↦ numberedSessions p.2) = some [(0, 1), (1, 2)] := by
    decide +kernel
  have hbefore : ((machine compactSerde sampleConfig fun _ ↦ none).run (start fun _ ↦ none)
      (numberSegments 0 ++ numberSegments 1 ++ [.insertEntry 1])).map
      (fun p ↦ (p.1.registry.get "app", (p.1.conns 0).map (·.task))) =
      some (some ⟨"app", 2, 1, true⟩, some (.numbered appAuth 1)) := by decide +kernel
  obtain ⟨⟨s, h⟩, hsh, hnumbered⟩ := Option.map_eq_some_iff.mp hrun
  obtain ⟨⟨t, h₁⟩, ht, heq⟩ := Option.map_eq_some_iff.mp hbefore
  obtain ⟨hslot, htask⟩ := Prod.mk.inj heq
  obtain ⟨conn, hc, htask⟩ := Option.map_eq_some_iff.mp htask
  have hn : NumbersFit h := by
    rw [NumbersFit, hnumbered]
    decide
  have htakeover : Takeover compactSerde sampleConfig (fun _ ↦ none) overtakenRun
      (numberSegments 0 ++ numberSegments 1 ++ [.insertEntry 1]) t 0 "app" 1
      ⟨"app", 2, 1, true⟩ :=
    ⟨⟨[], by rw [overtakenRun, List.append_assoc]; rfl⟩, ⟨h₁, ht⟩, ⟨conn, appAuth, hc, htask, rfl⟩,
      hslot⟩
  exact hclaim _ _ _ _ s h hsh hn _ _ _ _ _ _ htakeover (by decide)

end Control

end ZoTunnel
