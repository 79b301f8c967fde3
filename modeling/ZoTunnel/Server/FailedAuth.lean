import Mathlib.Data.Set.Card
import ZoTunnel.Server.Admission

/-!
# Counting the guesses

A connection whose `AuthReq` has an invalid token is told so, and counted in `failed_auth`. The
count comes after the answer, and a write that fails ends `handle_client` before it. So a peer that
closes the connection in time guesses without being counted (`failed_auth_uncounted`).

Those whose answer was written are counted one by one (`FailedAuth.counted`). The metric is right
exactly as long as no answer to an invalid token has failed to be written, and the counter has not
gone round (`failed_auth_iff`).
-/

namespace ZoTunnel

namespace Control

/-- The request of a task whose token is invalid and that is not over. -/
def Task.denied : Task → Option AuthReq
  | .rejecting auth | .rejected auth => some auth
  | _ => none

variable (serde : SerdeJson) (config : ServerConfig)

/-- The first frame has an invalid token. -/
def WrongToken (conn : Conn) : Prop :=
  ∃ auth, FirstFrame serde conn auth ∧ config.validateToken auth.token = false

/-- `handle_client` is done with a first frame that has an invalid token: the failure is counted, or
the answer could not be written. -/
def Guessed (s : State) (c : ConnId) : Prop :=
  ∃ conn, s.conns c = some conn ∧ WrongToken serde config conn ∧
    (conn.task = .done .invalidToken ∨ conn.task = .done .writeFailed)

/-- The failure is counted. -/
def Counted (s : State) (c : ConnId) : Prop :=
  ∃ conn, s.conns c = some conn ∧ conn.task = .done .invalidToken

/-- What is known of a connection while its token is invalid, and once that is counted. -/
structure DeniedInv (conn : Conn) : Prop where
  denied : ∀ auth, conn.task.denied = some auth →
    FirstFrame serde conn auth ∧ config.validateToken auth.token = false
  counted : conn.task = .done .invalidToken → WrongToken serde config conn

variable {serde config} {routes : RouteFiles} {h : List Event} {s t : State} {a : Act}
  {es : List Event} {c : ConnId} {conn : Conn} {auth : AuthReq}

/-! ## The token -/

theorem denied_onFirstFrame {r : Except ProtocolError Message}
    (h : (onFirstFrame config r).denied = some auth) :
    r = .ok (.authReq auth) ∧ config.validateToken auth.token = false := by
  rcases r with e | m
  · cases h
  cases m with
  | authReq auth' =>
    rw [onFirstFrame] at h
    split at h
    · cases h
    · rename_i hinvalid
      obtain rfl := Option.some.inj h
      exact ⟨rfl, Bool.eq_false_iff.mpr hinvalid⟩
  | _ => cases h

theorem onFirstFrame_ne_invalidToken {r : Except ProtocolError Message} :
    onFirstFrame config r ≠ .done .invalidToken := by
  rcases r with e | m
  · exact fun h ↦ by cases h
  cases m with
  | authReq auth' =>
    rw [onFirstFrame]
    split <;> exact fun h ↦ by cases h
  | _ => exact fun h ↦ by cases h

namespace DeniedInv

/-- A task with a valid token, or with none so far, or that is over. -/
theorem of_task (hd : conn.task.denied = none) (hc : conn.task ≠ .done .invalidToken) :
    DeniedInv serde config conn where
  denied auth h := by
    rw [hd] at h
    cases h
  counted h := absurd h hc

/-- The task and what the peer has sent are all that matters. -/
theorem congr {conn' : Conn} (hi : DeniedInv serde config conn) (ht : conn'.task = conn.task)
    (hin : conn'.inbound = conn.inbound) : DeniedInv serde config conn' := by
  obtain ⟨inbound', closed', outbound', task', driver'⟩ := conn'
  obtain rfl : inbound' = conn.inbound := hin
  obtain rfl : task' = conn.task := ht
  exact ⟨hi.denied, hi.counted⟩

theorem recv (hi : DeniedInv serde config conn) (bs : Bytes) :
    DeniedInv serde config { conn with inbound := conn.inbound ++ bs } where
  denied auth h := ⟨(hi.denied auth h).1.append bs, (hi.denied auth h).2⟩
  counted h := by
    obtain ⟨auth, hfirst, hinvalid⟩ := hi.counted h
    exact ⟨auth, hfirst.append bs, hinvalid⟩

theorem read (conn : Conn) : DeniedInv serde config
    { conn with task := onFirstFrame config (readMessage serde conn.inbound).1 } where
  denied auth h := by
    obtain ⟨hread, hinvalid⟩ := denied_onFirstFrame h
    exact ⟨⟨_, Prod.ext hread rfl⟩, hinvalid⟩
  counted h := absurd h onFirstFrame_ne_invalidToken

theorem answer (hi : DeniedInv serde config conn) {res : AuthRes} {task : Task} {bs : Bytes}
    (hans : Control.answer config conn.task = some (res, task)) :
    DeniedInv serde config { conn with outbound := bs, task } := by
  rcases answer_eq_some hans with ⟨auth, ht, rfl, rfl⟩ | ⟨auth, ht, rfl, rfl⟩
  · exact .of_task rfl fun h ↦ by cases h
  · refine ⟨fun auth' h ↦ ?_, fun h ↦ by cases h⟩
    obtain rfl := Option.some.inj h
    exact hi.denied auth (by rw [ht]; rfl)

theorem count (hi : DeniedInv serde config conn) (ht : conn.task = .rejected auth) :
    DeniedInv serde config { conn with task := .done .invalidToken } where
  denied auth h := by cases h
  counted _ := ⟨auth, hi.denied auth (by rw [ht]; rfl)⟩

end DeniedInv

theorem deniedInv_of_step
    (hi : ∀ c conn, s.conns c = some conn → DeniedInv serde config conn)
    (hstep : step serde config s a = some (t, es)) :
    ∀ c conn, t.conns c = some conn → DeniedInv serde config conn := by
  have hset : ∀ {s₀ : State} {c : ConnId} {conn' : Conn}, s₀.conns = s.conns →
      DeniedInv serde config conn' →
      ∀ c' conn, (s₀.setConn c conn').conns c' = some conn → DeniedInv serde config conn := by
    intro s₀ c conn' hconns hconn c' conn hc'
    rw [setConn_conns] at hc'
    split at hc'
    · exact Option.some.inj hc' ▸ hconn
    · exact hi c' conn (hconns ▸ hc')
  have habort : ∀ {s₀ : State} {o : ConnId},
      (∀ c conn, s₀.conns c = some conn → DeniedInv serde config conn) →
      ∀ c conn, (s₀.abortDriver o).conns c = some conn → DeniedInv serde config conn := by
    intro s₀ o hi₀ c conn hc
    obtain ⟨conn₀, d, hc₀, rfl⟩ := exists_of_abortDriver hc
    exact (hi₀ c conn₀ hc₀).congr rfl rfl
  cases step_transition hstep with
  | accept => exact hset rfl (.of_task rfl fun h ↦ by cases h)
  | recv hc => exact hset rfl ((hi _ _ hc).recv _)
  | peerClose hc | driver hc => exact hset rfl ((hi _ _ hc).congr rfl rfl)
  | readFrame => exact hset rfl (.read _)
  | readEnds hc ht ha =>
    rcases ha with ⟨-, rfl⟩ | ⟨-, rfl⟩ <;> exact hset rfl (.of_task rfl fun h ↦ by cases h)
  | answered hc hans => exact hset rfl ((hi _ _ hc).answer hans)
  | countFailed hc ht => exact hset rfl ((hi _ _ hc).count ht)
  | readRoute hc ht htask =>
    rcases htask with rfl | rfl <;> exact hset rfl (.of_task rfl fun h ↦ by cases h)
  | writeEnds | spawnDriver | refuse | check | fetchSession | insertVacant | writeRoute | join
  | unregister => exact hset rfl (.of_task rfl fun h ↦ by cases h)
  | insertOccupied | abortOwn => exact habort (hset rfl (.of_task rfl fun h ↦ by cases h))

/-! ## The count -/

theorem counted_iff (hc : s.conns c = some conn) :
    Counted s c ↔ conn.task = .done .invalidToken := by
  constructor
  · rintro ⟨conn', hc', ht⟩
    rw [hc, Option.some.injEq] at hc'
    rw [hc', ht]
  · exact fun ht ↦ ⟨conn, hc, ht⟩

theorem counted_setConn {s₀ : State} (hconns : s₀.conns = s.conns) (conn' : Conn) (c' : ConnId) :
    Counted (s₀.setConn c conn') c' ↔
      if c' = c then conn'.task = .done .invalidToken else Counted s c' := by
  by_cases hcc : c' = c
  · subst hcc
    rw [if_pos rfl, counted_iff (setConn_self ..)]
  · rw [if_neg hcc, Counted, Counted, setConn_of_ne hcc, hconns]

theorem counted_abortDriver (o : ConnId) : Counted (s.abortDriver o) c ↔ Counted s c := by
  constructor
  · rintro ⟨conn, hc, ht⟩
    obtain ⟨conn₀, d, hc₀, rfl⟩ := exists_of_abortDriver hc
    exact ⟨conn₀, hc₀, ht⟩
  · rintro ⟨conn, hc, ht⟩
    obtain ⟨d, hd⟩ := abortDriver_of_some (o := o) hc
    exact ⟨_, hd, ht⟩

/-- A step that does not count leaves those that are counted. -/
private theorem counted_of_step (hstep : step serde config s a = some (t, es))
    (ha : ∀ c, a ≠ .countFailed c) (c' : ConnId) : Counted t c' ↔ Counted s c' := by
  have hset : ∀ {s₀ : State} {c : ConnId} {conn conn' : Conn}, s₀.conns = s.conns →
      s.conns c = some conn → (conn'.task = .done .invalidToken ↔ conn.task = .done .invalidToken) →
      (Counted (s₀.setConn c conn') c' ↔ Counted s c') := by
    intro s₀ c conn conn' hconns hc ht
    rw [counted_setConn hconns]
    split
    · rename_i hcc
      rw [ht, hcc, counted_iff hc]
    · rfl
  -- No other action takes a task to its end with an invalid token, or away from it.
  have hsame : ∀ {x y : Task}, x ≠ .done .invalidToken → y ≠ .done .invalidToken →
      (x = .done .invalidToken ↔ y = .done .invalidToken) :=
    fun hx hy ↦ ⟨fun h ↦ absurd h hx, fun h ↦ absurd h hy⟩
  cases step_transition hstep with
  | @accept c m hc =>
    rw [counted_setConn rfl]
    split
    · rename_i hcc
      subst hcc
      refine ⟨fun h ↦ (by cases h), ?_⟩
      rintro ⟨conn, hc', -⟩
      rw [hc] at hc'
      cases hc'
    · rfl
  | recv hc | peerClose hc | driver hc => exact hset rfl hc Iff.rfl
  | countFailed => exact absurd rfl (ha _)
  | readFrame hc ht =>
    exact hset rfl hc (hsame onFirstFrame_ne_invalidToken (by rw [ht]; exact fun h ↦ by cases h))
  | readEnds hc ht ho =>
    refine hset rfl hc (hsame ?_ (by rw [ht]; exact fun h ↦ by cases h))
    rcases ho with ⟨-, rfl⟩ | ⟨-, rfl⟩ <;> exact fun h ↦ by cases h
  | answered hc hans =>
    rcases answer_eq_some hans with ⟨auth, ht, -, rfl⟩ | ⟨auth, ht, -, rfl⟩ <;>
      exact hset rfl hc (hsame (fun h ↦ by cases h) (by rw [ht]; exact fun h ↦ by cases h))
  | writeEnds hc hans =>
    rcases answer_eq_some hans with ⟨auth, ht, -, -⟩ | ⟨auth, ht, -, -⟩ <;>
      exact hset rfl hc (hsame (fun h ↦ by cases h) (by rw [ht]; exact fun h ↦ by cases h))
  | readRoute hc ht htask =>
    refine hset rfl hc (hsame ?_ (by rw [ht]; exact fun h ↦ by cases h))
    rcases htask with rfl | rfl <;> exact fun h ↦ by cases h
  | spawnDriver hc ht | refuse hc ht | check hc ht | fetchSession hc ht | insertVacant hc ht
  | writeRoute hc ht | join hc ht | unregister hc ht =>
    exact hset rfl hc (hsame (fun h ↦ by cases h) (by rw [ht]; exact fun h ↦ by cases h))
  | insertOccupied hc ht | abortOwn hc ht =>
    rw [counted_abortDriver]
    exact hset rfl hc (hsame (fun h ↦ by cases h) (by rw [ht]; exact fun h ↦ by cases h))

private theorem failedAuth_of_step (hstep : step serde config s a = some (t, es))
    (ha : ∀ c, a ≠ .countFailed c) : t.metrics.failedAuth = s.metrics.failedAuth := by
  cases step_transition hstep with
  | @accept c m hc =>
    rw [step, Act.conn, hc] at hstep
    obtain ⟨heq, -⟩ := Prod.mk.inj (Option.some.inj hstep)
    rw [← heq]
    rfl
  | countFailed => exact absurd rfl (ha _)
  | _ => rfl

/-- The step that counts: one more is counted, and the metric goes up by one. -/
private theorem countFailed_spec (hstep : step serde config s (.countFailed c) = some (t, es)) :
    ¬Counted s c ∧ (∀ c', Counted t c' ↔ c' = c ∨ Counted s c') ∧
      t.metrics.failedAuth = s.metrics.failedAuth + 1 := by
  cases hc : s.conns c with
  | none => simp [step, Act.conn, hc] at hstep
  | some conn =>
    simp only [step, Act.conn, hc, taskStep] at hstep
    split at hstep
    · rename_i auth ht
      obtain ⟨rfl, -⟩ := Prod.mk.inj (Option.some.inj hstep)
      refine ⟨fun h ↦ ?_, fun c' ↦ ?_, rfl⟩
      · rw [counted_iff hc, ht] at h
        cases h
      · rw [counted_setConn rfl]
        split
        · rename_i hcc
          exact ⟨fun _ ↦ .inl hcc, fun _ ↦ rfl⟩
        · rename_i hcc
          exact (or_iff_right hcc).symm
    · cases hstep

variable (serde config) in
/-- The invariant of the metric. -/
structure FailedAuth (s : State) : Prop where
  denied : ∀ c conn, s.conns c = some conn → DeniedInv serde config conn
  finite : {c | s.conns c ≠ none}.Finite
  counted : s.metrics.failedAuth = .ofNat {c | Counted s c}.ncard

theorem finite_counted (hi : FailedAuth serde config s) : {c | Counted s c}.Finite := by
  refine hi.finite.subset ?_
  rintro c ⟨conn, hc, -⟩
  exact fun hnone ↦ Option.some_ne_none conn (hc.symm.trans hnone)

theorem FailedAuth.start : FailedAuth serde config (start routes) where
  denied c conn hc := by cases hc
  finite := by
    have hempty : {c | (Control.start routes).conns c ≠ none} = ∅ :=
      Set.eq_empty_of_forall_notMem fun c hc ↦ hc rfl
    rw [hempty]
    exact Set.finite_empty
  counted := by
    have hempty : {c | Counted (Control.start routes) c} = ∅ := by
      refine Set.eq_empty_of_forall_notMem ?_
      rintro c ⟨conn, hc, -⟩
      cases hc
    rw [hempty, Set.ncard_empty]
    rfl

theorem FailedAuth.step (hi : FailedAuth serde config s)
    (hstep : Control.step serde config s a = some (t, es)) : FailedAuth serde config t where
  denied := deniedInv_of_step hi.denied hstep
  finite := by
    refine (hi.finite.insert a.conn).subset fun c hc ↦ ?_
    obtain ⟨conn, hc⟩ := Option.ne_none_iff_exists'.mp hc
    by_cases hca : c = a.conn
    · exact .inl hca
    · rcases conn_of_step hstep hc with ⟨hnone, -⟩ | ⟨conn₀, hc₀, -⟩
      · obtain ⟨conn', o, ds, hm, -⟩ := step_conns hstep
        rw [hm.conns, if_neg hca, hnone] at hc
        split at hc <;> cases hc
      · exact .inr fun hnone ↦ Option.some_ne_none conn₀ (hc₀.symm.trans hnone)
  counted := by
    by_cases ha : ∃ c, a = .countFailed c
    · obtain ⟨c, rfl⟩ := ha
      obtain ⟨hnot, hcounted, hmetric⟩ := countFailed_spec hstep
      have hinsert : {c' | Counted t c'} = insert c {c' | Counted s c'} := Set.ext hcounted
      have hcard : (insert c {c' | Counted s c'}).ncard = {c' | Counted s c'}.ncard + 1 :=
        Set.ncard_insert_of_notMem (by exact hnot) (finite_counted hi)
      rw [hmetric, hinsert, hcard, hi.counted, UInt64.ofNat_add]
      rfl
    · rw [not_exists] at ha
      have hsame : {c | Counted t c} = {c | Counted s c} := Set.ext (counted_of_step hstep ha)
      rw [failedAuth_of_step hstep ha, hsame, hi.counted]

theorem FailedAuth.of_reach (hr : (machine serde config routes).Reach h s) :
    FailedAuth serde config s :=
  hr.invariant (P := fun _ s ↦ FailedAuth serde config s) .start
    fun _ _ _ _ _ _ hi hstep ↦ hi.step hstep

/-! ## When it is right -/

/-- Those who have guessed are counted, or their answer could not be written. -/
theorem guessed_iff (hi : FailedAuth serde config s) (c : ConnId) : Guessed serde config s c ↔
    Counted s c ∨ ∃ conn, s.conns c = some conn ∧ WrongToken serde config conn ∧
      conn.task = .done .writeFailed := by
  constructor
  · rintro ⟨conn, hc, hwrong, ht | ht⟩
    · exact .inl ⟨conn, hc, ht⟩
    · exact .inr ⟨conn, hc, hwrong, ht⟩
  · rintro (⟨conn, hc, ht⟩ | ⟨conn, hc, hwrong, ht⟩)
    · exact ⟨conn, hc, (hi.denied c conn hc).counted ht, .inl ht⟩
    · exact ⟨conn, hc, hwrong, .inr ht⟩

theorem finite_guessed (hi : FailedAuth serde config s) :
    {c | Guessed serde config s c}.Finite := by
  refine hi.finite.subset ?_
  rintro c ⟨conn, hc, -⟩
  exact fun hnone ↦ Option.some_ne_none conn (hc.symm.trans hnone)

/-- **The metric of failed authentications**, in every reachable state, is the number of guesses
exactly if the answer to none of them has failed to be written, and they fit into the counter. -/
theorem failed_auth_iff (serde : SerdeJson) (config : ServerConfig) (routes : RouteFiles)
    (h : List Event) (s : State) (hr : (machine serde config routes).Reach h s) :
    s.metrics.failedAuth.toNat = {c | Guessed serde config s c}.ncard ↔
      {c | Guessed serde config s c}.ncard < 2 ^ 64 ∧
        ∀ c, Guessed serde config s c → ∀ conn, s.conns c = some conn →
          conn.task ≠ .done .writeFailed := by
  have hi : FailedAuth serde config s := .of_reach hr
  have hsub : {c | Counted s c} ⊆ {c | Guessed serde config s c} :=
    fun c hc ↦ (guessed_iff hi c).mpr (.inl hc)
  have hle := Set.ncard_le_ncard hsub (finite_guessed hi)
  have hmetric : s.metrics.failedAuth.toNat = {c | Counted s c}.ncard % 2 ^ 64 := by
    rw [hi.counted, UInt64.toNat_ofNat']
  constructor
  · intro heq
    have hmod := Nat.mod_le {c | Counted s c}.ncard (2 ^ 64)
    have hlt := s.metrics.failedAuth.toNat_lt
    refine ⟨heq ▸ hlt, fun c hc conn hconn ht ↦ ?_⟩
    -- Then all of them are counted, and this one is not.
    have hall := Set.eq_of_subset_of_ncard_le hsub (by omega) (finite_guessed hi)
    have hcounted : Counted s c := by
      have hmem : c ∈ {c | Guessed serde config s c} := hc
      rwa [← hall] at hmem
    rw [counted_iff hconn, ht] at hcounted
    cases hcounted
  · rintro ⟨hlt, hwritten⟩
    have hall : {c | Counted s c} = {c | Guessed serde config s c} := by
      refine Set.Subset.antisymm hsub fun c hc ↦ ?_
      rcases (guessed_iff hi c).mp hc with hcounted | ⟨conn, hconn, -, ht⟩
      · exact hcounted
      · exact absurd ht (hwritten c hc conn hconn)
    rw [hmetric, hall, Nat.mod_eq_of_lt hlt]

/-- One wrong token, and the answer is written. -/
theorem failed_auth_iff_counted : ∃ h s,
    (machine compactSerde sampleConfig fun _ ↦ none).run (Control.start fun _ ↦ none)
      (answerSegments 0 ⟨"app", "x", some "1"⟩ ++ [.countFailed 0]) = some (s, h) ∧
    s.metrics.failedAuth = 1 ∧
    (s.metrics.failedAuth.toNat = {c | Guessed compactSerde sampleConfig s c}.ncard ↔
      {c | Guessed compactSerde sampleConfig s c}.ncard < 2 ^ 64 ∧
        ∀ c, Guessed compactSerde sampleConfig s c → ∀ conn, s.conns c = some conn →
          conn.task ≠ .done .writeFailed) := by
  have hrun : ((machine compactSerde sampleConfig fun _ ↦ none).run (Control.start fun _ ↦ none)
      (answerSegments 0 ⟨"app", "x", some "1"⟩ ++ [.countFailed 0])).map
      (fun p ↦ p.1.metrics.failedAuth) = some 1 := by decide +kernel
  obtain ⟨⟨s, h⟩, hsh, hfailed⟩ := Option.map_eq_some_iff.mp hrun
  exact ⟨h, s, hsh, hfailed, failed_auth_iff _ _ (fun _ ↦ none) h s (.of_run hsh)⟩

/-- **A guess that is not counted.** The peer is gone before the answer is written. -/
theorem failed_auth_uncounted : ¬∀ (serde : SerdeJson) (config : ServerConfig)
    (routes : RouteFiles) (h : List Event) (s : State), (machine serde config routes).Reach h s →
      s.metrics.failedAuth.toNat = {c | Guessed serde config s c}.ncard := by
  intro hclaim
  have hrun : ((machine compactSerde sampleConfig fun _ ↦ none).run (Control.start fun _ ↦ none)
      [.accept 0, .recv 0 (authFrame ⟨"app", "x", some "1"⟩), .readFrame 0, .peerClose 0,
        .writeFail 0 0]).map (fun p ↦ (p.1.metrics.failedAuth, (p.1.conns 0).map fun conn ↦
          (conn.task, (readMessage compactSerde conn.inbound).1.toOption))) =
      some (0, some (.done .writeFailed, some (.authReq ⟨"app", "x", some "1"⟩))) := by
    decide +kernel
  obtain ⟨⟨s, h⟩, hsh, heq⟩ := Option.map_eq_some_iff.mp hrun
  obtain ⟨hfailed, hconn⟩ := Prod.mk.inj heq
  obtain ⟨conn, hc, hpair⟩ := Option.map_eq_some_iff.mp hconn
  obtain ⟨ht, hmessage⟩ := Prod.mk.inj hpair
  have hreach := Machine.Reach.of_run hsh
  have hguessed : Guessed compactSerde sampleConfig s 0 := by
    refine ⟨conn, hc, ⟨⟨"app", "x", some "1"⟩, ⟨_, Prod.ext ?_ rfl⟩, by decide⟩, .inr ht⟩
    rcases hread : (readMessage compactSerde conn.inbound).1 with e | m
    · rw [hread] at hmessage
      cases hmessage
    · rw [hread] at hmessage
      rw [Option.some.inj hmessage]
  have hcard := hclaim _ _ _ h s hreach
  rw [hfailed] at hcard
  have hempty := (Set.ncard_eq_zero (finite_guessed (.of_reach hreach))).mp hcard.symm
  exact Set.notMem_empty 0 (hempty ▸ hguessed)

end Control

end ZoTunnel
