import ZoTunnel.Server.Control

/-!
# Admission

The authentication gate, over every byte sequence and every mix of connections.

A task that is past the token check carries the `AuthReq` it checked. The invariant of a connection
says what such a task has behind it: the first frame of everything the peer has sent so far decodes
to that `AuthReq`, the token is valid, the answer has been written in full, the id is not reserved.
Bytes that arrive later do not change what the first frame is. What holds of a registry entry
follows, since the task of its connection is past all of these points.
-/

namespace ZoTunnel

namespace Control

/-! ## How far a task has come -/

namespace Task

/-- The request of a task whose token was valid and that is not over. -/
def admitted : Task → Option AuthReq
  | accepting auth | accepted auth | registering auth | checked auth | numbered auth _
  | refused auth | registered auth _ | routing auth _ | serving auth _ | leaving auth _ => some auth
  | reading | rejecting _ | rejected _ | done _ => none

/-- The request of a task that has written its successful answer. -/
def answered : Task → Option AuthReq
  | accepted auth | registering auth | checked auth | numbered auth _
  | refused auth | registered auth _ | routing auth _ | serving auth _ | leaving auth _ => some auth
  | reading | rejecting _ | rejected _ | accepting _ | done _ => none

/-- The request of a task whose id has passed the check of `register`. -/
def unreserved : Task → Option AuthReq
  | checked auth | numbered auth _ | registered auth _ | routing auth _ | serving auth _
  | leaving auth _ => some auth
  | reading | rejecting _ | rejected _ | accepting _ | accepted _ | registering _ | refused _
  | done _ => none

/-- The request and the session number of a task that has swapped its entry in and has not run
`unregister`. -/
def held : Task → Option (AuthReq × UInt64)
  | registered auth sessionId | routing auth sessionId | serving auth sessionId
  | leaving auth sessionId => some (auth, sessionId)
  | reading | rejecting _ | rejected _ | accepting _ | accepted _ | registering _ | checked _
  | numbered .. | refused _ | done _ => none

/-- Nothing has been written to the peer. -/
def silent : Task → Bool
  | reading | rejecting _ | accepting _ => true
  | _ => false

variable {t : Task} {auth : AuthReq} {sessionId : UInt64}

theorem admitted_of_answered (h : t.answered = some auth) : t.admitted = some auth := by
  cases t <;> simp_all [answered, admitted]

theorem answered_of_unreserved (h : t.unreserved = some auth) : t.answered = some auth := by
  cases t <;> simp_all [unreserved, answered]

theorem unreserved_of_held (h : t.held = some (auth, sessionId)) : t.unreserved = some auth := by
  cases t <;> simp_all [held, unreserved]

end Task

variable (serde : SerdeJson) (config : ServerConfig)

/-- The first frame of what the peer has sent decodes to this request. -/
def FirstFrame (conn : Conn) (auth : AuthReq) : Prop :=
  ∃ rest, readMessage serde conn.inbound = (.ok (.authReq auth), rest)

/-- The successful answer has been written in full. -/
def Answered (h : List Event) (c : ConnId) (conn : Conn) (auth : AuthReq) : Prop :=
  .answered c (successRes config auth) ∈ h ∧
    writeMessage serde (.authRes (successRes config auth)) = .ok conn.outbound

/-- The session was swapped in, after the successful answer. -/
def SwappedAfterAnswer (h : List Event) (c : ConnId) (auth : AuthReq) (sessionId : UInt64) : Prop :=
  ∃ h₁ h₂, h = h₁ ++ .swapped c auth.clientId sessionId :: h₂ ∧
    .answered c (successRes config auth) ∈ h₁

variable {serde config} {h h' : List Event} {s t : State} {a : Act} {es : List Event} {c : ConnId}
  {conn : Conn} {auth : AuthReq} {sessionId : UInt64}

theorem FirstFrame.append (hf : FirstFrame serde conn auth) (bs : Bytes) :
    FirstFrame serde { conn with inbound := conn.inbound ++ bs } auth := by
  obtain ⟨rest, hread⟩ := hf
  exact ⟨rest ++ bs, readMessage_append hread (by simp) bs⟩

theorem FirstFrame.unique {auth' : AuthReq} (hf : FirstFrame serde conn auth)
    (hf' : FirstFrame serde conn auth') : auth = auth' := by
  obtain ⟨rest, hread⟩ := hf
  obtain ⟨rest', hread'⟩ := hf'
  rw [hread] at hread'
  simpa using congrArg Prod.fst hread'

theorem Answered.append (ha : Answered serde config h c conn auth) :
    Answered serde config (h ++ h') c conn auth :=
  ⟨List.mem_append_left _ ha.1, ha.2⟩

theorem SwappedAfterAnswer.append (hs : SwappedAfterAnswer config h c auth sessionId) :
    SwappedAfterAnswer config (h ++ h') c auth sessionId := by
  obtain ⟨h₁, h₂, rfl, hmem⟩ := hs
  exact ⟨h₁, h₂ ++ h', by rw [List.append_assoc, List.cons_append], hmem⟩

/-! ## What the reader and the writer of a task decide -/

theorem admitted_onFirstFrame {r : Except ProtocolError Message} :
    (onFirstFrame config r).admitted = some auth ↔
      r = .ok (.authReq auth) ∧ config.validateToken auth.token = true := by
  cases r with
  | error e => simp [onFirstFrame, Task.admitted]
  | ok m =>
    cases m with
    | authReq auth' =>
      by_cases hv : config.validateToken auth'.token = true
      · simp only [onFirstFrame, if_pos hv, Task.admitted, Option.some.injEq, Except.ok.injEq,
          Message.authReq.injEq]
        exact ⟨fun heq ↦ ⟨heq, heq ▸ hv⟩, fun heq ↦ heq.1⟩
      · simp only [onFirstFrame, if_neg hv, Task.admitted, reduceCtorEq, Except.ok.injEq,
          Message.authReq.injEq, false_iff, not_and]
        exact fun heq ↦ heq ▸ hv
    | _ => simp [onFirstFrame, Task.admitted]

theorem answered_onFirstFrame {r : Except ProtocolError Message} :
    (onFirstFrame config r).answered = none := by
  cases r with
  | error e => rfl
  | ok m =>
    cases m with
    | authReq auth' =>
      rw [onFirstFrame]
      split <;> rfl
    | _ => rfl

theorem answer_eq_some {task task' : Task} {res : AuthRes}
    (hans : answer config task = some (res, task')) :
    (∃ auth, task = .accepting auth ∧ res = successRes config auth ∧ task' = .accepted auth) ∨
    (∃ auth, task = .rejecting auth ∧ res = failureRes ∧ task' = .rejected auth) := by
  cases task with
  | accepting auth =>
    simp only [answer, Option.some.injEq, Prod.mk.injEq] at hans
    exact .inl ⟨auth, rfl, hans.1.symm, hans.2.symm⟩
  | rejecting auth =>
    simp only [answer, Option.some.injEq, Prod.mk.injEq] at hans
    exact .inr ⟨auth, rfl, hans.1.symm, hans.2.symm⟩
  | _ => cases hans

theorem held_of_answer {task task' : Task} {res : AuthRes}
    (hans : answer config task = some (res, task')) : task.held = none := by
  rcases answer_eq_some hans with ⟨auth, rfl, -⟩ | ⟨auth, rfl, -⟩ <;> rfl

/-! ## The invariant of a connection -/

variable (serde config) in
/-- What a connection has behind it, by how far its task has come. -/
structure ConnInv (h : List Event) (c : ConnId) (conn : Conn) : Prop where
  first : ∀ auth, conn.task.admitted = some auth →
    FirstFrame serde conn auth ∧ config.validateToken auth.token = true
  silent : conn.task.silent = true → conn.outbound = []
  answered : ∀ auth, conn.task.answered = some auth → Answered serde config h c conn auth
  unreserved : ∀ auth, conn.task.unreserved = some auth → auth.clientId ∉ reservedSubdomains
  held : ∀ auth sessionId, conn.task.held = some (auth, sessionId) →
    SwappedAfterAnswer config h c auth sessionId

namespace ConnInv

theorem fresh : ConnInv serde config h c {} where
  first _ hs := by cases hs
  silent _ := rfl
  answered _ hs := by cases hs
  unreserved _ hs := by cases hs
  held _ _ hs := by cases hs

theorem append (hi : ConnInv serde config h c conn) : ConnInv serde config (h ++ h') c conn where
  first := hi.first
  silent := hi.silent
  answered auth hs := (hi.answered auth hs).append
  unreserved := hi.unreserved
  held auth sessionId hs := (hi.held auth sessionId hs).append

theorem driver (hi : ConnInv serde config h c conn) (d : Option Driver) :
    ConnInv serde config h c { conn with driver := d } :=
  ⟨hi.first, hi.silent, hi.answered, hi.unreserved, hi.held⟩

theorem recv (hi : ConnInv serde config h c conn) (bs : Bytes) :
    ConnInv serde config h c { conn with inbound := conn.inbound ++ bs } where
  first auth hs := ⟨(hi.first auth hs).1.append bs, (hi.first auth hs).2⟩
  silent := hi.silent
  answered := hi.answered
  unreserved := hi.unreserved
  held := hi.held

theorem finished (task : Task) (hadm : task.admitted = none) (hsilent : task.silent = false)
    (bs : Bytes) : ConnInv serde config h c { conn with outbound := bs, task } where
  first auth hs := by simp [hadm] at hs
  silent hs := by simp [hsilent] at hs
  answered auth hs := by simp [Task.admitted_of_answered hs] at hadm
  unreserved auth hs := by
    simp [Task.admitted_of_answered (Task.answered_of_unreserved hs)] at hadm
  held auth sessionId hs := by
    simp [Task.admitted_of_answered (Task.answered_of_unreserved (Task.unreserved_of_held hs))]
      at hadm

/-- A task that moves on with the request it was answered for. -/
theorem advance (hi : ConnInv serde config h c conn) {task : Task} (d : Option Driver)
    (ht : conn.task.answered = some auth) (hans : task.answered = some auth)
    (hun : task.unreserved = some auth → auth.clientId ∉ reservedSubdomains)
    (hheld : ∀ sessionId, task.held = some (auth, sessionId) →
      SwappedAfterAnswer config h c auth sessionId) :
    ConnInv serde config h c { conn with task, driver := d } where
  first auth' hs := by
    rw [Task.admitted_of_answered hans, Option.some.injEq] at hs
    exact hs ▸ hi.first auth (Task.admitted_of_answered ht)
  silent hs := by
    cases task <;> simp [Task.silent, Task.answered] at hs hans
  answered auth' hs := by
    rw [hans, Option.some.injEq] at hs
    exact hs ▸ hi.answered auth ht
  unreserved auth' hs := by
    have := Task.answered_of_unreserved hs
    rw [hans, Option.some.injEq] at this
    exact this ▸ hun (this ▸ hs)
  held auth' sessionId hs := by
    have := Task.answered_of_unreserved (Task.unreserved_of_held hs)
    rw [hans, Option.some.injEq] at this
    exact this ▸ hheld sessionId (this ▸ hs)

theorem read (hi : ConnInv serde config h c conn) (ht : conn.task = .reading) :
    ConnInv serde config h c
      { conn with task := onFirstFrame config (readMessage serde conn.inbound).1 } where
  first auth hs := by
    obtain ⟨hread, hvalid⟩ := admitted_onFirstFrame.mp hs
    exact ⟨⟨_, Prod.ext hread rfl⟩, hvalid⟩
  silent _ := hi.silent (by rw [ht]; rfl)
  answered auth hs := by simp [answered_onFirstFrame] at hs
  unreserved auth hs := by
    have := Task.answered_of_unreserved hs
    simp [answered_onFirstFrame] at this
  held auth sessionId hs := by
    have := Task.answered_of_unreserved (Task.unreserved_of_held hs)
    simp [answered_onFirstFrame] at this

theorem answer (hi : ConnInv serde config h c conn) {res : AuthRes} {task : Task} {frame : Bytes}
    (hans : answer config conn.task = some (res, task))
    (hframe : writeMessage serde (.authRes res) = .ok frame) :
    ConnInv serde config (h ++ [.answered c res]) c
      { conn with outbound := conn.outbound ++ frame, task } := by
  rcases answer_eq_some hans with ⟨auth, ht, rfl, rfl⟩ | ⟨auth, ht, rfl, rfl⟩
  · have hsilent : conn.outbound = [] := hi.silent (by rw [ht]; rfl)
    refine ⟨fun auth' hs ↦ ?_, nofun, fun auth' hs ↦ ?_, nofun, fun _ _ hs ↦ by cases hs⟩
    · rw [Task.admitted, Option.some.injEq] at hs
      exact hs ▸ hi.first auth (by rw [ht]; rfl)
    · rw [Task.answered, Option.some.injEq] at hs
      subst hs
      refine ⟨List.mem_append_right _ List.mem_cons_self, ?_⟩
      rw [hsilent, List.nil_append]
      exact hframe
  · exact .finished (.rejected auth) rfl rfl _

end ConnInv

/-! ## The gate -/

/-- An entry belongs to a connection whose task has swapped it in and has not unregistered. -/
def EntryInv (s : State) (k : String) (e : ClientEntry) : Prop :=
  e.clientId = k ∧ ∃ conn auth, s.conns e.handle = some conn ∧
    conn.task.held = some (auth, e.sessionId) ∧ auth.clientId = k ∧
    e.supportsHeartbeat = auth.supportsHeartbeat

variable (serde config) in
/-- A connection that has been admitted under an id: request, token, answer, and an id that is not
reserved. -/
def AdmittedAs (h : List Event) (s : State) (c : ConnId) (k : String) : Prop :=
  ∃ conn auth, s.conns c = some conn ∧ FirstFrame serde conn auth ∧ auth.clientId = k ∧
    config.validateToken auth.token = true ∧ .answered c (successRes config auth) ∈ h ∧
    k ∉ reservedSubdomains

variable (serde config) in
/-- The invariant of the gate. -/
structure Gate (h : List Event) (s : State) : Prop where
  conn : ∀ c conn, s.conns c = some conn → ConnInv serde config h c conn
  entry : ∀ k e, s.registry.get k = some e → EntryInv s k e
  route : ∀ c k, .addClient c k ∈ h → AdmittedAs serde config h s c k

namespace EntryInv

variable {k : String} {e : ClientEntry} {s₀ : State}

theorem set_of_ne (he : EntryInv s k e) (hconns : s₀.conns = s.conns) {conn' : Conn}
    (hec : e.handle ≠ c) : EntryInv (s₀.setConn c conn') k e := by
  obtain ⟨hk, conn, auth, hc, hh, hauth, hs⟩ := he
  exact ⟨hk, conn, auth, by rw [setConn_of_ne hec, hconns, hc], hh, hauth, hs⟩

theorem set (he : EntryInv s k e) (hconns : s₀.conns = s.conns) {conn' : Conn}
    (hheld : ∀ conn x, s.conns c = some conn → conn.task.held = some x →
      conn'.task.held = some x) : EntryInv (s₀.setConn c conn') k e := by
  by_cases hec : e.handle = c
  · obtain ⟨hk, conn, auth, hc, hh, hauth, hs⟩ := he
    rw [hec] at hc
    exact ⟨hk, conn', auth, by rw [hec, setConn_self], hheld _ _ hc hh, hauth, hs⟩
  · exact he.set_of_ne hconns hec

theorem abortDriver (he : EntryInv s k e) (o : ConnId) : EntryInv (s.abortDriver o) k e := by
  obtain ⟨hk, conn, auth, hc, hh, hauth, hs⟩ := he
  obtain ⟨d, hd⟩ := abortDriver_of_some (o := o) hc
  exact ⟨hk, _, auth, hd, hh, hauth, hs⟩

end EntryInv

namespace Gate

variable {k : String}

theorem start (routes : RouteFiles) : Gate serde config [] (start routes) where
  conn c conn hc := by cases hc
  entry k e he := by cases he
  route c k hk := by cases hk

private theorem set (hi : Gate serde config h s) (s₀ : State) (hconns : s₀.conns = s.conns)
    {conn' : Conn} (hconn : ConnInv serde config (h ++ es) c conn')
    (hin : ∀ conn auth, s.conns c = some conn → FirstFrame serde conn auth →
      FirstFrame serde conn' auth)
    (hentry : ∀ k e, s₀.registry.get k = some e → EntryInv (s₀.setConn c conn') k e)
    (hes : ∀ c' k, .addClient c' k ∈ es →
      c' = c ∧ ∃ auth, conn'.task.unreserved = some auth ∧ auth.clientId = k) :
    Gate serde config (h ++ es) (s₀.setConn c conn') where
  conn c' conn hc' := by
    by_cases hcc : c' = c
    · subst hcc
      rw [setConn_self, Option.some.injEq] at hc'
      exact hc' ▸ hconn
    · rw [setConn_of_ne hcc, hconns] at hc'
      exact (hi.conn c' conn hc').append
  entry := hentry
  route c' k hk := by
    rcases List.mem_append.mp hk with hk | hk
    · obtain ⟨conn, auth, hc', hfirst, hauth, hvalid, hans, hres⟩ := hi.route c' k hk
      have hans' : .answered c' (successRes config auth) ∈ h ++ es := List.mem_append_left _ hans
      by_cases hcc : c' = c
      · subst hcc
        exact ⟨conn', auth, setConn_self .., hin conn auth hc' hfirst, hauth, hvalid, hans', hres⟩
      · exact ⟨conn, auth, by rw [setConn_of_ne hcc, hconns, hc'], hfirst, hauth, hvalid, hans',
          hres⟩
    · obtain ⟨rfl, auth, hun, rfl⟩ := hes c' k hk
      have hans := Task.answered_of_unreserved hun
      obtain ⟨hfirst, hvalid⟩ := hconn.first auth (Task.admitted_of_answered hans)
      exact ⟨conn', auth, setConn_self .., hfirst, rfl, hvalid, (hconn.answered auth hans).1,
        hconn.unreserved auth hun⟩

/-- A connection that is there is replaced, and the registry does not change. -/
private theorem move (hi : Gate serde config h s) (s₀ : State) (hc : s.conns c = some conn)
    (hconns : s₀.conns = s.conns) (hreg : ∀ k, s₀.registry.get k = s.registry.get k)
    {conn' : Conn} (hconn : ConnInv serde config (h ++ es) c conn')
    (hin : ∀ auth, FirstFrame serde conn auth → FirstFrame serde conn' auth)
    (hheld : ∀ x, conn.task.held = some x → conn'.task.held = some x)
    (hes : ∀ c' k, .addClient c' k ∈ es →
      c' = c ∧ ∃ auth, conn'.task.unreserved = some auth ∧ auth.clientId = k) :
    Gate serde config (h ++ es) (s₀.setConn c conn') := by
  refine hi.set s₀ hconns hconn (fun conn₀ auth hc₀ ↦ ?_) (fun k e he ↦ ?_) hes
  · rw [hc, Option.some.injEq] at hc₀
    exact hc₀ ▸ hin auth
  · refine (hi.entry k e ((hreg k).symm.trans he)).set hconns fun conn₀ x hc₀ ↦ ?_
    rw [hc, Option.some.injEq] at hc₀
    exact hc₀ ▸ hheld x

private theorem abortDriver (hi : Gate serde config h s) (o : ConnId) :
    Gate serde config (h ++ [.aborted o]) (s.abortDriver o) where
  conn c conn hc := by
    obtain ⟨conn₀, d, hc₀, rfl⟩ := exists_of_abortDriver hc
    exact ((hi.conn c conn₀ hc₀).driver d).append
  entry k e he := (hi.entry k e he).abortDriver o
  route c k hk := by
    rw [List.mem_append, List.mem_singleton, or_iff_left (by simp)] at hk
    obtain ⟨conn, auth, hc, hfirst, hauth, hvalid, hans, hres⟩ := hi.route c k hk
    obtain ⟨d, hd⟩ := abortDriver_of_some (o := o) hc
    exact ⟨_, auth, hd, hfirst, hauth, hvalid, List.mem_append_left _ hans, hres⟩

private theorem insert (hi : Gate serde config h s) (hc : s.conns c = some conn)
    (ht : conn.task = .numbered auth sessionId) :
    Gate serde config (h ++ [.swapped c auth.clientId sessionId])
      ({ s with registry := (s.registry.insertEntry
          ⟨auth.clientId, sessionId, c, auth.supportsHeartbeat⟩).1 }.setConn c
        { conn with task := .registered auth sessionId }) := by
  have hinv := hi.conn c conn hc
  have hans := hinv.answered auth (by rw [ht]; rfl)
  refine hi.set { s with registry := (s.registry.insertEntry
    ⟨auth.clientId, sessionId, c, auth.supportsHeartbeat⟩).1 } rfl ?_
    (fun conn₀ auth₀ hc₀ hf ↦ ?_) (fun k e he ↦ ?_) (by simp)
  · refine hinv.append.advance conn.driver (by rw [ht]; rfl) rfl
      (fun _ ↦ hinv.unreserved auth (by rw [ht]; rfl)) fun sessionId' hs ↦ ?_
    simp only [Task.held, Option.some.injEq, Prod.mk.injEq, true_and] at hs
    exact ⟨h, [], by rw [hs], hans.1⟩
  · rw [hc, Option.some.injEq] at hc₀
    exact hc₀ ▸ hf
  · rw [Registry.get_insertEntry] at he
    split at he
    · rename_i hk
      rw [Option.some.injEq] at he
      subst he
      exact ⟨hk.symm, _, auth, setConn_self .., rfl, hk.symm, rfl⟩
    · refine (hi.entry k e he).set rfl fun conn₀ x hc₀ hh ↦ ?_
      rw [hc, Option.some.injEq] at hc₀
      rw [← hc₀, ht] at hh
      cases hh

/-- `unregister` of a task takes the task's own entry out, if it is still there. -/
private theorem unregister (hi : Gate serde config h s) (hc : s.conns c = some conn)
    (ht : conn.task = .leaving auth sessionId) {removed : Bool} :
    Gate serde config (h ++ [.unregistered c auth.clientId sessionId removed])
      ({ s with registry := (s.registry.unregister auth.clientId sessionId).1 }.setConn c
        { conn with task := .done .disconnected }) := by
  refine hi.set { s with registry := (s.registry.unregister auth.clientId sessionId).1 } rfl
    (ConnInv.finished (.done .disconnected) rfl rfl conn.outbound)
    (fun conn₀ auth₀ hc₀ hf ↦ ?_) (fun k e he ↦ ?_) fun c' k hk ↦ ?_
  · rw [hc, Option.some.injEq] at hc₀
    exact hc₀ ▸ hf
  · rw [Registry.get_unregister] at he
    split at he
    · cases he
    · rename_i hnot
      have hent := hi.entry k e he
      -- An entry of this task is the one that is taken out.
      refine hent.set_of_ne rfl fun hec ↦ hnot ?_
      obtain ⟨-, conn₀, auth₀, hc₀, hh, hk, -⟩ := hent
      rw [hec, hc, Option.some.injEq] at hc₀
      rw [← hc₀, ht, Task.held, Option.some.injEq, Prod.mk.injEq] at hh
      obtain ⟨rfl, rfl⟩ := hh
      rw [← hk] at he ⊢
      exact ⟨rfl, (Registry.unregister_snd ..).mpr ⟨e, he, rfl⟩⟩
  · simp at hk

/-- **The step lemma.** -/
theorem step (hi : Gate serde config h s) (hstep : step serde config s a = some (t, es)) :
    Gate serde config (h ++ es) t := by
  cases step_transition hstep with
  | @accept c m hc =>
    refine hi.set { s with metrics := m } rfl .fresh (fun conn₀ auth hc₀ ↦ ?_)
      (fun k e he ↦ ?_) (by simp)
    · rw [hc] at hc₀
      cases hc₀
    · refine (hi.entry k e he).set rfl fun conn₀ x hc₀ ↦ ?_
      rw [hc] at hc₀
      cases hc₀
  | recv hc =>
    exact hi.move s hc rfl (fun _ ↦ rfl) ((hi.conn _ _ hc).append.recv _) (fun _ hf ↦ hf.append _)
      (fun _ hh ↦ hh) (by simp)
  | peerClose hc =>
    have hinv := hi.conn _ _ hc
    exact hi.move s hc rfl (fun _ ↦ rfl)
      ⟨hinv.first, hinv.silent, fun _ hs ↦ (hinv.answered _ hs).append, hinv.unreserved,
        fun _ _ hs ↦ (hinv.held _ _ hs).append⟩ (fun _ hf ↦ hf) (fun _ hh ↦ hh) (by simp)
  | @readFrame c conn hc ht hread =>
    have hinv := hi.conn _ _ hc
    exact hi.move s hc rfl (fun _ ↦ rfl) (hinv.append.read ht) (fun _ hf ↦ hf)
      (by simp [ht, Task.held]) (by simp)
  | readEnds hc ht =>
    exact hi.move s hc rfl (fun _ ↦ rfl) (.finished (.done _) rfl rfl _) (fun _ hf ↦ hf)
      (by simp [ht, Task.held]) (by simp)
  | @answered c conn res task frame hc hans hframe =>
    have hheld : conn.task.held = none := held_of_answer hans
    exact hi.move s hc rfl (fun _ ↦ rfl) ((hi.conn _ _ hc).answer hans hframe) (fun _ hf ↦ hf)
      (by simp [hheld]) (by simp)
  | @writeEnds c conn a bs res task hc hans ha =>
    have hheld : conn.task.held = none := held_of_answer hans
    exact hi.move s hc rfl (fun _ ↦ rfl) (.finished (.done .writeFailed) rfl rfl _) (fun _ hf ↦ hf)
      (by simp [hheld]) (by simp)
  | @countFailed c conn auth m hc ht =>
    exact hi.move { s with metrics := m } hc rfl (fun _ ↦ rfl)
      (.finished (.done .invalidToken) rfl rfl _) (fun _ hf ↦ hf)
      (by simp [ht, Task.held]) (by simp)
  | @spawnDriver c conn auth now hc ht =>
    exact hi.move s hc rfl (fun _ ↦ rfl) ((hi.conn _ _ hc).append.advance _ (by rw [ht]; rfl) rfl
      nofun nofun) (fun _ hf ↦ hf) (by simp [ht, Task.held]) (by simp)
  | @refuse c conn auth hc ht hres =>
    exact hi.move s hc rfl (fun _ ↦ rfl) ((hi.conn _ _ hc).append.advance _ (by rw [ht]; rfl) rfl
      nofun nofun) (fun _ hf ↦ hf) (by simp [ht, Task.held]) (by simp)
  | @check c conn auth hc ht hres =>
    exact hi.move s hc rfl (fun _ ↦ rfl) ((hi.conn _ _ hc).append.advance _ (by rw [ht]; rfl) rfl
      (fun _ ↦ hres) nofun) (fun _ hf ↦ hf) (by simp [ht, Task.held]) (by simp)
  | @fetchSession c conn auth hc ht =>
    have hinv := hi.conn _ _ hc
    exact hi.move { s with registry := s.registry.fetchSession.2 } hc rfl (fun _ ↦ rfl)
      (hinv.append.advance _ (by rw [ht]; rfl) rfl
        (fun _ ↦ hinv.unreserved auth (by rw [ht]; rfl)) nofun) (fun _ hf ↦ hf)
      (by simp [ht, Task.held]) (by simp)
  | @insertVacant c conn auth sessionId e hc ht he hslot =>
    rw [he]
    exact hi.insert hc ht
  | @insertOccupied c conn auth sessionId e old hc ht he hslot =>
    -- The map operation and the abort of the old session are one segment.
    rw [he]
    have := (hi.insert hc ht).abortDriver old.handle
    rwa [List.append_assoc] at this
  | @abortOwn c conn auth hc ht =>
    have : Gate serde config (h ++ [])
        (s.setConn c { conn with task := .done .registrationFailed }) :=
      hi.move s hc rfl (fun _ ↦ rfl) (.finished (.done .registrationFailed) rfl rfl _)
        (fun _ hf ↦ hf) (by simp [ht, Task.held]) (by simp)
    rw [List.append_nil] at this
    exact this.abortDriver c
  | @readRoute c conn auth sessionId task es hc ht htask hes =>
    -- Whatever the look at the route gives, the session keeps its slot.
    have hinv := hi.conn _ _ hc
    have hmoved : task.answered = some auth ∧ task.unreserved = some auth ∧
        task.held = some (auth, sessionId) := by
      rcases htask with rfl | rfl <;> exact ⟨rfl, rfl, rfl⟩
    refine hi.move s hc rfl (fun _ ↦ rfl) (hinv.append.advance _ (by rw [ht]; rfl) hmoved.1
      (fun _ ↦ hinv.unreserved auth (by rw [ht]; rfl)) fun x hs ↦ ?_) (fun _ hf ↦ hf)
      (by rw [ht, hmoved.2.2]; exact fun _ hs ↦ hs) fun c' k hk ↦ ?_
    · rw [hmoved.2.2] at hs
      exact (hinv.held auth x (by rw [ht]; exact hs)).append
    · rcases hes with rfl | rfl
      · cases hk
      · simp only [List.mem_singleton, Event.addClient.injEq] at hk
        exact ⟨hk.1, auth, hmoved.2.1, hk.2.symm⟩
  | @writeRoute c conn auth sessionId w hc ht =>
    have hinv := hi.conn _ _ hc
    refine hi.move
      { s with routes := (manager config).writeRoute s.routes auth.clientId w } hc rfl
      (fun _ ↦ rfl) (hinv.append.advance _ (by rw [ht]; rfl) rfl
        (fun _ ↦ hinv.unreserved auth (by rw [ht]; rfl)) fun x hs ↦ ?_) (fun _ hf ↦ hf)
      (by simp [ht, Task.held]) (by simp)
    exact (hinv.held auth x (by rw [ht]; exact hs)).append
  | @driver c conn d d' b es hc =>
    exact hi.move s hc rfl (fun _ ↦ rfl) ((hi.conn _ _ hc).append.driver _) (fun _ hf ↦ hf)
      (fun _ hh ↦ hh) (by simp)
  | @join c conn auth sessionId d hc ht hd hended =>
    have hinv := hi.conn _ _ hc
    refine hi.move s hc rfl (fun _ ↦ rfl) (hinv.append.advance _ (by rw [ht]; rfl) rfl
      (fun _ ↦ hinv.unreserved auth (by rw [ht]; rfl)) fun x hs ↦ ?_) (fun _ hf ↦ hf)
      (by simp [ht, Task.held]) (by simp)
    exact (hinv.held auth x (by rw [ht]; exact hs)).append
  | unregister hc ht => exact hi.unregister hc ht

/-- **The run lemma.** -/
theorem of_reach {routes : RouteFiles} (hr : (machine serde config routes).Reach h s) :
    Gate serde config h s :=
  hr.invariant (start routes) fun _ _ _ _ _ _ hi hstep ↦ hi.step hstep

end Gate

/-! ## Connections that are never admitted -/

variable (serde config) in
/-- The token check is behind this connection, and the check was passed. -/
def Passed (conn : Conn) : Prop :=
  (∃ auth, FirstFrame serde conn auth ∧ config.validateToken auth.token = true) ∧
    conn.task ≠ .reading ∧ conn.task ≠ .done .timedOut

theorem passed_of_admitted (hi : Gate serde config h s) (hc : s.conns c = some conn)
    (hadm : conn.task.admitted = some auth) : Passed serde config conn := by
  refine ⟨⟨auth, (hi.conn c conn hc).first auth hadm⟩, ?_, ?_⟩ <;>
  · intro ht
    rw [ht] at hadm
    cases hadm

theorem firstFrame_of_step (hf : FirstFrame serde conn auth) (hc : s.conns c = some conn)
    (hstep : step serde config s a = some (t, es)) :
    ∃ conn', t.conns c = some conn' ∧ FirstFrame serde conn' auth := by
  obtain ⟨conn', hc', bs, hbs⟩ := inbound_of_step hstep hc
  obtain ⟨rest, hread⟩ := hf.append bs
  exact ⟨conn', hc', rest, hbs ▸ hread⟩

theorem passed_step (hp : Passed serde config conn) (hc : s.conns c = some conn)
    (hstep : step serde config s a = some (t, es)) :
    ∃ conn', t.conns c = some conn' ∧ Passed serde config conn' := by
  obtain ⟨⟨auth, hfirst, hvalid⟩, hread, htime⟩ := hp
  obtain ⟨conn', hc', hfirst'⟩ := firstFrame_of_step hfirst hc hstep
  obtain ⟨conn'', hc'', hm⟩ := task_of_step hstep hc
  rw [hc', Option.some.injEq] at hc''
  subst hc''
  refine ⟨conn', hc', ⟨auth, hfirst', hvalid⟩, ?_⟩
  rcases hm with ht | ⟨-, hm⟩
  · exact ht ▸ ⟨hread, htime⟩
  · -- Only reading leads to a timeout, and nothing leads back to reading.
    generalize conn.task = task at hm hread
    generalize conn'.task = task' at hm ⊢
    cases hm with
    | read | readEnds => exact absurd rfl hread
    | answered hans =>
      rcases answer_eq_some hans with ⟨_, -, -, rfl⟩ | ⟨_, -, -, rfl⟩ <;> simp
    | readRoute ht' => rcases ht' with rfl | rfl <;> simp
    | _ => simp

theorem passed_steps {routes : RouteFiles} (hp : Passed serde config conn)
    (hc : s.conns c = some conn) (hst : (machine serde config routes).Steps s h t) :
    ∃ conn', t.conns c = some conn' ∧ Passed serde config conn' :=
  hst.preserves (P := fun s ↦ ∃ conn', s.conns c = some conn' ∧ Passed serde config conn')
    (fun _ _ _ _ ⟨_, hc', hp'⟩ hstep ↦ passed_step hp' hc' hstep) ⟨conn, hc, hp⟩

/-- A session is swapped in under the id in the first frame of its connection. -/
theorem firstFrame_of_swapped {routes : RouteFiles} {k : String}
    (hr : (machine serde config routes).Reach h s) (hmem : .swapped c k sessionId ∈ h) :
    ∃ conn auth, s.conns c = some conn ∧ FirstFrame serde conn auth ∧ auth.clientId = k := by
  obtain ⟨h₁, h₂, rfl⟩ := List.append_of_mem hmem
  obtain ⟨h₀, v, a, w, es₁, es₂, h₃, hv, hstep, hw, -, -⟩ := Machine.Steps.split hr
  obtain ⟨conn, -, auth, hc, -, ht, -, rfl⟩ :=
    swapped_of_step hstep (List.mem_append_right _ List.mem_cons_self)
  have hfirst := (((Gate.of_reach hv).conn c conn hc).first auth (by rw [ht]; rfl)).1
  obtain ⟨conn', hc', hfirst'⟩ := hw.preserves
    (P := fun s ↦ ∃ conn', s.conns c = some conn' ∧ FirstFrame serde conn' auth)
    (fun _ _ _ _ ⟨_, hc', hf⟩ hs ↦ firstFrame_of_step hf hc' hs)
    (firstFrame_of_step hfirst hc hstep)
  exact ⟨conn', auth, hc', hfirst', rfl⟩

theorem clientId_unique {routes : RouteFiles} {k k' : String} {sessionId' : UInt64}
    (hr : (machine serde config routes).Reach h s) (hmem : .swapped c k sessionId ∈ h)
    (hmem' : .swapped c k' sessionId' ∈ h) : k = k' := by
  obtain ⟨conn, auth, hc, hf, rfl⟩ := firstFrame_of_swapped hr hmem
  obtain ⟨conn', auth', hc', hf', rfl⟩ := firstFrame_of_swapped hr hmem'
  rw [hc, Option.some.injEq] at hc'
  subst hc'
  rw [hf.unique hf']

variable (serde config) in
/-- The first frame is malformed or missing, late, not an `AuthReq`, or has a wrong token. -/
def Unadmitted (conn : Conn) : Prop :=
  conn.task = .done .timedOut ∨
    ∀ auth rest, readMessage serde conn.inbound = (.ok (.authReq auth), rest) →
      config.validateToken auth.token = false

theorem not_passed_of_unadmitted (hbad : Unadmitted serde config conn) :
    ¬Passed serde config conn := by
  rintro ⟨⟨auth, ⟨rest, hread⟩, hvalid⟩, -, htime⟩
  rcases hbad with htimed | hbad
  · exact htime htimed
  · rw [hbad auth rest hread] at hvalid
    cases hvalid

/-- A connection with a driver had it before, or its task has just spawned it. -/
theorem step_driver {conn' : Conn} (hstep : step serde config s a = some (t, es))
    (hc : t.conns c = some conn') (hd : conn'.driver ≠ none) :
    (∃ conn, s.conns c = some conn ∧ conn.driver ≠ none) ∨
      ∃ auth, conn'.task = .registering auth := by
  obtain ⟨conn₁, o, ds, hm, -⟩ := step_conns hstep
  -- The connection before an abort, if one is asked for.
  obtain ⟨conn₂, hc₂, hd₂, ht₂⟩ : ∃ conn₂, (if c = a.conn then some conn₁ else s.conns c) =
      some conn₂ ∧ conn₂.driver ≠ none ∧ conn'.task = conn₂.task := by
    rw [hm.conns] at hc
    split at hc
    · obtain ⟨conn₂, hc₂, rfl⟩ := Option.map_eq_some_iff.mp hc
      exact ⟨conn₂, hc₂, fun hn ↦ hd (by simp [Conn.abortDriver, hn]), rfl⟩
    · exact ⟨conn', hc, hd, rfl⟩
  split at hc₂
  · rename_i hca
    rw [Option.some.injEq] at hc₂
    subst hc₂
    rw [hca]
    cases hca' : s.conns a.conn with
    | none => exact absurd (by rw [(hm.fresh hca').1]) hd₂
    | some conn =>
      cases hm.driver conn hca' with
      | same hsame => exact .inl ⟨conn, rfl, hsame ▸ hd₂⟩
      | @spawned auth _ _ ht' => exact .inr ⟨auth, ht₂.trans ht'⟩
      | stepped _ _ hdr => exact .inl ⟨conn, rfl, by simp [hdr]⟩
  · exact .inl ⟨conn₂, hc₂, hd₂⟩

/-- A driver is only ever spawned for a connection that has passed. -/
theorem passed_of_driver {routes : RouteFiles} (hr : (machine serde config routes).Reach h s)
    (hc : s.conns c = some conn) (hd : conn.driver ≠ none) : Passed serde config conn := by
  have hall : ∀ c conn, s.conns c = some conn → conn.driver ≠ none →
      Passed serde config conn := by
    refine hr.invariant (P := fun _ s ↦ ∀ c conn, s.conns c = some conn → conn.driver ≠ none →
      Passed serde config conn) (fun c conn hc ↦ by cases hc) ?_
    intro h s a t es hr hi hstep c conn' hc' hd'
    rcases step_driver hstep hc' hd' with ⟨conn, hc, hd⟩ | ⟨auth, ht⟩
    · obtain ⟨conn'', hc'', hp⟩ := passed_step (hi c conn hc hd) hc hstep
      rw [hc', Option.some.injEq] at hc''
      exact hc'' ▸ hp
    · have hi' : Gate serde config (h ++ es) t := (Gate.of_reach hr).step hstep
      have hadm : conn'.task.admitted = some auth := by rw [ht]; rfl
      exact passed_of_admitted hi' hc' hadm
  exact hall c conn hc hd

/-- The step of one connection leaves the registry, the route files and every other connection
with its session as they were, and has no session of its own. -/
structure Untouched (c : ConnId) (s t : State) : Prop where
  registry : t.registry = s.registry
  routes : t.routes = s.routes
  others : ∀ c', c' ≠ c → t.conns c' = s.conns c'
  no_driver : ∀ conn, t.conns c = some conn → conn.driver = none

/-- A task that is not admitted moves nothing but its own connection. -/
theorem untouched_of_not_admitted
    (hown : ∀ conn, s.conns a.conn = some conn → conn.task.admitted = none ∧ conn.driver = none)
    (hstep : step serde config s a = some (t, es)) : Untouched a.conn s t := by
  have hset : ∀ {c : ConnId} {conn' : Conn} {m : Metrics}, c = a.conn → conn'.driver = none →
      Untouched a.conn s ({ s with metrics := m }.setConn c conn') := by
    rintro c conn' m rfl hd
    refine ⟨rfl, rfl, fun c' hne ↦ setConn_of_ne hne _ _, fun conn'' hc'' ↦ ?_⟩
    rw [setConn_self, Option.some.injEq] at hc''
    exact hc'' ▸ hd
  cases step_transition hstep with
  | accept hc₀ => exact hset rfl rfl
  | recv hc₀ | peerClose hc₀ | readFrame hc₀ | countFailed hc₀ => exact hset rfl (hown _ hc₀).2
  | answered hc₀ => exact hset rfl (hown _ hc₀).2
  | readEnds hc₀ _ ha => rcases ha with ⟨rfl, -⟩ | ⟨rfl, -⟩ <;> exact hset rfl (hown _ hc₀).2
  | writeEnds hc₀ _ ha => rcases ha with rfl | ⟨n, rfl⟩ <;> exact hset rfl (hown _ hc₀).2
  | spawnDriver hc₀ ht | refuse hc₀ ht | check hc₀ ht | fetchSession hc₀ ht | insertVacant hc₀ ht
  | insertOccupied hc₀ ht | abortOwn hc₀ ht | readRoute hc₀ ht | writeRoute hc₀ ht | join hc₀ ht
  | unregister hc₀ ht =>
    have := (hown _ hc₀).1
    rw [ht] at this
    cases this
  | driver hc₀ hd => simp [(hown _ hc₀).2] at hd

theorem Gate.unreserved {k : String} {e : ClientEntry} (hi : Gate serde config h s)
    (he : s.registry.get k = some e) : k ∉ reservedSubdomains := by
  obtain ⟨-, conn, auth, hc, hheld, rfl, -⟩ := hi.entry k e he
  exact (hi.conn _ conn hc).unreserved auth (Task.unreserved_of_held hheld)

/-- What holds of the registry and of the routes in every reachable state, and of every connection
that is never admitted. -/
structure GateSound (serde : SerdeJson) (config : ServerConfig) (routes : RouteFiles)
    (h : List Event) (s : State) : Prop where
  /-- Every entry is the session of a connection whose first frame decoded to an `AuthReq` with
  this id and a valid token, and to which the successful answer was written in full before the
  session was registered. -/
  entry : ∀ k e, s.registry.get k = some e → ∃ conn auth rest, s.conns e.handle = some conn ∧
    readMessage serde conn.inbound = (.ok (.authReq auth), rest) ∧ auth.clientId = k ∧
    config.validateToken auth.token = true ∧
    writeMessage serde (.authRes (successRes config auth)) = .ok conn.outbound ∧
    (∃ h₁ h₂, h = h₁ ++ .swapped e.handle k e.sessionId :: h₂ ∧
      .answered e.handle (successRes config auth) ∈ h₁) ∧
    k ∉ reservedSubdomains ∧ (e.supportsHeartbeat = true ↔ auth.version ≠ none)
  /-- `add_client` is only called for an id that was admitted in the same way. -/
  add_client : ∀ c k, .addClient c k ∈ h → AdmittedAs serde config h s c k
  /-- No step of a connection whose first frame is in the end malformed, late, not an `AuthReq` or
  has a wrong token changes the registry, a route file or another connection. -/
  unadmitted : ∀ a t es h' u conn, step serde config s a = some (t, es) →
    (machine serde config routes).Steps t h' u → u.conns a.conn = some conn →
    Unadmitted serde config conn → Untouched a.conn s t

/-- **The authentication gate**, in every reachable state. -/
theorem gate_sound (serde : SerdeJson) (config : ServerConfig) (routes : RouteFiles)
    (h : List Event) (s : State) (hr : (machine serde config routes).Reach h s) :
    GateSound serde config routes h s := by
  have hi : Gate serde config h s := .of_reach hr
  refine ⟨fun k e he ↦ ?_, hi.route, fun a t es h' u conn hstep hst hc hbad ↦ ?_⟩
  · obtain ⟨hk, conn, auth, hc, hheld, hauth, hs⟩ := hi.entry k e he
    have hinv := hi.conn _ _ hc
    have hun := Task.unreserved_of_held hheld
    have hans := Task.answered_of_unreserved hun
    obtain ⟨⟨rest, hread⟩, hvalid⟩ := hinv.first auth (Task.admitted_of_answered hans)
    have hswap := hinv.held auth e.sessionId hheld
    rw [SwappedAfterAnswer, hauth] at hswap
    refine ⟨conn, auth, rest, hc, hread, hauth, hvalid, (hinv.answered auth hans).2, hswap,
      hi.unreserved he, ?_⟩
    rw [hs, AuthReq.supportsHeartbeat, Option.isSome_iff_ne_none]
  · -- A connection that had passed the check by this step would still have passed it at the end.
    have hnot : ∀ conn₀, t.conns a.conn = some conn₀ → ¬Passed serde config conn₀ := by
      intro conn₀ hc₀ hp
      obtain ⟨conn', hc', hp'⟩ := passed_steps hp hc₀ hst
      rw [hc, Option.some.injEq] at hc'
      exact not_passed_of_unadmitted hbad (hc' ▸ hp')
    refine untouched_of_not_admitted (fun conn₀ hs ↦ ?_) hstep
    have hnot₀ : ¬Passed serde config conn₀ := fun hp ↦ by
      obtain ⟨conn', hc', hp'⟩ := passed_step hp hs hstep
      exact hnot conn' hc' hp'
    constructor
    · by_contra hadm
      obtain ⟨auth, hadm⟩ := Option.ne_none_iff_exists'.mp hadm
      exact hnot₀ (passed_of_admitted hi hs hadm)
    · by_contra hd
      exact hnot₀ (passed_of_driver hr hs hd)

/-! ## A concrete server -/

/-- A configuration with one token. -/
def sampleConfig : ServerConfig where
  domain := "d.io"
  auth := { tokens := ["t"] }

/-- The frame with which a peer opens a connection. -/
def authFrame (auth : AuthReq) : Bytes :=
  (writeMessage compactSerde (.authReq auth)).toOption.getD []

/-- A connection from `accept` to the answer. -/
def answerSegments (c : ConnId) (auth : AuthReq) : List Act :=
  [.accept c, .recv c (authFrame auth), .readFrame c, .writeAnswer c]

/-- The segments from the answer to the slot, in program order. -/
def registerSegments (c : ConnId) (now : ℕ) : List Act :=
  [.spawnDriver c now, .checkId c, .fetchSession c, .insertEntry c]

/-- One connection is registered; another one fails with a wrong token for the same id. -/
theorem gate_sound_wrong_token : ∃ h s,
    (machine compactSerde sampleConfig fun _ ↦ none).run (start fun _ ↦ none)
      (answerSegments 0 ⟨"app", "t", some "1"⟩ ++ registerSegments 0 0 ++
        answerSegments 1 ⟨"app", "x", some "1"⟩ ++ [.countFailed 1]) = some (s, h) ∧
    s.registry.get "app" = some ⟨"app", 1, 0, true⟩ ∧ s.metrics.failedAuth = 1 ∧
    GateSound compactSerde sampleConfig (fun _ ↦ none) h s := by
  have hrun : ((machine compactSerde sampleConfig fun _ ↦ none).run (start fun _ ↦ none)
      (answerSegments 0 ⟨"app", "t", some "1"⟩ ++ registerSegments 0 0 ++
        answerSegments 1 ⟨"app", "x", some "1"⟩ ++ [.countFailed 1])).map
      (fun p ↦ (p.1.registry.get "app", p.1.metrics.failedAuth)) =
      some (some ⟨"app", 1, 0, true⟩, 1) := by decide +kernel
  obtain ⟨⟨s, h⟩, hsh, heq⟩ := Option.map_eq_some_iff.mp hrun
  rw [Prod.mk.injEq] at heq
  exact ⟨h, s, hsh, heq.1, heq.2, gate_sound _ _ _ h s (.of_run hsh)⟩

end Control

end ZoTunnel
