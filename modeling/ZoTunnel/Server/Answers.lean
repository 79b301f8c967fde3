import ZoTunnel.Server.FailedAuth

/-!
# Answers

What `handle_client` has heard and written on a connection, next to what its task is doing. The gate
knows that an admitted connection has its successful answer. Here it is every connection, whatever
has become of its task: at most one answer is written, it is the one that is due to the first frame,
and a write that fails leaves a part of it (`AllSaid`). Nothing else is written before the driver
has the connection.
-/

namespace ZoTunnel

namespace Control

/-! ## What the server has written -/

section

variable (serde : SerdeJson) (config : ServerConfig)

/-- The answer that is due to a request. -/
def verdict (auth : AuthReq) : AuthRes :=
  if config.validateToken auth.token then successRes config auth else failureRes

/-- Nothing is written on a connection, and a driver comes from an accepted task. -/
structure Quiet (conn conn' : Conn) : Prop where
  outbound : conn'.outbound = conn.outbound
  task : conn.task = .done .writeFailed → conn'.task = .done .writeFailed
  driver : conn'.driver ≠ none → conn.driver ≠ none ∨ ∃ auth, conn.task = .accepted auth
  muxed : conn.driver ≠ none → conn'.driver ≠ none

/-- What becomes of the outbound side of connection `c` in a step with events `es`. -/
inductive Writes (c : ConnId) (conn conn' : Conn) (es : List Event) : Prop
  | quiet (hq : Quiet conn conn') (hes : ∀ res, .answered c res ∉ es)
  /-- The answer, as far as it gets. -/
  | answer {res : AuthRes} {task : Task} {frame bs : Bytes}
      (hans : Control.answer config conn.task = some (res, task))
      (hframe : writeMessage serde (.authRes res) = .ok frame)
      (hout : conn'.outbound = conn.outbound ++ bs) (hd : conn'.driver = conn.driver)
      (hend : bs = frame ∧ es = [.answered c res] ∨
        bs <+: frame ∧ conn'.task = .done .writeFailed ∧ es = [])

/-- What has been written on a connection: as much of the answer to its first frame as the task has
got through, all of it where there is a driver, and no other answer is reported. -/
structure Said (h : List Event) (c : ConnId) (conn : Conn) : Prop where
  written : conn.outbound ≠ [] → ∃ auth frame, FirstFrame serde conn auth ∧
    writeMessage serde (.authRes (verdict config auth)) = .ok frame ∧ conn.outbound <+: frame ∧
    (.answered c (verdict config auth) ∈ h ∨ conn.task = .done .writeFailed)
  driver : conn.driver ≠ none → ∃ auth, FirstFrame serde conn auth ∧
    config.validateToken auth.token = true ∧
    writeMessage serde (.authRes (verdict config auth)) = .ok conn.outbound
  reported : ∀ res, .answered c res ∈ h → ∃ auth, FirstFrame serde conn auth ∧
    res = verdict config auth

/-- The same for all connections, of which those that are reported are there. -/
structure AllSaid (h : List Event) (s : State) : Prop where
  conn : ∀ c conn, s.conns c = some conn → Said serde config h c conn
  known : ∀ c res, .answered c res ∈ h → s.conns c ≠ none

end

variable {serde : SerdeJson} {config : ServerConfig} {routes : RouteFiles} {h : List Event}
  {s t : State} {a : Act} {es : List Event} {c : ConnId} {conn : Conn} {auth : AuthReq}

theorem FirstFrame.of_prefix {conn' : Conn} (hf : FirstFrame serde conn auth)
    (hin : conn.inbound <+: conn'.inbound) : FirstFrame serde conn' auth := by
  obtain ⟨bs, hbs⟩ := hin
  obtain ⟨rest, hread⟩ := hf
  exact ⟨rest ++ bs, hbs ▸ readMessage_append hread (by simp) bs⟩

/-! The relation of a connection before a step to the same connection after it, for a step that
replaces one connection and may ask for one abort. -/

section

variable {R : Conn → Conn → Prop} {conn' : Conn}

private theorem rel_setConn {s₀ : State} {c₀ : ConnId} {conn₀ conn₁ : Conn}
    (hrefl : ∀ conn, R conn conn) (hc : s.conns c = some conn) (hconns : s₀.conns = s.conns)
    (hc₀ : s.conns c₀ = some conn₀) (hc' : (s₀.setConn c₀ conn₁).conns c = some conn')
    (hR : c = c₀ → R conn₀ conn₁) : R conn conn' := by
  rw [setConn_conns] at hc'
  split at hc'
  · rename_i hcc
    rw [← hcc, hc, Option.some.injEq] at hc₀
    rw [Option.some.injEq] at hc'
    exact hc₀ ▸ hc' ▸ hR hcc
  · rw [hconns, hc, Option.some.injEq] at hc'
    exact hc' ▸ hrefl conn

private theorem rel_abortDriver {s₁ : State} {o : ConnId}
    (habort : ∀ conn', R conn conn' → R conn conn'.abortDriver)
    (hc' : (s₁.abortDriver o).conns c = some conn')
    (hR : ∀ conn', s₁.conns c = some conn' → R conn conn') : R conn conn' := by
  rw [abortDriver_conns] at hc'
  split at hc'
  · obtain ⟨conn₁, hc₁, rfl⟩ := Option.map_eq_some_iff.mp hc'
    exact habort conn₁ (hR conn₁ hc₁)
  · exact hR conn' hc'

private theorem rel_accept {c₀ : ConnId} {conn₁ : Conn} {s₀ : State}
    (hrefl : ∀ conn, R conn conn) (hc : s.conns c = some conn) (hconns : s₀.conns = s.conns)
    (hc₀ : s.conns c₀ = none) (hc' : (s₀.setConn c₀ conn₁).conns c = some conn') :
    R conn conn' := by
  rw [setConn_of_ne (fun hcc ↦ by simp [← hcc, hc] at hc₀), hconns, hc, Option.some.injEq] at hc'
  exact hc' ▸ hrefl conn

end

theorem driver_abortDriver : conn.abortDriver.driver ≠ none ↔ conn.driver ≠ none := by
  rw [Conn.abortDriver, ne_eq, Option.map_eq_none_iff]

namespace Quiet

theorem refl (conn : Conn) : Quiet conn conn := ⟨rfl, id, .inl, id⟩

theorem move (task : Task) (hne : conn.task ≠ .done .writeFailed) :
    Quiet conn { conn with task } := ⟨rfl, fun ht ↦ absurd ht hne, .inl, id⟩

theorem abortDriver (conn' : Conn) (hq : Quiet conn conn') : Quiet conn conn'.abortDriver :=
  ⟨hq.outbound, hq.task, fun hd ↦ hq.driver (driver_abortDriver.mp hd),
    fun hd ↦ driver_abortDriver.mpr (hq.muxed hd)⟩

end Quiet

private theorem write_spec (hstep : step serde config s a = some (t, es))
    (hc : s.conns c = some conn) (ha : a = .writeAnswer c ∨ ∃ n, a = .writeFail c n) :
    ∃ conn', t.conns c = some conn' ∧ Writes serde config c conn conn' es := by
  rcases ha with rfl | ⟨n, rfl⟩ <;> simp only [step, Act.conn, hc, taskStep] at hstep
  · split at hstep
    · cases hstep
    rename_i res task hans
    split at hstep <;> obtain ⟨rfl, rfl⟩ := Prod.mk.inj (Option.some.inj hstep) <;>
      refine ⟨_, setConn_self .., ?_⟩
    · refine .quiet ⟨rfl, fun _ ↦ rfl, .inl, id⟩ fun res hmem ↦ ?_
      cases hmem
    · rename_i frame hframe
      exact .answer hans hframe rfl rfl (.inl ⟨rfl, rfl⟩)
  · split at hstep
    · cases hstep
    rename_i res task hans
    split at hstep
    · cases hstep
    rename_i frame hframe
    obtain ⟨rfl, rfl⟩ := Prod.mk.inj (Option.some.inj hstep)
    exact ⟨_, setConn_self .., .answer hans hframe rfl rfl (.inr ⟨List.take_prefix _ _, rfl, rfl⟩)⟩

private theorem quiet_spec {conn' : Conn} (hstep : step serde config s a = some (t, es))
    (hc : s.conns c = some conn) (hc' : t.conns c = some conn')
    (ha : ¬(a = .writeAnswer c ∨ ∃ n, a = .writeFail c n)) :
    Quiet conn conn' ∧ ∀ res, .answered c res ∉ es := by
  cases step_transition hstep with
  | accept hc₀ =>
    exact ⟨rel_accept Quiet.refl hc rfl hc₀ hc', fun res hmem ↦ by cases hmem⟩
  | recv hc₀ | peerClose hc₀ =>
    exact ⟨rel_setConn Quiet.refl hc rfl hc₀ hc' fun _ ↦ ⟨rfl, id, .inl, id⟩,
      fun res hmem ↦ by cases hmem⟩
  | driver hc₀ hd =>
    refine ⟨rel_setConn Quiet.refl hc rfl hc₀ hc' fun _ ↦ ⟨rfl, id, fun _ ↦ .inl (by simp [hd]),
      fun _ ↦ Option.some_ne_none _⟩, fun res hmem ↦ ?_⟩
    obtain ⟨e', -, he'⟩ := List.mem_map.mp hmem
    cases he'
  | answered hc₀ hans hframe =>
    have hne := fun hcc : c = _ ↦ ha (.inl (by rw [hcc]))
    refine ⟨rel_setConn Quiet.refl hc rfl hc₀ hc' fun hcc ↦ absurd hcc hne, fun res hmem ↦ ?_⟩
    obtain ⟨hcc, -⟩ := Event.answered.inj (List.mem_singleton.mp hmem)
    exact hne hcc
  | writeEnds hc₀ hans hact =>
    refine ⟨rel_setConn Quiet.refl hc rfl hc₀ hc' fun hcc ↦ absurd (hcc ▸ hact) ha,
      fun res hmem ↦ ?_⟩
    cases hmem
  | spawnDriver hc₀ ht =>
    refine ⟨rel_setConn Quiet.refl hc rfl hc₀ hc' fun _ ↦ ⟨rfl, fun h ↦ ?_,
      fun _ ↦ .inr ⟨_, ht⟩, fun _ ↦ Option.some_ne_none _⟩, fun res hmem ↦ ?_⟩
    · rw [ht] at h
      cases h
    · cases hmem
  | readRoute hc₀ ht htask hes =>
    refine ⟨rel_setConn Quiet.refl hc rfl hc₀ hc'
      fun _ ↦ .move _ (by rw [ht]; exact fun h ↦ by cases h), ?_⟩
    rcases hes with rfl | rfl <;> simp
  | insertOccupied hc₀ ht | abortOwn hc₀ ht =>
    exact ⟨rel_abortDriver Quiet.abortDriver hc' fun conn' hc' ↦
      rel_setConn Quiet.refl hc rfl hc₀ hc' fun _ ↦
        .move _ (by rw [ht]; exact fun h ↦ by cases h), by simp⟩
  | readFrame hc₀ ht | readEnds hc₀ ht | countFailed hc₀ ht | refuse hc₀ ht | check hc₀ ht
  | fetchSession hc₀ ht | insertVacant hc₀ ht | writeRoute hc₀ ht | join hc₀ ht
  | unregister hc₀ ht =>
    exact ⟨rel_setConn Quiet.refl hc rfl hc₀ hc'
      fun _ ↦ .move _ (by rw [ht]; exact fun h ↦ by cases h), by simp⟩

/-- **One step and the outbound side of any connection.** -/
theorem writes_of_step (hstep : step serde config s a = some (t, es))
    (hc : s.conns c = some conn) :
    ∃ conn', t.conns c = some conn' ∧ conn.inbound <+: conn'.inbound ∧
      Writes serde config c conn conn' es := by
  obtain ⟨conn', hc', hin⟩ := inbound_of_step hstep hc
  refine ⟨conn', hc', hin, ?_⟩
  by_cases ha : a = .writeAnswer c ∨ ∃ n, a = .writeFail c n
  · obtain ⟨conn'', hc'', hw⟩ := write_spec hstep hc ha
    exact Option.some.inj (hc''.symm.trans hc') ▸ hw
  · obtain ⟨hq, hes⟩ := quiet_spec hstep hc hc' ha
    exact .quiet hq hes

/-- A connection begins without anything written and without a driver. -/
theorem fresh_of_step {conn' : Conn} (hstep : step serde config s a = some (t, es))
    (hc : s.conns c = none) (hc' : t.conns c = some conn') : conn' = {} := by
  obtain ⟨conn₁, o, ds, hm, -⟩ := step_conns hstep
  rw [hm.conns, hc] at hc'
  by_cases hca : c = a.conn
  · rw [if_pos hca, (hm.fresh (hca ▸ hc)).1] at hc'
    split at hc' <;> exact (Option.some.inj hc').symm
  · rw [if_neg hca] at hc'
    split at hc' <;> cases hc'

theorem writeMessage_ne_nil {m : Message} {frame : Bytes} (hw : writeMessage serde m = .ok frame) :
    frame ≠ [] := by
  rw [writeMessage] at hw
  split at hw
  · cases hw
  · dsimp only at hw
    split at hw
    · cases hw
    · rw [← Except.ok.inj hw]
      exact List.cons_ne_nil _ _

theorem verdict_of_valid (hvalid : config.validateToken auth.token = true) :
    verdict config auth = successRes config auth := if_pos hvalid

/-- A task that is about to answer has written nothing, and its answer is the one that is due. -/
private theorem due_of_answer {res : AuthRes} {task : Task} (hi : ConnInv serde config h c conn)
    (hd : DeniedInv serde config conn) (hans : Control.answer config conn.task = some (res, task)) :
    conn.outbound = [] ∧ ∃ auth, FirstFrame serde conn auth ∧ res = verdict config auth := by
  rcases answer_eq_some hans with ⟨auth, ht, rfl, rfl⟩ | ⟨auth, ht, rfl, rfl⟩
  · obtain ⟨hfirst, hvalid⟩ := hi.first auth (by rw [ht]; rfl)
    exact ⟨hi.silent (by rw [ht]; rfl), auth, hfirst, (verdict_of_valid hvalid).symm⟩
  · obtain ⟨hfirst, hinvalid⟩ := hd.denied auth (by rw [ht]; rfl)
    exact ⟨hi.silent (by rw [ht]; rfl), auth, hfirst, (if_neg (by simp [hinvalid])).symm⟩

namespace Said

theorem fresh (hes : ∀ res, .answered c res ∉ h) : Said serde config h c {} where
  written hne := absurd rfl hne
  driver hne := absurd rfl hne
  reported res hmem := absurd hmem (hes res)

theorem step {conn' : Conn} (hs : Said serde config h c conn) (hi : ConnInv serde config h c conn)
    (hd : DeniedInv serde config conn) (hin : conn.inbound <+: conn'.inbound)
    (hw : Writes serde config c conn conn' es) : Said serde config (h ++ es) c conn' := by
  have hleft : ∀ {e : Event}, e ∈ h → e ∈ h ++ es := fun hmem ↦ List.mem_append_left _ hmem
  cases hw with
  | quiet hq hes =>
    refine ⟨fun hne ↦ ?_, fun hne ↦ ?_, fun res hmem ↦ ?_⟩
    · rw [hq.outbound] at hne ⊢
      obtain ⟨auth, frame, hfirst, hframe, hpre, hor⟩ := hs.written hne
      exact ⟨auth, frame, hfirst.of_prefix hin, hframe, hpre, hor.imp hleft hq.task⟩
    · rw [hq.outbound]
      rcases hq.driver hne with hne | ⟨auth, ht⟩
      · obtain ⟨auth, hfirst, hrest⟩ := hs.driver hne
        exact ⟨auth, hfirst.of_prefix hin, hrest⟩
      · obtain ⟨hfirst, hvalid⟩ := hi.first auth (by rw [ht]; rfl)
        have hframe := (hi.answered auth (by rw [ht]; rfl)).2
        exact ⟨auth, hfirst.of_prefix hin, hvalid, by rw [verdict_of_valid hvalid, hframe]⟩
    · rcases List.mem_append.mp hmem with hmem | hmem
      · obtain ⟨auth, hfirst, heq⟩ := hs.reported res hmem
        exact ⟨auth, hfirst.of_prefix hin, heq⟩
      · exact absurd hmem (hes res)
  | @answer res task frame bs hans hframe hout hdr hend =>
    obtain ⟨hnil, auth, hfirst, rfl⟩ := due_of_answer hi hd hans
    rw [hnil, List.nil_append] at hout
    refine ⟨fun _ ↦ ⟨auth, frame, hfirst.of_prefix hin, hframe, ?_, ?_⟩, fun hne ↦ ?_,
      fun res hmem ↦ ?_⟩
    · rw [hout]
      rcases hend with ⟨rfl, -⟩ | ⟨hpre, -⟩
      · exact List.prefix_rfl
      · exact hpre
    · rcases hend with ⟨-, rfl⟩ | ⟨-, ht, -⟩
      · exact .inl (List.mem_append_right _ List.mem_cons_self)
      · exact .inr ht
    · -- Where there is a driver, the answer was written before.
      rw [hdr] at hne
      obtain ⟨auth', -, -, hwritten⟩ := hs.driver hne
      exact absurd hnil (writeMessage_ne_nil hwritten)
    · rcases List.mem_append.mp hmem with hmem | hmem
      · obtain ⟨auth', hfirst', heq⟩ := hs.reported res hmem
        exact ⟨auth', hfirst'.of_prefix hin, heq⟩
      · rcases hend with ⟨-, rfl⟩ | ⟨-, -, rfl⟩
        · obtain ⟨-, rfl⟩ := Event.answered.inj (List.mem_singleton.mp hmem)
          exact ⟨auth, hfirst.of_prefix hin, rfl⟩
        · cases hmem

end Said

theorem AllSaid.step (hs : AllSaid serde config h s) (hg : Gate serde config h s)
    (hf : FailedAuth serde config s) (hstep : Control.step serde config s a = some (t, es)) :
    AllSaid serde config (h ++ es) t where
  conn c conn' hc' := by
    cases hc : s.conns c with
    | none =>
      rw [fresh_of_step hstep hc hc']
      refine .fresh fun res hmem ↦ ?_
      rcases List.mem_append.mp hmem with hmem | hmem
      · exact hs.known c res hmem hc
      · obtain ⟨conn, -, hc₀, -⟩ := answered_of_step hstep hmem
        rw [hc] at hc₀
        cases hc₀
    | some conn =>
      obtain ⟨conn'', hc'', hin, hw⟩ := writes_of_step hstep hc
      obtain rfl := Option.some.inj (hc''.symm.trans hc')
      exact (hs.conn c conn hc).step (hg.conn c conn hc) (hf.denied c conn hc) hin hw
  known c res hmem := by
    rcases List.mem_append.mp hmem with hmem | hmem
    · obtain ⟨conn, hc⟩ := Option.ne_none_iff_exists'.mp (hs.known c res hmem)
      obtain ⟨conn', hc', -⟩ := inbound_of_step hstep hc
      simp [hc']
    · obtain ⟨-, conn', -, hc', -⟩ := answered_of_step hstep hmem
      simp [hc']

theorem AllSaid.of_reach (hr : (machine serde config routes).Reach h s) :
    AllSaid serde config h s := by
  refine hr.invariant (P := AllSaid serde config) ⟨fun c conn hc ↦ ?_, fun c res hmem ↦ ?_⟩
    fun h s a t es hr hs hstep ↦ hs.step (.of_reach hr) (.of_reach hr) hstep
  · cases hc
  · cases hmem

/-- With a driver, nothing is written on the connection itself any more. -/
theorem outbound_of_driver {conn' : Conn} (hr : (machine serde config routes).Reach h s)
    (hc : s.conns c = some conn) (hw : Writes serde config c conn conn' es)
    (hd : conn.driver ≠ none) : conn'.outbound = conn.outbound := by
  cases hw with
  | quiet hq => exact hq.outbound
  | answer hans =>
    obtain ⟨auth, -, -, hwritten⟩ := ((AllSaid.of_reach hr).conn c conn hc).driver hd
    have hnil := (due_of_answer ((Gate.of_reach hr).conn c conn hc)
      ((FailedAuth.of_reach hr).denied c conn hc) hans).1
    exact absurd hnil (writeMessage_ne_nil hwritten)

/-! ## What the server has heard -/

variable (serde) in
/-- What becomes of the inbound side of connection `c` in step `a`. -/
structure Hears (c : ConnId) (a : Act) (conn conn' : Conn) : Prop where
  inbound : (∀ bs, a ≠ .recv c bs) → conn'.inbound = conn.inbound
  unexpected : conn'.task = .done .unexpected → conn.task = .done .unexpected ∨
    ∃ m rest, readMessage serde conn'.inbound = (.ok m, rest) ∧ ∀ auth, m ≠ .authReq auth

namespace Hears

theorem refl (conn : Conn) : Hears serde c a conn conn := ⟨fun _ ↦ rfl, .inl⟩

theorem abortDriver (conn' : Conn) (hr : Hears serde c a conn conn') :
    Hears serde c a conn conn'.abortDriver := ⟨hr.inbound, hr.unexpected⟩

theorem move {conn' : Conn} (hin : conn'.inbound = conn.inbound)
    (hne : conn'.task ≠ .done .unexpected) : Hears serde c a conn conn' :=
  ⟨fun _ ↦ hin, fun ht ↦ absurd ht hne⟩

end Hears

theorem onFirstFrame_eq_unexpected {r : Except ProtocolError Message}
    (h : onFirstFrame config r = .done .unexpected) :
    ∃ m, r = .ok m ∧ ∀ auth, m ≠ .authReq auth := by
  rcases r with e | m
  · cases h
  · refine ⟨m, rfl, fun auth hm ↦ ?_⟩
    subst hm
    rw [onFirstFrame] at h
    split at h <;> cases h

/-- **One step and the inbound side of any connection.** -/
theorem hears_of_step {conn' : Conn} (hstep : step serde config s a = some (t, es))
    (hc : s.conns c = some conn) (hc' : t.conns c = some conn') : Hears serde c a conn conn' := by
  cases step_transition hstep with
  | accept hc₀ => exact rel_accept Hears.refl hc rfl hc₀ hc'
  | recv hc₀ =>
    exact rel_setConn Hears.refl hc rfl hc₀ hc' fun hcc ↦
      ⟨fun hne ↦ absurd (by rw [hcc]) (hne _), .inl⟩
  | peerClose hc₀ | driver hc₀ =>
    exact rel_setConn Hears.refl hc rfl hc₀ hc' fun _ ↦ ⟨fun _ ↦ rfl, .inl⟩
  | readFrame hc₀ =>
    refine rel_setConn Hears.refl hc rfl hc₀ hc' fun _ ↦ ⟨fun _ ↦ rfl, fun ht ↦ .inr ?_⟩
    obtain ⟨m, hm, hne⟩ := onFirstFrame_eq_unexpected ht
    exact ⟨m, _, Prod.ext hm rfl, hne⟩
  | readEnds hc₀ ht ho =>
    refine rel_setConn Hears.refl hc rfl hc₀ hc' fun _ ↦ .move rfl ?_
    rcases ho with ⟨-, rfl⟩ | ⟨-, rfl⟩ <;> exact fun h ↦ by cases h
  | answered hc₀ hans =>
    refine rel_setConn Hears.refl hc rfl hc₀ hc' fun _ ↦ .move rfl ?_
    rcases answer_eq_some hans with ⟨auth, -, -, rfl⟩ | ⟨auth, -, -, rfl⟩ <;>
      exact fun h ↦ by cases h
  | readRoute hc₀ ht htask =>
    refine rel_setConn Hears.refl hc rfl hc₀ hc' fun _ ↦ .move rfl ?_
    rcases htask with rfl | rfl <;> exact fun h ↦ by cases h
  | insertOccupied hc₀ | abortOwn hc₀ =>
    exact rel_abortDriver Hears.abortDriver hc' fun conn' hc' ↦
      rel_setConn Hears.refl hc rfl hc₀ hc' fun _ ↦ .move rfl fun h ↦ by cases h
  | writeEnds hc₀ | countFailed hc₀ | spawnDriver hc₀ | refuse hc₀ | check hc₀ | fetchSession hc₀
  | insertVacant hc₀ | writeRoute hc₀ | join hc₀ | unregister hc₀ =>
    exact rel_setConn Hears.refl hc rfl hc₀ hc' fun _ ↦ .move rfl fun h ↦ by cases h

theorem recv_spec {bs : Bytes} (hstep : step serde config s (.recv c bs) = some (t, es))
    (hc : s.conns c = some conn) :
    t = s.setConn c { conn with inbound := conn.inbound ++ bs } := by
  simp only [step, Act.conn, hc] at hstep
  split at hstep
  · cases hstep
  · exact (Prod.mk.inj (Option.some.inj hstep)).1.symm

/-- Where the server has given up on the first frame for what it is, there is a frame of another
kind. -/
theorem exists_of_unexpected (hr : (machine serde config routes).Reach h s)
    (hc : s.conns c = some conn) (ht : conn.task = .done .unexpected) :
    ∃ m rest, readMessage serde conn.inbound = (.ok m, rest) ∧ ∀ auth, m ≠ .authReq auth := by
  refine hr.invariant (P := fun _ s ↦ ∀ c conn, s.conns c = some conn →
    conn.task = .done .unexpected → ∃ m rest, readMessage serde conn.inbound = (.ok m, rest) ∧
      ∀ auth, m ≠ .authReq auth) (fun c conn hc ↦ by cases hc) ?_ c conn hc ht
  intro h s a t es hr hi hstep c conn' hc' ht
  cases hc : s.conns c with
  | none =>
    rw [fresh_of_step hstep hc hc'] at ht
    cases ht
  | some conn =>
    rcases (hears_of_step hstep hc hc').unexpected ht with ht₀ | hframe
    · obtain ⟨m, rest, hread, hne⟩ := hi c conn hc ht₀
      obtain ⟨conn'', hc'', bs, hbs⟩ := inbound_of_step hstep hc
      obtain rfl := Option.some.inj (hc''.symm.trans hc')
      exact ⟨m, rest ++ bs, hbs ▸ readMessage_append hread (by simp) bs, hne⟩
    · exact hframe

end Control

end ZoTunnel
