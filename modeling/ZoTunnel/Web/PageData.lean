import ZoTunnel.Web.Page

/-!
# What a page has from its answers

A page makes requests under new numbers, and every handler waits for a request to the endpoint that
it needs. What the page shows, it has from an answer to such a request: the dashboard itself, the
numbers above the table, and the numbers of a client.
-/

namespace ZoTunnel

namespace DashboardPage

open Dashboard (Endpoint Reply ClientInfo StatusResponse MetricsSnapshot)

variable {s t u : State} {a : Act} {es es' : List Event} {f : FetchId} {r : Response} {w : Await}
  {n : RefreshId} {part : Part} {e : Endpoint} {reply : Reply} {c : ClientInfo}

/-! ## Requests -/

/-- The handler waits for a request to this endpoint. -/
def Await.asks : Await → Endpoint → Bool
  | checkAuth, .authCheck => true
  | login, .login (some _) => true
  | logout, .logout => true
  | refresh _ part, e => e = part.endpoint
  | _, _ => false

/-- What the requests of a step are, and who waits for them. -/
structure Calls (s t : State) (es : List Event) : Prop where
  next : s.nextFetch ≤ t.nextFetch
  old : ∀ f w, t.fetches f = some w → s.fetches f = some w ∨ s.nextFetch ≤ f
  made : ∀ f e, .fetch f e ∈ es → s.nextFetch ≤ f ∧ f < t.nextFetch ∧
    ∀ w, t.fetches f = some w → w.asks e = true

namespace Calls

theorem refl (hfetches : ∀ f w, t.fetches f = some w → s.fetches f = some w)
    (hnext : t.nextFetch = s.nextFetch) (hes : ∀ f e, .fetch f e ∉ es) : Calls s t es :=
  ⟨hnext.ge, fun f w hf ↦ .inl (hfetches f w hf), fun f e he ↦ absurd he (hes f e)⟩

theorem trans (hs : Calls s t es) (ht : Calls t u es') : Calls s u (es ++ es') := by
  refine ⟨hs.next.trans ht.next, fun f w hf ↦ ?_, fun f e hmem ↦ ?_⟩
  · rcases ht.old f w hf with hf | hle
    · exact hs.old f w hf
    · exact .inr (hs.next.trans hle)
  · rcases List.mem_append.mp hmem with hmem | hmem
    · obtain ⟨hle, hlt, hask⟩ := hs.made f e hmem
      refine ⟨hle, hlt.trans_le ht.next, fun w hf ↦ ?_⟩
      rcases ht.old f w hf with hf | hle'
      · exact hask w hf
      · exact absurd hlt hle'.not_gt
    · obtain ⟨hle, hlt, hask⟩ := ht.made f e hmem
      exact ⟨hs.next.trans hle, hlt, hask⟩

theorem call (hw : w.asks e = true) : Calls s (call s w e).1 (call s w e).2 := by
  refine ⟨Nat.le_succ _, fun f w' hf ↦ ?_, fun f e' hmem ↦ ?_⟩
  · rw [call_fetches] at hf
    split at hf
    · rename_i hnew
      exact .inr hnew.ge
    · exact .inl hf
  · obtain ⟨rfl, rfl⟩ := Event.fetch.inj (List.mem_singleton.mp hmem)
    refine ⟨le_rfl, Nat.lt_succ_self _, fun w' hf ↦ ?_⟩
    rw [call_fetches, if_pos rfl] at hf
    rwa [← Option.some.inj hf]

theorem congr (hs : Calls s t es) (hfetches : u.fetches = t.fetches)
    (hnext : u.nextFetch = t.nextFetch) : Calls s u es :=
  ⟨hnext ▸ hs.next, hfetches ▸ hs.old, by rw [hfetches, hnext]; exact hs.made⟩

theorem congr_left (hs : Calls s t es) (hfetches : u.fetches = s.fetches)
    (hnext : u.nextFetch = s.nextFetch) : Calls u t es :=
  ⟨hnext ▸ hs.next, by rw [hfetches, hnext]; exact hs.old, by rw [hnext]; exact hs.made⟩

theorem startRefresh : Calls s (startRefresh s).1 (startRefresh s).2 := by
  have hcall : ∀ part s', Calls s' (DashboardPage.call s' (.refresh s.nextRefresh part)
      part.endpoint).1 (DashboardPage.call s' (.refresh s.nextRefresh part) part.endpoint).2 :=
    fun part _ ↦ call (decide_eq_true rfl)
  exact (((hcall .status _).trans (hcall .clients _)).trans (hcall .metrics _)).congr_left rfl rfl

theorem showDashboard : Calls s (showDashboard s).1 (showDashboard s).2 := by
  have hrefresh : Calls { s with loginShown := false, dashboardShown := true }
      (DashboardPage.startRefresh { s with loginShown := false, dashboardShown := true }).1
      (DashboardPage.startRefresh { s with loginShown := false, dashboardShown := true }).2 :=
    startRefresh
  exact (hrefresh.congr (u := (DashboardPage.showDashboard s).1) rfl rfl).congr_left rfl rfl

end Calls

theorem fetches_reject (s : State) (n : RefreshId) (offline : Bool) :
    (reject s n offline).fetches = s.fetches ∧ (reject s n offline).nextFetch = s.nextFetch := by
  rw [reject]
  split <;> exact ⟨rfl, rfl⟩

theorem fetches_complete (s : State) (n : RefreshId) (rf : Refresh) :
    (complete s n rf).fetches = s.fetches ∧ (complete s n rf).nextFetch = s.nextFetch := by
  rw [complete]
  split <;> exact ⟨rfl, rfl⟩

theorem Settled.calls (ht : Settled s f r w t es) : Calls s t es := by
  cases ht with
  | toLogin | notLoggedIn | late => exact .refl (fun _ _ h ↦ h) rfl (by simp)
  | checked => exact Calls.showDashboard.congr_left rfl rfl
  | loggedIn => exact Calls.showDashboard.congr rfl rfl
  | unauthorized =>
    obtain ⟨hfetches, hnext⟩ := fetches_reject (showLogin s) _ false
    exact .refl (fun _ _ h ↦ hfetches ▸ h) hnext (by simp)
  | broken =>
    obtain ⟨hfetches, hnext⟩ := fetches_reject s _ true
    exact .refl (fun _ _ h ↦ hfetches ▸ h) hnext (by simp)
  | got =>
    obtain ⟨hfetches, hnext⟩ := fetches_complete s _ _
    exact .refl (fun _ _ h ↦ hfetches ▸ h) hnext (by simp)

/-- The requests of a step have new numbers, and their handlers wait for what they need. -/
theorem calls_of_step (hstep : step s a = some (t, es)) : Calls s t es := by
  cases step_transition hstep with
  | blank => exact .refl (fun _ _ h ↦ h) rfl (by simp)
  | submit => exact (Calls.call rfl).congr_left rfl rfl
  | logout => exact Calls.call rfl
  | tick => exact Calls.startRefresh
  | @settle f _ _ _ _ _ ht =>
    have hsettled : Calls s (s.settled f) [] := by
      refine .refl (fun f' w hf' ↦ ?_) rfl (by simp)
      rw [settled_fetches] at hf'
      split at hf'
      · cases hf'
      · exact hf'
    exact hsettled.trans ht.calls

theorem submit_of_fetch {token : Option String} (hstep : step s a = some (t, es))
    (hmem : .fetch f (.login token) ∈ es) :
    ∃ raw, a = .submit raw ∧ token = some (trim raw) := by
  have hrefresh : ∀ s : State, .fetch f (.login token) ∉ (startRefresh s).2 := by
    intro s hmem
    simp [startRefresh, call] at hmem
  cases step_transition hstep with
  | blank => cases hmem
  | @submit raw =>
    obtain ⟨-, htoken⟩ := Event.fetch.inj (List.mem_singleton.mp hmem)
    exact ⟨raw, rfl, Endpoint.login.inj htoken⟩
  | logout => simp at hmem
  | tick => exact absurd hmem (hrefresh _)
  | settle _ ht =>
    cases ht with
    | checked => exact absurd hmem (hrefresh _)
    | loggedIn => exact absurd hmem (hrefresh _)
    | toLogin | notLoggedIn | unauthorized | late | broken | got => simp at hmem

/-! ## Answers -/

/-- The data of an answer is with the page: a refresh has it and waits for the rest, or the page
shows it above the table. -/
inductive Holds (s : State) : Reply → Prop
  | status {n : RefreshId} {rf : Refresh} {data : StatusResponse} (hn : s.refreshes n = some rf)
      (hdata : rf.status = some data) : Holds s (.status data)
  | clients {n : RefreshId} {rf : Refresh} {data : List ClientInfo} (hn : s.refreshes n = some rf)
      (hdata : rf.clients = some data) : Holds s (.clients data)
  | metrics {n : RefreshId} {rf : Refresh} {data : MetricsSnapshot}
      (hn : s.refreshes n = some rf) (hdata : rf.metrics = some data) : Holds s (.metrics data)
  | statusShown {data : StatusResponse} {metrics : MetricsSnapshot}
      (hstats : s.stats = some (data, metrics)) : Holds s (.status data)
  | metricsShown {status : StatusResponse} {data : MetricsSnapshot}
      (hstats : s.stats = some (status, data)) : Holds s (.metrics data)

theorem Holds.congr (h : Holds s reply) (hrefreshes : t.refreshes = s.refreshes)
    (hstats : t.stats = s.stats) : Holds t reply := by
  cases h with
  | status hn hdata => exact .status (hrefreshes ▸ hn) hdata
  | clients hn hdata => exact .clients (hrefreshes ▸ hn) hdata
  | metrics hn hdata => exact .metrics (hrefreshes ▸ hn) hdata
  | statusShown hs => exact .statusShown (hstats ▸ hs)
  | metricsShown hs => exact .metricsShown (hstats ▸ hs)

/-- A row of the table shows the numbers of this client. -/
def Shows (s : State) (c : ClientInfo) : Prop := ∃ node, s.table.shown node = some c

/-- What a page has after a step, it had before, or the step has brought it. -/
structure Brings (s t : State) (new : Reply → Prop) : Prop where
  holds : ∀ reply, Holds t reply → Holds s reply ∨ new reply
  shows : ∀ c, Shows t c →
    Shows s c ∨ ∃ data, c ∈ data ∧ (Holds s (.clients data) ∨ new (.clients data))

namespace Brings

variable {new new' : Reply → Prop}

theorem congr_left (hs : Brings s t new) (hrefreshes : s.refreshes = u.refreshes)
    (hstats : s.stats = u.stats) (htable : s.table = u.table) : Brings u t new := by
  have hheld : ∀ {reply}, Holds s reply → Holds u reply :=
    fun h ↦ h.congr hrefreshes.symm hstats.symm
  refine ⟨fun reply h ↦ (hs.holds reply h).imp_left hheld, fun c hc ↦ ?_⟩
  rcases hs.shows c hc with ⟨node, hnode⟩ | ⟨data, hmem, hdata⟩
  · exact .inl ⟨node, htable ▸ hnode⟩
  · exact .inr ⟨data, hmem, hdata.imp_left hheld⟩

theorem mono (hs : Brings s t new) (hnew : ∀ reply, new reply → new' reply) : Brings s t new' := by
  refine ⟨fun reply h ↦ (hs.holds reply h).imp_right (hnew reply), fun c hc ↦ ?_⟩
  exact (hs.shows c hc).imp_right fun ⟨data, hmem, hdata⟩ ↦
    ⟨data, hmem, hdata.imp_right (hnew _)⟩

theorem refl (hrefreshes : ∀ n rf, t.refreshes n = some rf → s.refreshes n = some rf ∨ rf = {})
    (hstats : t.stats = s.stats) (hshown : t.table.shown = s.table.shown) : Brings s t new := by
  refine ⟨fun reply hreply ↦ .inl ?_, fun c ⟨node, hnode⟩ ↦ .inl ⟨node, by rwa [← hshown]⟩⟩
  cases hreply with
  | status hn hdata =>
    rcases hrefreshes _ _ hn with hn | rfl
    · exact .status hn hdata
    · cases hdata
  | clients hn hdata =>
    rcases hrefreshes _ _ hn with hn | rfl
    · exact .clients hn hdata
    · cases hdata
  | metrics hn hdata =>
    rcases hrefreshes _ _ hn with hn | rfl
    · exact .metrics hn hdata
    · cases hdata
  | statusShown hs => exact .statusShown (hstats ▸ hs)
  | metricsShown hs => exact .metricsShown (hstats ▸ hs)

theorem start (hrefreshes : t.refreshes = Function.update s.refreshes s.nextRefresh (some {}))
    (hstats : t.stats = s.stats) (htable : t.table = s.table) : Brings s t new := by
  refine refl (fun n rf hn ↦ ?_) hstats (congrArg _ htable)
  rw [hrefreshes, Function.update_apply] at hn
  split at hn
  · exact .inr (Option.some.inj hn).symm
  · exact .inl hn

theorem drop {n : RefreshId} (hrefreshes : t.refreshes = Function.update s.refreshes n none)
    (hstats : t.stats = s.stats) (hshown : t.table.shown = s.table.shown) : Brings s t new := by
  refine refl (fun n' rf hn ↦ ?_) hstats hshown
  rw [hrefreshes, Function.update_apply] at hn
  split at hn
  · cases hn
  · exact .inl hn

theorem reject (n : RefreshId) (offline : Bool) : Brings s (reject s n offline) new := by
  rw [DashboardPage.reject]
  split
  · exact refl (fun _ _ hn ↦ .inl hn) rfl rfl
  · refine drop (n := n) rfl rfl ?_
    cases offline <;> rfl

end Brings

/-- Every result of a refresh was there before, or is the answer that comes in. -/
theorem put_cases {rf rf' : Refresh} (hput : rf.put part r = some rf') :
    (∀ data, rf'.status = some data → rf.status = some data ∨ r = .answer (.status data)) ∧
    (∀ data, rf'.clients = some data → rf.clients = some data ∨ r = .answer (.clients data)) ∧
    ∀ data, rf'.metrics = some data → rf.metrics = some data ∨ r = .answer (.metrics data) := by
  rw [Refresh.put.eq_def] at hput
  split at hput <;> cases hput <;> simp

/-- A row that shows the numbers of a client after a loop showed them before, or the loop has been
through the client. -/
theorem shown_forEach {data : List ClientInfo} {node : ℕ} :
    ∀ {l : ClientsTable.Loop}, (ClientsTable.forEach data l).1.page.shown node = some c →
      l.page.shown node = some c ∨ c ∈ data := by
  induction data with
  | nil => exact .inl
  | cons c' data ih =>
    intro l h
    -- A row is updated, and the loop goes on.
    have hgo : ∀ {l' : ClientsTable.Loop} {node' : ℕ},
        l'.page.shown = Function.update l.page.shown node' (some c') →
        (ClientsTable.forEach data l').1.page.shown node = some c →
        l.page.shown node = some c ∨ c ∈ c' :: data := by
      intro l' node' hshown hrest
      rcases ih hrest with hl | hmem
      · rw [hshown, Function.update_apply] at hl
        split at hl
        · exact .inr (Option.some.inj hl ▸ List.mem_cons_self)
        · exact .inl hl
      · exact .inr (List.mem_cons_of_mem _ hmem)
    rw [ClientsTable.forEach] at h
    split at h
    · exact .inl h
    · exact hgo rfl h
    · exact hgo rfl h

theorem shown_refresh {table : ClientsTable.Page} {data : List ClientInfo} {node : ℕ}
    (h : (ClientsTable.refresh table (.clients data)).shown node = some c) :
    table.shown node = some c ∨ c ∈ data := by
  change (ClientsTable.updateTable table data).1.shown node = some c at h
  rw [ClientsTable.updateTable] at h
  split at h
  · exact .inl h
  · have hloop : ∀ {page : ClientsTable.Page} {existing : List (String × ClientsTable.Row)},
        (ClientsTable.forEach data ⟨page, existing, none⟩).1.page.shown node = some c →
        page.shown = table.shown → table.shown node = some c ∨ c ∈ data := by
      intro page existing hnode hpage
      rw [← hpage]
      exact shown_forEach hnode
    dsimp only at h
    split at h
    · split at h <;> exact hloop h rfl
    · split at h <;> exact hloop h rfl

/-- A refresh gets a result, be it the last one or not. -/
theorem Brings.complete {rf rf' : Refresh} (hn : s.refreshes n = some rf)
    (hput : rf.put part r = some rf') :
    Brings s (complete s n rf') fun reply ↦ r = .answer reply := by
  obtain ⟨hstatus, hclients, hmetrics⟩ := put_cases hput
  rw [DashboardPage.complete]
  split
  · -- The last result is there: the refresh is over, and all three are shown.
    rename_i status clients metrics hs hc hm
    refine ⟨fun reply hreply ↦ ?_, fun c hshow ↦ ?_⟩
    · have hold : ∀ n' rf₀, Function.update s.refreshes n none n' = some rf₀ →
          s.refreshes n' = some rf₀ := by
        intro n' rf₀ hn'
        rw [Function.update_apply] at hn'
        split at hn'
        · cases hn'
        · exact hn'
      cases hreply with
      | status hn' hdata => exact .inl (.status (hold _ _ hn') hdata)
      | clients hn' hdata => exact .inl (.clients (hold _ _ hn') hdata)
      | metrics hn' hdata => exact .inl (.metrics (hold _ _ hn') hdata)
      | statusShown hstats =>
        obtain ⟨rfl, -⟩ := Prod.mk.inj (Option.some.inj hstats)
        exact (hstatus _ hs).imp_left (.status hn)
      | metricsShown hstats =>
        obtain ⟨-, rfl⟩ := Prod.mk.inj (Option.some.inj hstats)
        exact (hmetrics _ hm).imp_left (.metrics hn)
    · obtain ⟨node, hnode⟩ := hshow
      rcases shown_refresh hnode with hold | hmem
      · exact .inl ⟨node, hold⟩
      · exact .inr ⟨clients, hmem, (hclients _ hc).imp_left (.clients hn)⟩
  · have hput : ∀ n' rf₀, Function.update s.refreshes n (some rf') n' = some rf₀ →
        rf₀ = rf' ∨ s.refreshes n' = some rf₀ := by
      intro n' rf₀ hn'
      rw [Function.update_apply] at hn'
      split at hn'
      · exact .inl (Option.some.inj hn').symm
      · exact .inr hn'
    refine ⟨fun reply hreply ↦ ?_, fun c hc ↦ .inl hc⟩
    cases hreply with
    | status hn' hdata =>
      rcases hput _ _ hn' with rfl | hold
      · exact (hstatus _ hdata).imp_left (.status hn)
      · exact .inl (.status hold hdata)
    | clients hn' hdata =>
      rcases hput _ _ hn' with rfl | hold
      · exact (hclients _ hdata).imp_left (.clients hn)
      · exact .inl (.clients hold hdata)
    | metrics hn' hdata =>
      rcases hput _ _ hn' with rfl | hold
      · exact (hmetrics _ hdata).imp_left (.metrics hn)
      · exact .inl (.metrics hold hdata)
    | statusShown hstats => exact .inl (.statusShown hstats)
    | metricsShown hstats => exact .inl (.metricsShown hstats)

/-- What a page has, it has from an answer to a request for it. -/
theorem brings_of_step (hstep : step s a = some (t, es)) :
    Brings s t fun reply ↦ ∃ f n part, a = .settle f (.answer reply) ∧
      s.fetches f = some (.refresh n part) := by
  cases step_transition hstep with
  | blank | submit | logout => exact .refl (fun _ _ hn ↦ .inl hn) rfl rfl
  | tick => exact .start rfl rfl rfl
  | settle hf ht =>
    cases ht with
    | toLogin | notLoggedIn | late => exact .refl (fun _ _ hn ↦ .inl hn) rfl rfl
    | checked | loggedIn => exact .start rfl rfl rfl
    | unauthorized | broken => exact (Brings.reject _ _).congr_left rfl rfl rfl
    | @got n part _ _ hn hput =>
      refine ((Brings.complete hn hput).congr_left (u := s) rfl rfl rfl).mono fun reply hr ↦ ?_
      exact ⟨_, n, part, by rw [hr], hf⟩

/-- The dashboard is shown when an answer lets the page in. -/
theorem entered_of_step (hstep : step s a = some (t, es)) (hshown : t.dashboardShown = true) :
    s.dashboardShown = true ∨ ∃ f r w, a = .settle f r ∧ s.fetches f = some w ∧
      r.refuses w = false := by
  have hreject : ∀ {s : State} {n : RefreshId} {offline : Bool},
      (reject s n offline).dashboardShown = s.dashboardShown := by
    intro s n offline
    rw [reject]
    split <;> rfl
  have hcomplete : ∀ {s : State} {n : RefreshId} {rf : Refresh},
      (complete s n rf).dashboardShown = s.dashboardShown := by
    intro s n rf
    rw [complete]
    split <;> rfl
  cases step_transition hstep with
  | blank | submit | logout | tick => exact .inl hshown
  | settle hf ht =>
    cases ht with
    | toLogin => cases hshown
    | checked hr | loggedIn hr => exact .inr ⟨_, _, _, rfl, hf, hr⟩
    | notLoggedIn | late => exact .inl hshown
    | unauthorized =>
      rw [hreject] at hshown
      cases hshown
    | broken =>
      rw [hreject] at hshown
      exact .inl hshown
    | got =>
      rw [hcomplete] at hshown
      exact .inl hshown

end DashboardPage

end ZoTunnel
