import ZoTunnel.Server.Exclusive

/-!
# Sessions

The driver of a connection, as it runs among all tasks, is the driver of `Driver.machine`: started
once, with the heartbeat support of the request in the first frame, and moved by its own steps and
by requests to abort. So what is proved of a driver in every run holds of every session of the
server, with the events that the session has reported.
-/

namespace ZoTunnel

namespace Control

variable {serde : SerdeJson} {config : ServerConfig} {routes : RouteFiles} {h : List Event}
  {s t : State} {a : Act} {es : List Event} {c : ConnId} {conn : Conn} {d : Driver}

variable (serde) in
/-- The driver of a connection is one that was started for the request in its first frame. -/
def RunsDriver (h : List Event) (c : ConnId) (conn : Conn) (d : Driver) : Prop :=
  ∃ auth now, FirstFrame serde conn auth ∧
    (Driver.machine auth.supportsHeartbeat now).Reach (driverEvents c h) d

namespace RunsDriver

theorem append (hi : RunsDriver serde h c conn d) {conn' : Conn}
    (hin : conn.inbound <+: conn'.inbound) (hes : driverEvents c es = []) :
    RunsDriver serde (h ++ es) c conn' d := by
  obtain ⟨auth, now, ⟨rest, hread⟩, hr⟩ := hi
  obtain ⟨bs, hbs⟩ := hin
  obtain ⟨rest', hread'⟩ := FirstFrame.append ⟨rest, hread⟩ bs
  refine ⟨auth, now, ⟨rest', hbs ▸ hread'⟩, ?_⟩
  rw [driverEvents_append, hes, List.append_nil]
  exact hr

theorem abort (hi : RunsDriver serde h c conn d) :
    RunsDriver serde h c conn.abortDriver { d with abortRequested := true } := by
  obtain ⟨auth, now, hfirst, hr⟩ := hi
  have hstep : (Driver.machine auth.supportsHeartbeat now).step d .abort =
      some ({ d with abortRequested := true }, []) := rfl
  have := hr.step hstep
  rw [List.append_nil] at this
  exact ⟨auth, now, hfirst, this⟩

end RunsDriver

/-- The drivers of all connections, and the connections that have none. -/
structure Sessions (serde : SerdeJson) (h : List Event) (s : State) : Prop where
  running : ∀ c conn d, s.conns c = some conn → conn.driver = some d →
    RunsDriver serde h c conn d
  silent : ∀ c, (∀ conn, s.conns c = some conn → conn.driver = none) → driverEvents c h = []

namespace Sessions

/-- The connection that a step is about, before an abort. -/
private theorem acting (hi : Sessions serde h s) (hg : Gate serde config h s) (hd : Drivers h s)
    {conn' : Conn} {ds : List Driver.Event} (hc : s.conns a.conn = some conn)
    (hm : DriverMove a conn conn' ds) (hin : conn.inbound <+: conn'.inbound)
    (hes : driverEvents a.conn es = ds) :
    (∀ d, conn'.driver = some d → RunsDriver serde (h ++ es) a.conn conn' d) ∧
      (conn'.driver = none → driverEvents a.conn (h ++ es) = []) := by
  cases hm with
  | same hsame =>
    refine ⟨fun d hdr ↦ (hi.running _ conn d hc (hsame ▸ hdr)).append hin hes, fun hnone ↦ ?_⟩
    rw [driverEvents_append, hes, List.append_nil]
    refine hi.silent _ fun conn₀ hc₀ ↦ ?_
    rw [hc, Option.some.injEq] at hc₀
    rw [← hc₀, ← hsame, hnone]
  | @spawned auth now ht ht' hdr =>
    have hnone : conn.driver = none := by
      have := (hd.conn _ conn hc).spawned
      rw [ht] at this
      exact Option.isNone_iff_eq_none.mp (Option.isSome_eq_false_iff.mp this)
    have hsilent := hi.silent a.conn fun conn₀ hc₀ ↦ by
      rw [hc, Option.some.injEq] at hc₀
      rw [← hc₀, hnone]
    obtain ⟨rest, hread⟩ := ((hg.conn _ conn hc).first auth (by rw [ht]; rfl)).1
    obtain ⟨bs, hbs⟩ := hin
    obtain ⟨rest', hread'⟩ := FirstFrame.append ⟨rest, hread⟩ bs
    refine ⟨fun d hd' ↦ ⟨auth, now, ⟨rest', hbs ▸ hread'⟩, ?_⟩, fun hnone' ↦ ?_⟩
    · rw [hdr, Option.some.injEq] at hd'
      rw [driverEvents_append, hsilent, hes, ← hd']
      exact .init
    · rw [hdr] at hnone'
      cases hnone'
  | @stepped c b d d' ds ha hb hdr hstep hconn' =>
    obtain ⟨auth, now, hfirst, hr⟩ := hi.running _ conn d hc hdr
    subst hconn'
    refine ⟨fun d₁ hd₁ ↦ ⟨auth, now, hfirst, ?_⟩, nofun⟩
    rw [Option.some.injEq] at hd₁
    rw [driverEvents_append, hes, ← hd₁]
    exact hr.step hstep

/-- **The step lemma.** -/
theorem step (hi : Sessions serde h s) (hg : Gate serde config h s) (hd : Drivers h s)
    (hstep : step serde config s a = some (t, es)) : Sessions serde (h ++ es) t := by
  obtain ⟨conn₁, o, ds, hm, -, hes⟩ := step_conns hstep
  -- First without the abort.
  have hbase : ∀ c, (∀ conn d, (if c = a.conn then some conn₁ else s.conns c) = some conn →
      conn.driver = some d → RunsDriver serde (h ++ es) c conn d) ∧
      ((∀ conn, (if c = a.conn then some conn₁ else s.conns c) = some conn →
        conn.driver = none) → driverEvents c (h ++ es) = []) := by
    intro c
    by_cases hca : c = a.conn
    · subst hca
      rw [if_pos rfl]
      have hds : driverEvents a.conn es = ds := by rw [hes, if_pos rfl]
      cases hc : s.conns a.conn with
      | none =>
        obtain ⟨hconn₁, hnil⟩ := hm.fresh hc
        refine ⟨fun conn d heq hdr ↦ ?_, fun _ ↦ ?_⟩
        · rw [Option.some.injEq] at heq
          rw [← heq, hconn₁] at hdr
          cases hdr
        · rw [driverEvents_append, hds, hnil, List.append_nil]
          exact hi.silent _ fun conn hc' ↦ (by rw [hc] at hc'; cases hc')
      | some conn =>
        obtain ⟨hrun, hnone⟩ := hi.acting hg hd hc (hm.driver conn hc) (hm.inbound conn hc) hds
        refine ⟨fun conn d heq hdr ↦ ?_, fun hall ↦ hnone (hall conn₁ rfl)⟩
        rw [Option.some.injEq] at heq
        exact heq ▸ hrun d (heq ▸ hdr)
    · simp only [if_neg hca]
      have hds : driverEvents c es = [] := by rw [hes, if_neg hca]
      refine ⟨fun conn d hc hdr ↦ (hi.running c conn d hc hdr).append List.prefix_rfl hds,
        fun hnone ↦ ?_⟩
      rw [driverEvents_append, hds, hi.silent c hnone, List.append_nil]
  refine ⟨fun c conn d hc hdr ↦ ?_, fun c hnone ↦ (hbase c).2 fun conn hc ↦ ?_⟩
  · rw [hm.conns] at hc
    split at hc
    · obtain ⟨conn₀, hc₀, rfl⟩ := Option.map_eq_some_iff.mp hc
      obtain ⟨d₀, hd₀, rfl⟩ := Option.map_eq_some_iff.mp hdr
      exact ((hbase c).1 conn₀ d₀ hc₀ hd₀).abort
    · exact (hbase c).1 conn d hc hdr
  · have hct := hm.conns c
    rw [hc] at hct
    split at hct
    · have := hnone _ hct
      rwa [Conn.abortDriver, Option.map_eq_none_iff] at this
    · exact hnone conn hct

/-- **The run lemma.** -/
theorem of_reach (hr : (machine serde config routes).Reach h s) : Sessions serde h s :=
  hr.invariant ⟨fun _ _ _ hc ↦ (by cases hc), fun _ _ ↦ rfl⟩
    fun _ _ _ _ _ hr hi hstep ↦ hi.step (.of_reach hr) (.of_reach hr) hstep

end Sessions

/-- **Every session runs a driver.** -/
theorem driver_reach (hr : (machine serde config routes).Reach h s) (hc : s.conns c = some conn)
    (hd : conn.driver = some d) : ∃ auth now, FirstFrame serde conn auth ∧
      (Driver.machine auth.supportsHeartbeat now).Reach (driverEvents c h) d :=
  (Sessions.of_reach hr).running c conn d hc hd

end Control

end ZoTunnel
