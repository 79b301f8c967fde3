import ZoTunnel.Server.Delivery
import ZoTunnel.Server.Phases
import ZoTunnel.Server.RateLimits

/-!
# The keys of the rate limiter

`handle_proxy_request` asks the rate limiter before it looks for the client, under the id that the
`Host` header names. So the limiter has an entry for every id that anybody has named, whether or not
a client has ever had it (`unregistered_key`), and no entry is taken out again.

Only the requests that come to the proxy and name an id are checked, each under its own id, and
without a limit nothing is stored. That is all that the keys depend on (`limiter_keys`).
-/

namespace ZoTunnel

namespace Proxy

/-- The rate limiter is yet to be asked. -/
def Phase.limits : Phase → Bool
  | limiting .. => true
  | _ => false

/-- A request that names an id has been through the limiter. -/
def Checked (config : ServerConfig) (s : State) (k : String) : Prop :=
  ∃ r q path, s.requests r = some q ∧ serveHttp q.req config.domain = .proxy ∧
    extractRouting q.req config.domain = some (k, path) ∧ q.phase.limits = false

variable {serde : SerdeJson} {config : ServerConfig} {routes : RouteFiles} {h h' : List Event}
  {s t u : State} {a : Act} {es : List Event} {r : ReqId} {q : Request} {k : String}

/-! ## Past the limiter -/

private theorem limits_of_hop {p p' : Phase} (hop : Hop s r a p p') :
    p'.limits = false ∧ (p.limits = true → ∃ now, a = .limit r now) := by
  cases hop with
  | allowed | limited => exact ⟨rfl, fun _ ↦ ⟨_, rfl⟩⟩
  | opened _ hp => rcases hp with rfl | rfl <;> exact ⟨rfl, fun h ↦ by cases h⟩
  | dropped hp =>
    rcases hp with rfl | ⟨t, rfl | ⟨st, rfl | rfl | rfl⟩⟩ <;> exact ⟨rfl, fun h ↦ by cases h⟩
  | _ => exact ⟨rfl, fun h ↦ by cases h⟩

/-! ## The keys -/

/-- What is checked, where one request is replaced that was past the limiter, or that is so now. -/
private theorem checked_update {p : Phase} (hr : s.requests r = some q)
    (hrequests : t.requests = Function.update s.requests r (some { q with phase := p }))
    (hp : p.limits = false) : Checked config t k ↔ Checked config s k ∨
      (serveHttp q.req config.domain = .proxy ∧
        ∃ path, extractRouting q.req config.domain = some (k, path)) := by
  constructor
  · rintro ⟨r', q', path, hr', hserve, hrouting, hlimits⟩
    rw [hrequests, Function.update_apply] at hr'
    split at hr'
    · obtain rfl := Option.some.inj hr'
      exact .inr ⟨hserve, path, hrouting⟩
    · exact .inl ⟨r', q', path, hr', hserve, hrouting, hlimits⟩
  · rintro (⟨r', q', path, hr', hserve, hrouting, hlimits⟩ | ⟨hserve, path, hrouting⟩)
    · by_cases hrr : r' = r
      · subst hrr
        obtain rfl := Option.some.inj (hr.symm.trans hr')
        exact ⟨r', { q with phase := p }, path, by rw [hrequests, Function.update_self], hserve,
          hrouting, hp⟩
      · exact ⟨r', q', path, by rw [hrequests, Function.update_of_ne hrr, hr'], hserve, hrouting,
          hlimits⟩
    · exact ⟨r, { q with phase := p }, path, by rw [hrequests, Function.update_self], hserve,
        hrouting, hp⟩

private theorem checked_arrive {req : HttpRequest} (hr : s.requests r = none) :
    Checked config (arrive config s r req).1 k ↔ Checked config s k := by
  have hold : ∀ {r' q' path}, s.requests r' = some q' → serveHttp q'.req config.domain = .proxy →
      extractRouting q'.req config.domain = some (k, path) → q'.phase.limits = false →
      ∀ {s₀ : State} {q₀ : Request}, s₀.requests = s.requests →
        Checked config (s₀.setRequest r q₀) k := by
    intro r' q' path hr' hserve hrouting hlimits s₀ q₀ hs₀
    refine ⟨r', q', path, ?_, hserve, hrouting, hlimits⟩
    rw [setRequest_requests, hs₀, if_neg]
    · exact hr'
    · rintro rfl
      rw [hr] at hr'
      cases hr'
  rw [arrive]
  constructor
  · rintro ⟨r', q', path, hr', hserve, hrouting, hlimits⟩
    split at hr' <;> rename_i hreq
    · rw [setRequest_requests] at hr'
      split at hr'
      · obtain rfl := Option.some.inj hr'
        rw [hreq] at hserve
        cases hserve
      · exact ⟨r', q', path, hr', hserve, hrouting, hlimits⟩
    · rw [setRequest_requests] at hr'
      split at hr'
      · obtain rfl := Option.some.inj hr'
        rw [hrouting] at hlimits
        cases hlimits
      · exact ⟨r', q', path, hr', hserve, hrouting, hlimits⟩
  · rintro ⟨r', q', path, hr', hserve, hrouting, hlimits⟩
    split
    · exact hold hr' hserve hrouting hlimits rfl
    · exact hold hr' hserve hrouting hlimits rfl

private theorem limiter_arrive (s : State) (r : ReqId) (req : HttpRequest) :
    (arrive config s r req).1.limiter = s.limiter := by
  rw [arrive]
  split <;> rfl

theorem limiter_of_step (hstep : step serde config s a = some (t, es)) :
    t.limiter = s.limiter ∨ ∃ r now q key path, a = .limit r now ∧ s.requests r = some q ∧
      q.phase = .limiting key path ∧ t.limiter = (s.limiter.check key now).2 := by
  cases shift_of_step hstep with
  | control _ _ hlimiter => exact .inl hlimiter
  | arrive _ _ ht => exact .inl (ht ▸ limiter_arrive ..)
  | @hop r q _ hr hops =>
    by_cases hlimit : ∃ now, a = .limit r now
    · obtain ⟨now, ha⟩ := hlimit
      obtain ⟨key, path, hphase, hlimiter⟩ := hops.check now ha
      exact .inr ⟨r, now, q, key, path, ha, hr, hphase, hlimiter⟩
    · exact .inl (hops.limiter (not_exists.mp hlimit))

/-- A check leaves an entry for its key, unless there is no limit, and takes none away. -/
theorem check_ne_none_iff {rl : RateLimiter} {key : String} {now : ℕ} :
    (rl.check key now).2.counters k ≠ none ↔
      rl.counters k ≠ none ∨ rl.maxPerSecond ≠ 0 ∧ k = key := by
  rcases RateLimiter.check_cases rl key now with ⟨hzero, heq⟩ | ⟨hmax, _, start, count, heq, -⟩
  · rw [heq]
    exact (or_iff_left fun h ↦ h.1 hzero).symm
  · rw [heq]
    simp only [Function.update_apply]
    split
    · rename_i hkey
      exact iff_of_true (Option.some_ne_none _) (.inr ⟨hmax, hkey⟩)
    · rename_i hkey
      exact (or_iff_left fun h ↦ hkey h.2).symm

variable (config) in
/-- The invariant of the limiter. -/
structure LimiterKeys (s : State) : Prop where
  limit : s.limiter.maxPerSecond = config.rateLimit.requestsPerSecond
  keys : ∀ k, s.limiter.counters k ≠ none ↔
    config.rateLimit.requestsPerSecond ≠ 0 ∧ Checked config s k

theorem LimiterKeys.step (hi : LimiterKeys config s) (hd : Delivery config h s)
    (hstep : Proxy.step serde config s a = some (t, es)) : LimiterKeys config t := by
  have hkeep (hlimiter : t.limiter = s.limiter)
      (hchecked : ∀ k, Checked config t k ↔ Checked config s k) : LimiterKeys config t :=
    ⟨by rw [hlimiter, hi.limit], fun k ↦ by rw [hlimiter, hi.keys, hchecked]⟩
  cases shift_of_step hstep with
  | control _ hrequests hlimiter =>
    exact hkeep hlimiter fun k ↦ by rw [Checked, Checked, hrequests]
  | arrive _ hr ht =>
    subst ht
    exact hkeep (limiter_arrive ..) fun k ↦ checked_arrive hr
  | @hop r q _ hr hops =>
    obtain ⟨p, hop, hrequests⟩ := hops.hop
    have hchecked : ∀ k, Checked config t k ↔ Checked config s k ∨
        (serveHttp q.req config.domain = .proxy ∧
          ∃ path, extractRouting q.req config.domain = some (k, path)) :=
      fun k ↦ checked_update hr hrequests (limits_of_hop hop).1
    by_cases hlimit : ∃ now, a = .limit r now
    · obtain ⟨now, ha⟩ := hlimit
      obtain ⟨key, path, hphase, hlimiter⟩ := hops.check now ha
      obtain ⟨hserve, hrouting⟩ := (hd.request r q hr).route (key, path) (by rw [hphase]; rfl)
      refine ⟨by rw [hlimiter, RateLimiter.check_maxPerSecond, hi.limit], fun k ↦ ?_⟩
      rw [hlimiter, check_ne_none_iff, hi.keys, hi.limit, hchecked, ← and_or_left]
      refine and_congr_right fun _ ↦ or_congr_right ?_
      constructor
      · rintro rfl
        exact ⟨hserve, path, hrouting⟩
      · rintro ⟨-, path', hrouting'⟩
        exact (Prod.mk.inj (Option.some.inj (hrouting'.symm.trans hrouting))).1
    · refine hkeep (hops.limiter (not_exists.mp hlimit)) fun k ↦ ?_
      rw [hchecked]
      refine or_iff_left_of_imp ?_
      rintro ⟨hserve, path, hrouting⟩
      refine ⟨r, q, path, hr, hserve, hrouting, ?_⟩
      rw [← Bool.not_eq_true]
      exact fun h ↦ hlimit ((limits_of_hop hop).2 h)

theorem LimiterKeys.of_reach (hr : (machine serde config routes).Reach h s) :
    LimiterKeys config s := by
  refine hr.invariant (P := fun _ s ↦ LimiterKeys config s) ⟨rfl, fun k ↦ ?_⟩
    fun h s a t es hr hi hstep ↦ hi.step (.of_reach hr) hstep
  refine iff_of_false (fun hk ↦ hk rfl) ?_
  rintro ⟨-, r, q, path, hq, -⟩
  cases hq

theorem counters_ne_none_of_step (hk : s.limiter.counters k ≠ none)
    (hstep : step serde config s a = some (t, es)) : t.limiter.counters k ≠ none := by
  rcases limiter_of_step hstep with hlimiter | ⟨_, now, _, key, _, -, -, -, hlimiter⟩
  · rwa [hlimiter]
  · rw [hlimiter, check_ne_none_iff]
    exact .inl hk

/-- **The keys of the rate limiter.** In every reachable state they are the ids that the requests
name which have been through it, registered or not, and there are none without a limit. A step
changes the entry of the id that its request names, and no run takes an entry out. -/
theorem limiter_keys (serde : SerdeJson) (config : ServerConfig) (routes : RouteFiles)
    (h : List Event) (s : State) (hr : (machine serde config routes).Reach h s) :
    (∀ k, s.limiter.counters k ≠ none ↔
      config.rateLimit.requestsPerSecond ≠ 0 ∧ Checked config s k) ∧
    (∀ a t es, step serde config s a = some (t, es) →
      ∀ k, t.limiter.counters k ≠ s.limiter.counters k →
        ∃ r now q path, a = .limit r now ∧ s.requests r = some q ∧ q.phase = .limiting k path) ∧
    ∀ h' u, (machine serde config routes).Steps s h' u →
      ∀ k, s.limiter.counters k ≠ none → u.limiter.counters k ≠ none := by
  refine ⟨(LimiterKeys.of_reach hr).keys, fun a t es hstep k hk ↦ ?_, fun h' u hst k hk ↦ ?_⟩
  · rcases limiter_of_step hstep with hlimiter | ⟨r, now, q, key, path, ha, hq, hphase, hlimiter⟩
    · rw [hlimiter] at hk
      exact absurd rfl hk
    · by_cases hkey : k = key
      · exact ⟨r, now, q, path, ha, hq, hkey ▸ hphase⟩
      · rw [hlimiter, RateLimiter.check_counters_ne hkey] at hk
        exact absurd rfl hk
  · exact hst.preserves (P := fun s ↦ s.limiter.counters k ≠ none)
      (fun _ _ _ _ hk hstep ↦ counters_ne_none_of_step hk hstep) hk

/-- A request that names `app`, to a server without clients, up to the limiter. -/
def strayRun : List Act := [.arrive 0 (hostRequest appHost), .limit 0 0]

private theorem run_strayRun : ∃ h s,
    (machine compactSerde Control.sampleConfig fun _ ↦ none).run
      (start Control.sampleConfig fun _ ↦ none) strayRun = some (s, h) ∧
    s.limiter.counters "app" = some (0, 1) ∧ h = [.arrived 0 (hostRequest appHost)] := by
  have hrun : ((machine compactSerde Control.sampleConfig fun _ ↦ none).run
      (start Control.sampleConfig fun _ ↦ none) strayRun).map
      (fun p ↦ (p.1.limiter.counters "app", p.2)) =
      some (some (0, 1), [.arrived 0 (hostRequest appHost)]) := by decide +kernel
  obtain ⟨⟨s, h⟩, hsh, heq⟩ := Option.map_eq_some_iff.mp hrun
  exact ⟨h, s, hsh, (Prod.mk.inj heq).1, (Prod.mk.inj heq).2⟩

theorem limiter_keys_app : ∃ s : State, s.limiter.counters "app" = some (0, 1) ∧
    ∀ k, s.limiter.counters k ≠ none ↔
      Control.sampleConfig.rateLimit.requestsPerSecond ≠ 0 ∧ Checked Control.sampleConfig s k := by
  obtain ⟨h, s, hsh, hkey, -⟩ := run_strayRun
  exact ⟨s, hkey, (limiter_keys compactSerde Control.sampleConfig (fun _ ↦ none) h s
    (.of_run hsh)).1⟩

/-- **An id that nobody has registered** has an entry. -/
theorem unregistered_key : ¬∀ (serde : SerdeJson) (config : ServerConfig) (routes : RouteFiles)
    (h : List Event) (s : State), (machine serde config routes).Reach h s →
      ∀ k, s.limiter.counters k ≠ none →
        ∃ c sessionId, .control (.swapped c k sessionId) ∈ h := by
  intro hclaim
  obtain ⟨h, s, hsh, hkey, rfl⟩ := run_strayRun
  obtain ⟨c, sessionId, hmem⟩ := hclaim _ _ _ _ s (.of_run hsh) "app" (by
    rw [hkey]
    exact Option.some_ne_none _)
  cases List.mem_singleton.mp hmem

end Proxy

end ZoTunnel
