import ZoTunnel.Server.Proxy

/-!
# The phases of a request

`handle_proxy_request` from one point where it can wait to the next. A request goes from phase to
phase by its own actions only, and each of them leads from one phase to one or two others (`Hop`).
This is the inversion of `step` for a reader who wants to know where a request can go and what it
does to the rate limiter; what it does to streams is in `Transition`.
-/

namespace ZoTunnel

namespace Proxy

/-- The steps of request `r` from phase to phase. -/
inductive Hop (s : State) (r : ReqId) : Act → Phase → Phase → Prop
  | dashboard : Hop s r (.dashboardReply r) .dashboard (.answered .dashboard)
  | hint {ids : List String} {reply : Reply} : Hop s r (.hint r ids) .unroutable (.answered reply)
  | allowed {now : ℕ} {k path : String} :
      Hop s r (.limit r now) (.limiting k path) (.looking k path)
  | limited {now : ℕ} {k path : String} :
      Hop s r (.limit r now) (.limiting k path) (.answered limitedReply)
  | found {k path : String} {client : ClientEntry} :
      Hop s r (.lookup r) (.looking k path) (.found ⟨k, path, client⟩)
  | offline {k path : String} : Hop s r (.lookup r) (.looking k path) (.answered (offlineReply k))
  | openStream {t : Target} : Hop s r (.openStream r) (.found t) (.opening t)
  | opened {t : Target} {st : StreamId} {p : Phase}
      (hres : openResult s r t.client.handle = some (.ok st))
      (hp : p = .marking t st ∨ p = .handshaking t st) : Hop s r (.opened r) (.opening t) p
  | unopened {t : Target} {reply : Reply} : Hop s r (.opened r) (.opening t) (.answered reply)
  | marked {t : Target} {st : StreamId} : Hop s r (.mark r true) (.marking t st) (.handshaking t st)
  | unmarked {t : Target} {st : StreamId} {ok : Bool} {reply : Reply} :
      Hop s r (.mark r ok) (.marking t st) (.answered reply)
  | handshaken {t : Target} {st : StreamId} :
      Hop s r (.handshake r true) (.handshaking t st) (.building t st)
  | unshaken {t : Target} {st : StreamId} {ok : Bool} {reply : Reply} :
      Hop s r (.handshake r ok) (.handshaking t st) (.answered reply)
  | built {t : Target} {st : StreamId} : Hop s r (.build r true) (.building t st) (.sending t st)
  | unbuilt {t : Target} {st : StreamId} {ok : Bool} {reply : Reply} :
      Hop s r (.build r ok) (.building t st) (.answered reply)
  | sent {t : Target} {st : StreamId} {ok : Bool} {reply : Reply} :
      Hop s r (.send r ok) (.sending t st) (.answered reply)
  | dropped {p : Phase} (hp : p = .dashboard ∨ ∃ t, p = .opening t ∨
      ∃ st, p = .marking t st ∨ p = .handshaking t st ∨ p = .sending t st) :
      Hop s r (.drop r) p .dropped

variable {serde : SerdeJson} {config : ServerConfig} {s t : State} {a : Act} {es : List Event}
  {r : ReqId} {q : Request}

/-- One step of a request: it hops, and no other request does, and the limiter is touched by its
check alone. -/
structure Hops (s : State) (r : ReqId) (q : Request) (a : Act) (t : State) : Prop where
  hop : ∃ p, Hop s r a q.phase p ∧
    t.requests = Function.update s.requests r (some { q with phase := p })
  limiter : (∀ now, a ≠ .limit r now) → t.limiter = s.limiter
  check : ∀ now, a = .limit r now → ∃ k path, q.phase = .limiting k path ∧
    t.limiter = (s.limiter.check k now).2

private theorem hops_of_requestStep (hstep : requestStep serde config s r q a = some (t, es))
    (ha : a.req = some r) : Hops s r q a t := by
  have hset : ∀ {s₀ : State} {p : Phase} {es₀ : List Event},
      some (s₀.setPhase r q p, es₀) = some (t, es) → Hop s r a q.phase p →
      (∀ now, a ≠ .limit r now) → s₀.limiter = s.limiter → s₀.requests = s.requests →
      Hops s r q a t := by
    intro s₀ p es₀ heq hop hne hlimiter hrequests
    obtain ⟨rfl, -⟩ := Prod.mk.inj (Option.some.inj heq)
    exact ⟨⟨p, hop, by rw [← hrequests]; rfl⟩, fun _ ↦ hlimiter,
      fun now h ↦ absurd h (hne now)⟩
  cases a with
  | control | arrive => cases hstep
  | dashboardReply =>
    obtain rfl := Option.some.inj ha
    simp only [requestStep] at hstep
    split at hstep
    · rename_i hphase
      exact hset hstep (hphase ▸ .dashboard) (fun _ h ↦ by cases h) rfl rfl
    · cases hstep
  | hint =>
    obtain rfl := Option.some.inj ha
    simp only [requestStep] at hstep
    split at hstep
    · rename_i hphase
      split at hstep
      · exact hset hstep (hphase ▸ .hint) (fun _ h ↦ by cases h) rfl rfl
      · cases hstep
    · cases hstep
  | limit r' now =>
    obtain rfl := Option.some.inj ha
    simp only [requestStep] at hstep
    split at hstep
    · rename_i k path hphase
      have hlimit : ∀ {P : Prop}, (∀ now', Act.limit r' now ≠ .limit r' now') → P :=
        fun h ↦ absurd rfl (h now)
      split at hstep
      · obtain ⟨rfl, -⟩ := Prod.mk.inj (Option.some.inj hstep)
        refine ⟨⟨_, hphase ▸ .allowed, rfl⟩, hlimit, fun now' h ↦ ?_⟩
        obtain rfl := (Act.limit.inj h).2
        exact ⟨k, path, hphase, rfl⟩
      · obtain ⟨rfl, -⟩ := Prod.mk.inj (Option.some.inj hstep)
        refine ⟨⟨_, hphase ▸ .limited, rfl⟩, hlimit, fun now' h ↦ ?_⟩
        obtain rfl := (Act.limit.inj h).2
        exact ⟨k, path, hphase, rfl⟩
    · cases hstep
  | lookup =>
    obtain rfl := Option.some.inj ha
    simp only [requestStep] at hstep
    split at hstep
    · rename_i hphase
      split at hstep
      · exact hset hstep (hphase ▸ .offline) (fun _ h ↦ by cases h) rfl rfl
      · exact hset hstep (hphase ▸ .found) (fun _ h ↦ by cases h) rfl rfl
    · cases hstep
  | openStream =>
    obtain rfl := Option.some.inj ha
    simp only [requestStep] at hstep
    split at hstep
    · rename_i hphase
      split at hstep
      · cases hstep
      · exact hset hstep (hphase ▸ .openStream) (fun _ h ↦ by cases h) rfl rfl
    · cases hstep
  | opened =>
    obtain rfl := Option.some.inj ha
    simp only [requestStep] at hstep
    split at hstep
    · rename_i hphase
      split at hstep
      · cases hstep
      · exact hset hstep (hphase ▸ .unopened) (fun _ h ↦ by cases h) rfl rfl
      · rename_i st hres
        split at hstep
        · exact hset hstep (hphase ▸ .opened hres (.inl rfl)) (fun _ h ↦ by cases h) rfl rfl
        · exact hset hstep (hphase ▸ .opened hres (.inr rfl)) (fun _ h ↦ by cases h) rfl rfl
    · cases hstep
  | mark r' ok =>
    obtain rfl := Option.some.inj ha
    simp only [requestStep] at hstep
    split at hstep
    · rename_i hphase
      split at hstep
      · rename_i hok
        exact hset hstep (hphase ▸ hok ▸ .marked) (fun _ h ↦ by cases h) rfl rfl
      · exact hset hstep (hphase ▸ .unmarked) (fun _ h ↦ by cases h) rfl rfl
    · cases hstep
  | handshake r' ok =>
    obtain rfl := Option.some.inj ha
    simp only [requestStep] at hstep
    split at hstep
    · rename_i hphase
      split at hstep
      · rename_i hok
        exact hset hstep (hphase ▸ hok ▸ .handshaken) (fun _ h ↦ by cases h) rfl rfl
      · exact hset hstep (hphase ▸ .unshaken) (fun _ h ↦ by cases h) rfl rfl
    · cases hstep
  | build r' ok =>
    obtain rfl := Option.some.inj ha
    simp only [requestStep] at hstep
    split at hstep
    · rename_i hphase
      split at hstep
      · rename_i hok
        exact hset hstep (hphase ▸ hok ▸ .built) (fun _ h ↦ by cases h) rfl rfl
      · exact hset hstep (hphase ▸ .unbuilt) (fun _ h ↦ by cases h) rfl rfl
    · cases hstep
  | send =>
    obtain rfl := Option.some.inj ha
    simp only [requestStep] at hstep
    split at hstep
    · rename_i hphase
      exact hset hstep (hphase ▸ .sent) (fun _ h ↦ by cases h) rfl rfl
    · cases hstep
  | drop =>
    obtain rfl := Option.some.inj ha
    simp only [requestStep] at hstep
    split at hstep
    · rename_i hphase
      exact hset hstep (.dropped (.inl hphase)) (fun _ h ↦ by cases h) rfl rfl
    · rename_i tg st hphase
      exact hset hstep (.dropped (.inr ⟨tg, .inr ⟨st, .inl hphase⟩⟩))
        (fun _ h ↦ by cases h) rfl rfl
    · rename_i tg st hphase
      exact hset hstep (.dropped (.inr ⟨tg, .inr ⟨st, .inr (.inl hphase)⟩⟩))
        (fun _ h ↦ by cases h) rfl rfl
    · rename_i tg st hphase
      exact hset hstep (.dropped (.inr ⟨tg, .inr ⟨st, .inr (.inr hphase)⟩⟩))
        (fun _ h ↦ by cases h) rfl rfl
    · rename_i tg hphase
      split at hstep <;>
        exact hset hstep (.dropped (.inr ⟨tg, .inl hphase⟩)) (fun _ h ↦ by cases h) rfl rfl
    · cases hstep

/-- **What a step does to the requests**: the control channel moves, or a request arrives, or one
hops. -/
inductive Shift (config : ServerConfig) (s t : State) (a : Act) : Prop
  | control (ha : a.req = none) (hrequests : t.requests = s.requests)
      (hlimiter : t.limiter = s.limiter)
  | arrive {r : ReqId} {req : HttpRequest} (ha : a = .arrive r req) (hr : s.requests r = none)
      (ht : t = (arrive config s r req).1)
  | hop {r : ReqId} {q : Request} (ha : a.req = some r) (hr : s.requests r = some q)
      (hops : Hops s r q a t)

theorem shift_of_step (hstep : step serde config s a = some (t, es)) : Shift config s t a := by
  cases a with
  | control b =>
    simp only [step] at hstep
    split at hstep
    · split at hstep
      · cases hstep
      · obtain ⟨rfl, -⟩ := Prod.mk.inj (Option.some.inj hstep)
        exact .control rfl rfl rfl
    · cases hstep
  | arrive r req =>
    simp only [step] at hstep
    split at hstep
    · cases hstep
    · rename_i hr
      exact .arrive rfl hr (congrArg Prod.fst (Option.some.inj hstep)).symm
  | _ =>
    simp only [step, Act.req] at hstep
    split at hstep
    · cases hstep
    · rename_i q hr
      exact .hop rfl hr (hops_of_requestStep hstep rfl)

end Proxy

end ZoTunnel
