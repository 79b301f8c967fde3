import Mathlib.Data.List.Basic
import Mathlib.Data.List.Infix

/-!
# Guarded machines with an event history

A machine is a *guarded, executable* step function: `step s a` is `none` when the action `a` is
not enabled in `s`, and otherwise the next state together with the events the step makes visible.
All nondeterminism sits in the action, so one definition serves both for replaying a concrete run
and for quantifying over every interleaving.

`Steps` is the reachability relation and carries the event history; `run` replays a list of
actions. The two are joined by `steps_iff_exists_run`. The invariant rule is stated over the
history and the state at once, because most facts about a concurrent run compare the two.
-/

/-- A machine whose actions carry all of its nondeterminism. -/
structure Machine (σ α ε : Type*) where
  init : σ
  /-- One step: the next state and the events it emits, or `none` when the action is disabled. -/
  step : σ → α → Option (σ × List ε)

namespace Machine

variable {σ α ε : Type*} (M : Machine σ α ε)

/-! ## Runs -/

/-- Replay a list of actions, concatenating the emitted events. -/
def run : σ → List α → Option (σ × List ε)
  | s, [] => some (s, [])
  | s, a :: as =>
    match M.step s a with
    | none => none
    | some (s₁, es) =>
      match run s₁ as with
      | none => none
      | some (s₂, h) => some (s₂, es ++ h)

/-- `M.Steps s h t`: some finite sequence of steps leads from `s` to `t` and emits `h`. -/
inductive Steps : σ → List ε → σ → Prop
  | refl (s : σ) : Steps s [] s
  | tail {s t u : σ} {h es : List ε} {a : α} :
      Steps s h t → M.step t a = some (u, es) → Steps s (h ++ es) u

/-- Reachable from the initial state with event history `h`. -/
def Reach (h : List ε) (s : σ) : Prop := M.Steps M.init h s

variable {M} {s t u : σ} {h h' es : List ε} {a : α} {as bs : List α}

@[simp] theorem run_nil (s : σ) : M.run s [] = some (s, []) := rfl

theorem run_cons_of_none (hstep : M.step s a = none) : M.run s (a :: as) = none := by
  rw [run, hstep]

theorem run_cons_of_some (hstep : M.step s a = some (t, es)) :
    M.run s (a :: as) = (M.run t as).map fun q ↦ (q.1, es ++ q.2) := by
  simp only [run, hstep]
  cases M.run t as <;> rfl

theorem run_cons_eq_some : M.run s (a :: as) = some (u, h) ↔
    ∃ t es h', M.step s a = some (t, es) ∧ M.run t as = some (u, h') ∧ h = es ++ h' := by
  constructor
  · intro hrun
    rcases hstep : M.step s a with _ | ⟨t, es⟩
    · rw [run_cons_of_none hstep] at hrun
      cases hrun
    · rw [run_cons_of_some hstep, Option.map_eq_some_iff] at hrun
      obtain ⟨⟨w, h'⟩, htail, heq⟩ := hrun
      cases heq
      exact ⟨t, es, h', rfl, htail, rfl⟩
  · rintro ⟨t, es, h', hstep, htail, rfl⟩
    rw [run_cons_of_some hstep, htail]
    rfl

theorem run_append_eq_some : M.run s (as ++ bs) = some (u, h) ↔
    ∃ t h₁ h₂, M.run s as = some (t, h₁) ∧ M.run t bs = some (u, h₂) ∧ h = h₁ ++ h₂ := by
  induction as generalizing s h with
  | nil =>
    constructor
    · intro hrun
      exact ⟨s, [], h, rfl, hrun, rfl⟩
    · rintro ⟨t, h₁, h₂, hnil, hrun, rfl⟩
      cases hnil
      exact hrun
  | cons a as ih =>
    rw [List.cons_append, run_cons_eq_some]
    constructor
    · rintro ⟨t, es, h', hstep, hrun, rfl⟩
      obtain ⟨v, h₁, h₂, has, hbs, rfl⟩ := ih.mp hrun
      exact ⟨v, es ++ h₁, h₂, run_cons_eq_some.mpr ⟨t, es, h₁, hstep, has, rfl⟩, hbs,
        (List.append_assoc _ _ _).symm⟩
    · rintro ⟨v, h₁, h₂, has, hbs, rfl⟩
      obtain ⟨t, es, h', hstep, has', rfl⟩ := run_cons_eq_some.mp has
      exact ⟨t, es, h' ++ h₂, hstep, ih.mpr ⟨v, h', h₂, has', hbs, rfl⟩, List.append_assoc _ _ _⟩

theorem run_trans (hst : M.run s as = some (t, h)) (htu : M.run t bs = some (u, h')) :
    M.run s (as ++ bs) = some (u, h ++ h') :=
  run_append_eq_some.mpr ⟨t, h, h', hst, htu, rfl⟩

theorem run_singleton (hstep : M.step s a = some (t, es)) : M.run s [a] = some (t, es) :=
  run_cons_eq_some.mpr ⟨t, es, [], hstep, rfl, (List.append_nil es).symm⟩

/-- What no action of the run changes is the same at its end. -/
theorem run_unchanged {β : Type*} (f : σ → β) (hrun : M.run s as = some (u, h))
    (hstep : ∀ a ∈ as, ∀ s t es, M.step s a = some (t, es) → f t = f s) : f u = f s := by
  induction as generalizing s h with
  | nil =>
    rw [run_nil, Option.some.injEq, Prod.mk.injEq] at hrun
    rw [hrun.1]
  | cons a as ih =>
    obtain ⟨t, es, h', hs, htail, -⟩ := run_cons_eq_some.mp hrun
    rw [ih htail fun b hb ↦ hstep b (List.mem_cons_of_mem a hb)]
    exact hstep a List.mem_cons_self s t es hs

/-- Every event of a history was emitted by one action of the run, and the run splits there. -/
theorem run_split {e : ε} {h₁ h₂ : List ε} (hrun : M.run s as = some (u, h₁ ++ e :: h₂)) :
    ∃ bs a cs h₀ v es₁ es₂ w h', as = bs ++ a :: cs ∧ M.run s bs = some (v, h₀) ∧
      M.step v a = some (w, es₁ ++ e :: es₂) ∧ M.run w cs = some (u, h') ∧
      h₁ = h₀ ++ es₁ ∧ h₂ = es₂ ++ h' := by
  induction as generalizing s h₁ with
  | nil =>
    rw [run_nil, Option.some.injEq, Prod.mk.injEq] at hrun
    exact absurd hrun.2 (by simp)
  | cons a as ih =>
    obtain ⟨t, es, h', hstep, htail, heq⟩ := run_cons_eq_some.mp hrun
    -- The event is emitted by this action, or it comes later.
    have hcases : (∃ l, es = h₁ ++ e :: l ∧ h₂ = l ++ h') ∨
        ∃ l, h₁ = es ++ l ∧ h' = l ++ e :: h₂ := by
      rcases List.append_eq_append_iff.mp heq with ⟨l, hl, hl'⟩ | ⟨l, hl, hl'⟩
      · cases l with
        | nil => exact .inr ⟨[], by rw [hl, List.append_nil, List.append_nil], hl'.symm⟩
        | cons e' l =>
          obtain ⟨rfl, rfl⟩ := List.cons.inj hl'
          exact .inl ⟨l, hl, rfl⟩
      · exact .inr ⟨l, hl, hl'⟩
    rcases hcases with ⟨l, rfl, rfl⟩ | ⟨l, rfl, rfl⟩
    · exact ⟨[], a, as, [], s, h₁, l, t, h', rfl, rfl, hstep, htail, rfl, rfl⟩
    · obtain ⟨bs, b, cs, h₀, v, es₁, es₂, w, h'', rfl, hbs, hb, hcs, rfl, rfl⟩ := ih htail
      exact ⟨a :: bs, b, cs, es ++ h₀, v, es₁, es₂, w, h'', rfl,
        run_cons_eq_some.mpr ⟨t, es, h₀, hstep, hbs, rfl⟩, hb, hcs,
        (List.append_assoc _ _ _).symm, rfl⟩

/-! ## Reachability -/

theorem Steps.single (hstep : M.step s a = some (t, es)) : M.Steps s es t := by
  simpa using Steps.tail (Steps.refl s) hstep

theorem Steps.trans (hst : M.Steps s h t) (htu : M.Steps t h' u) : M.Steps s (h ++ h') u := by
  induction htu with
  | refl => rwa [List.append_nil]
  | tail _ hstep ih =>
    rw [← List.append_assoc]
    exact ih.tail hstep

theorem Steps.of_run (hrun : M.run s as = some (u, h)) : M.Steps s h u := by
  induction as generalizing s h with
  | nil =>
    rw [run_nil, Option.some.injEq, Prod.mk.injEq] at hrun
    obtain ⟨rfl, rfl⟩ := hrun
    exact .refl s
  | cons a as ih =>
    obtain ⟨t, es, h', hstep, htail, rfl⟩ := run_cons_eq_some.mp hrun
    exact (Steps.single hstep).trans (ih htail)

theorem steps_iff_exists_run : M.Steps s h u ↔ ∃ as, M.run s as = some (u, h) := by
  refine ⟨fun hsteps ↦ ?_, fun ⟨_, hrun⟩ ↦ .of_run hrun⟩
  induction hsteps with
  | refl => exact ⟨[], rfl⟩
  | @tail t u h es a _ hstep ih =>
    obtain ⟨as, hrun⟩ := ih
    exact ⟨as ++ [a], run_append_eq_some.mpr ⟨t, h, es, hrun, run_singleton hstep, rfl⟩⟩

theorem Reach.init : M.Reach [] M.init := Steps.refl _

theorem Reach.step (hr : M.Reach h s) (hstep : M.step s a = some (t, es)) :
    M.Reach (h ++ es) t :=
  Steps.tail hr hstep

theorem Reach.of_run (hrun : M.run M.init as = some (s, h)) : M.Reach h s := Steps.of_run hrun

theorem Reach.trans (hr : M.Reach h s) (hst : M.Steps s h' t) : M.Reach (h ++ h') t :=
  Steps.trans hr hst

/-! ## The invariant rule -/

/-- **The invariant rule.** What holds initially with the empty history and is preserved by every
step from a reachable state holds of every reachable history and state. -/
theorem Reach.invariant {P : List ε → σ → Prop} (hinit : P [] M.init)
    (hstep : ∀ h s a t es, M.Reach h s → P h s → M.step s a = some (t, es) → P (h ++ es) t)
    (hr : M.Reach h s) : P h s := by
  have key : ∀ {s₀ h s}, M.Steps s₀ h s → s₀ = M.init → P h s := by
    intro s₀ h s hsteps
    induction hsteps with
    | refl => rintro rfl; exact hinit
    | tail hsteps hs ih => rintro rfl; exact hstep _ _ _ _ _ hsteps (ih rfl) hs
  exact key hr rfl

/-- The invariant rule from an arbitrary state on: what every step preserves, a run preserves. -/
theorem Steps.preserves {P : σ → Prop} (hstep : ∀ s a t es, P s → M.step s a = some (t, es) → P t)
    (hst : M.Steps s h t) (hs : P s) : P t := by
  induction hst with
  | refl => exact hs
  | tail _ hs' ih => exact hstep _ _ _ _ ih hs'

theorem Steps.split {e : ε} {h₁ h₂ : List ε} (hst : M.Steps s (h₁ ++ e :: h₂) u) :
    ∃ h₀ v a w es₁ es₂ h', M.Steps s h₀ v ∧ M.step v a = some (w, es₁ ++ e :: es₂) ∧
      M.Steps w h' u ∧ h₁ = h₀ ++ es₁ ∧ h₂ = es₂ ++ h' := by
  obtain ⟨as, hrun⟩ := steps_iff_exists_run.mp hst
  obtain ⟨bs, a, cs, h₀, v, es₁, es₂, w, h', -, hbs, hstep, hcs, heq₁, heq₂⟩ := run_split hrun
  exact ⟨h₀, v, a, w, es₁, es₂, h', .of_run hbs, hstep, .of_run hcs, heq₁, heq₂⟩

/-- What does not hold at the beginning of a run and holds at its end begins to hold in one of its
steps, and the run splits there. -/
theorem Steps.exists_step {p : σ → Prop} (hst : M.Steps s h u) (hs : ¬p s) (hu : p u) :
    ∃ h₁ v a w es h₂, M.Steps s h₁ v ∧ M.step v a = some (w, es) ∧ ¬p v ∧ p w ∧
      M.Steps w h₂ u ∧ h = h₁ ++ es ++ h₂ := by
  induction hst with
  | refl => exact absurd hu hs
  | @tail t u h es a hst hstep ih =>
    by_cases ht : p t
    · obtain ⟨h₁, v, a', w, es', h₂, hv, hstep', hnot, hw, hwt, rfl⟩ := ih ht
      exact ⟨h₁, v, a', w, es', h₂ ++ es, hv, hstep', hnot, hw, hwt.tail hstep,
        List.append_assoc _ _ _⟩
    · exact ⟨h, t, a, u, es, [], hst, hstep, ht, hu, .refl u, (List.append_nil _).symm⟩

/-! ## Projection to a component

A step of a composed machine moves each component by some number of the component's own steps. -/

/-- **Projection.** If every step of `M` is, seen through `f` and `g`, a finite run of `N`, then so
is every run of `M`. -/
theorem Steps.project {τ β δ : Type*} {N : Machine τ β δ} (f : σ → τ) (g : ε → List δ)
    (hsim : ∀ s a t es, M.step s a = some (t, es) → N.Steps (f s) (es.flatMap g) (f t))
    (hst : M.Steps s h t) : N.Steps (f s) (h.flatMap g) (f t) := by
  induction hst with
  | refl => exact .refl _
  | tail _ hstep ih =>
    rw [List.flatMap_append]
    exact ih.trans (hsim _ _ _ _ hstep)

/-! ## Restricting the schedule -/

/-- The machine that additionally refuses an action unless `p` allows it in the present state. -/
def guard (M : Machine σ α ε) (p : σ → α → Bool) : Machine σ α ε where
  init := M.init
  step s a := if p s a then M.step s a else none

variable {p : σ → α → Bool}

theorem guard_step_eq_some :
    (M.guard p).step s a = some (t, es) ↔ p s a = true ∧ M.step s a = some (t, es) := by
  rw [guard]
  by_cases hp : p s a = true <;> simp [hp]

/-- A run passes the guard when each of its steps does. -/
theorem run_guard_of_forall (hrun : M.run s as = some (u, h))
    (hp : ∀ as₁ a as₂ t h₁, as = as₁ ++ a :: as₂ → M.run s as₁ = some (t, h₁) → p t a = true) :
    (M.guard p).run s as = some (u, h) := by
  induction as generalizing s h with
  | nil => exact hrun
  | cons a as ih =>
    obtain ⟨t, es, h', hstep, htail, rfl⟩ := run_cons_eq_some.mp hrun
    refine run_cons_eq_some.mpr ⟨t, es, h', ?_, ?_, rfl⟩
    · exact guard_step_eq_some.mpr ⟨hp [] a as s [] rfl rfl, hstep⟩
    · refine ih htail fun as₁ b as₂ v h₁ heq hv ↦ ?_
      exact hp (a :: as₁) b as₂ v (es ++ h₁) (by rw [heq]; rfl)
        (run_cons_eq_some.mpr ⟨t, es, h₁, hstep, hv, rfl⟩)

theorem Steps.of_guard (hst : (M.guard p).Steps s h t) : M.Steps s h t := by
  induction hst with
  | refl => exact .refl _
  | tail _ hstep ih => exact ih.tail (guard_step_eq_some.mp hstep).2

end Machine
