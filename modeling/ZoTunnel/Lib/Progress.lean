import Mathlib.Data.Set.Finite.Basic
import ZoTunnel.Lib.Machine

/-!
# What a machine can still do

`M.Can A P s` says that some finite run from `s`, with actions from `A` only, ends in a state with
`P`. An invariant says what no schedule can bring about, this says what *some* schedule can: that
nothing is stuck for good. The set of actions is what makes such a statement worth having. The fewer
of them are allowed, the less the claim depends on the goodwill of the environment.

Three rules carry the proofs. `Can.of_rank` descends along a rank. `Can.forall_of_finite` brings
infinitely many components into a state each, one after the other, where all but finitely many are
there already and none is disturbed by the others. `Can.lift` carries the runs of a component over
to the machine that it is a part of.
-/

namespace Machine

variable {σ α ε τ β δ ι : Type*} (M : Machine σ α ε)

/-- Some run from `s` with actions from `A` ends in a state with `P`. -/
def Can (A : α → Prop) (P : σ → Prop) (s : σ) : Prop :=
  ∃ as t h, (∀ a ∈ as, A a) ∧ M.run s as = some (t, h) ∧ P t

variable {M} {A : α → Prop} {P Q I : σ → Prop} {s t : σ} {a : α} {as : List α} {h es : List ε}

/-- What every step with an action from `A` preserves, a run of such actions preserves. -/
theorem run_preserves (hstep : ∀ s a t es, P s → A a → M.step s a = some (t, es) → P t)
    (hrun : M.run s as = some (t, h)) (has : ∀ a ∈ as, A a) (hs : P s) : P t := by
  induction as generalizing s h with
  | nil =>
    rw [run_nil, Option.some.injEq, Prod.mk.injEq] at hrun
    exact hrun.1 ▸ hs
  | cons a as ih =>
    obtain ⟨v, es, h', ha, htail, -⟩ := run_cons_eq_some.mp hrun
    exact ih htail (fun b hb ↦ has b (List.mem_cons_of_mem a hb))
      (hstep s a v es hs (has a List.mem_cons_self) ha)

namespace Can

theorem here (hs : P s) : M.Can A P s := ⟨[], s, [], fun a ha ↦ (by cases ha), rfl, hs⟩

theorem next (ha : A a) (hstep : M.step s a = some (t, es)) (ht : M.Can A P t) : M.Can A P s := by
  obtain ⟨as, u, h, has, hrun, hu⟩ := ht
  refine ⟨a :: as, u, es ++ h, fun b hb ↦ ?_, run_cons_eq_some.mpr ⟨t, es, h, hstep, hrun, rfl⟩, hu⟩
  rcases List.mem_cons.mp hb with rfl | hb
  · exact ha
  · exact has b hb

theorem mono (hs : M.Can A P s) (hPQ : ∀ t, P t → Q t) : M.Can A Q s := by
  obtain ⟨as, t, h, has, hrun, ht⟩ := hs
  exact ⟨as, t, h, has, hrun, hPQ t ht⟩

theorem and_then (hs : M.Can A P s) (hnext : ∀ t, P t → M.Can A Q t) : M.Can A Q s := by
  obtain ⟨as, t, h, has, hrun, ht⟩ := hs
  obtain ⟨bs, u, h', hbs, hrun', hu⟩ := hnext t ht
  refine ⟨as ++ bs, u, h ++ h', fun a ha ↦ ?_, run_trans hrun hrun', hu⟩
  exact (List.mem_append.mp ha).elim (has a) (hbs a)

/-- What the actions preserve holds at the goal as well. -/
theorem and_preserved (hs : M.Can A P s)
    (hstep : ∀ s a t es, I s → A a → M.step s a = some (t, es) → I t) (hI : I s) :
    M.Can A (fun t ↦ P t ∧ I t) s := by
  obtain ⟨as, t, h, has, hrun, ht⟩ := hs
  exact ⟨as, t, h, has, hrun, ht, run_preserves hstep hrun has hI⟩

/-- What is reached from a reachable state is reachable. -/
theorem and_reach (hs : M.Can A P s) (hr : M.Reach h s) :
    M.Can A (fun t ↦ P t ∧ ∃ h', M.Reach h' t) s :=
  hs.and_preserved (fun _ _ _ _ hs _ hstep ↦ hs.elim fun _ hr ↦ ⟨_, hr.step hstep⟩) ⟨h, hr⟩

/-- **Descent.** As long as the goal is not reached, an action lowers the rank. -/
theorem of_rank (rank : σ → ℕ) (hdown : ∀ s, I s → ¬P s →
      ∃ a t es, A a ∧ M.step s a = some (t, es) ∧ I t ∧ rank t < rank s)
    (hs : I s) : M.Can A P s := by
  induction hn : rank s using Nat.strong_induction_on generalizing s with
  | _ n ih =>
    by_cases hP : P s
    · exact here hP
    · obtain ⟨a, t, es, ha, hstep, ht, hlt⟩ := hdown s hs hP
      exact next ha hstep (ih (rank t) (hn ▸ hlt) ht rfl)

/-- **All components.** Each can be brought to its goal and stays there, and all but finitely many
are there. -/
theorem forall_of_finite {P : ι → σ → Prop}
    (hI : ∀ s a t es, I s → A a → M.step s a = some (t, es) → I t)
    (hstay : ∀ i s a t es, I s → P i s → A a → M.step s a = some (t, es) → P i t)
    (hcan : ∀ i s, I s → M.Can A (P i) s) (hs : I s) (hfin : {i | ¬P i s}.Finite) :
    M.Can A (fun t ↦ I t ∧ ∀ i, P i t) s := by
  have key : ∀ (F : Set ι), F.Finite → ∀ s, I s → (∀ i ∉ F, P i s) →
      M.Can A (fun t ↦ I t ∧ ∀ i, P i t) s := by
    intro F hF
    induction F, hF using Set.Finite.induction_on with
    | empty => exact fun s hs hall ↦ here ⟨hs, fun i ↦ hall i (Set.notMem_empty i)⟩
    | @insert i F _ _ ih =>
      intro s hs hall
      -- The goal of `i` is reached, and those that are out of the set stay where they are.
      have hout : ∀ s a t es, (I s ∧ ∀ j ∉ insert i F, P j s) → A a →
          M.step s a = some (t, es) → I t ∧ ∀ j ∉ insert i F, P j t :=
        fun s a t es hs ha hstep ↦ ⟨hI s a t es hs.1 ha hstep,
          fun j hj ↦ hstay j s a t es hs.1 (hs.2 j hj) ha hstep⟩
      refine ((hcan i s hs).and_preserved hout ⟨hs, hall⟩).and_then fun t ⟨hi, ht, hrest⟩ ↦ ?_
      refine ih t ht fun j hj ↦ ?_
      by_cases hji : j = i
      · exact hji ▸ hi
      · exact hrest j fun hmem ↦ hmem.elim hji hj
  exact key _ hfin s hs fun i hi ↦ not_not.mp hi

/-- **Components.** What a part of a machine can do by itself, the machine can do. -/
theorem lift {N : Machine τ β δ} {B : β → Prop} {f : σ → τ} {g : β → α} {P : τ → Prop}
    (hsim : ∀ s b u es, I s → B b → N.step (f s) b = some (u, es) →
      ∃ t es', A (g b) ∧ M.step s (g b) = some (t, es') ∧ f t = u ∧ I t)
    (hN : N.Can B P (f s)) (hs : I s) : M.Can A (fun t ↦ P (f t) ∧ I t) s := by
  obtain ⟨bs, u, h, hbs, hrun, hu⟩ := hN
  induction bs generalizing s h with
  | nil =>
    rw [run_nil, Option.some.injEq, Prod.mk.injEq] at hrun
    exact here ⟨hrun.1 ▸ hu, hs⟩
  | cons b bs ih =>
    obtain ⟨v, es, h', hb, htail, -⟩ := run_cons_eq_some.mp hrun
    obtain ⟨t, es', hA, hstep, rfl, ht⟩ := hsim s b v es hs (hbs b List.mem_cons_self) hb
    exact next hA hstep (ih ht h' (fun c hc ↦ hbs c (List.mem_cons_of_mem b hc)) htail)

end Can

end Machine
