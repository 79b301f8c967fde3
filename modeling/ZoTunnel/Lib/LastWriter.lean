import Mathlib.Data.List.Basic
import Mathlib.Logic.Function.Basic

/-!
# Slots that the last writer holds

Holders claim and release the slots of a table. A claim always takes the slot; a release empties
it only when the releasing holder still has it. The table is a function of the history alone, and
`slots_eq` says which: a slot belongs to the last claimant, unless that one has released it.

The two rules of conduct that this needs are `Disciplined`: a holder claims once, and releases only
what it has claimed. Nothing is asked about the order in which different holders act.
-/

namespace LastWriter

variable {κ σ : Type*}

/-- What a holder does to a slot. -/
inductive Op (κ σ : Type*)
  | claim (k : κ) (s : σ)
  | release (k : κ) (s : σ)

/-- A holder claims at most once, and releases only what it has claimed. -/
inductive Disciplined : List (Op κ σ) → Prop
  | nil : Disciplined []
  | claim {h : List (Op κ σ)} {k : κ} {s : σ} :
      Disciplined h → (∀ k', .claim k' s ∉ h) → Disciplined (h ++ [.claim k s])
  | release {h : List (Op κ σ)} {k : κ} {s : σ} :
      Disciplined h → .claim k s ∈ h → Disciplined (h ++ [.release k s])

variable {h : List (Op κ σ)} {k k' : κ} {s s' : σ}

theorem Disciplined.claimed (hd : Disciplined h) (hr : .release k s ∈ h) : .claim k s ∈ h := by
  induction hd with
  | nil => cases hr
  | claim _ _ ih =>
    rcases List.mem_append.mp hr with hr | hr
    · exact List.mem_append_left _ (ih hr)
    · simp at hr
  | release _ hc ih =>
    rcases List.mem_append.mp hr with hr | hr
    · exact List.mem_append_left _ (ih hr)
    · simp only [List.mem_singleton, Op.release.injEq] at hr
      rw [hr.1, hr.2]
      exact List.mem_append_left _ hc

/-! ## The last claim -/

variable [DecidableEq κ]

/-- The holders that claimed the slot, in order. -/
def claimants (h : List (Op κ σ)) (k : κ) : List σ :=
  h.filterMap fun
    | .claim k' s => if k' = k then some s else none
    | .release .. => none

/-- The last holder that claimed the slot. -/
def lastClaim (h : List (Op κ σ)) (k : κ) : Option σ := (claimants h k).getLast?

theorem lastClaim_claim :
    lastClaim (h ++ [.claim k s]) k' = if k' = k then some s else lastClaim h k' := by
  rw [lastClaim, claimants, List.filterMap_append]
  by_cases hk : k' = k
  · simp [hk]
  · simp [hk, Ne.symm hk, lastClaim, claimants]

@[simp] theorem lastClaim_release : lastClaim (h ++ [.release k s]) k' = lastClaim h k' := by
  rw [lastClaim, claimants, List.filterMap_append]
  simp [lastClaim, claimants]

theorem mem_of_lastClaim (hs : lastClaim h k = some s) : .claim k s ∈ h := by
  obtain ⟨op, hop, heq⟩ := List.mem_filterMap.mp (List.mem_of_getLast? hs)
  cases op with
  | claim k' s' =>
    simp only [Option.ite_none_right_eq_some, Option.some.injEq] at heq
    rw [← heq.1, ← heq.2]
    exact hop
  | release => cases heq

/-! ## The table -/

variable [DecidableEq σ]

/-- One operation on the table. -/
def step (t : κ → Option σ) : Op κ σ → κ → Option σ
  | .claim k s => Function.update t k (some s)
  | .release k s => if t k = some s then Function.update t k none else t

/-- The table after a history. -/
def slots (h : List (Op κ σ)) : κ → Option σ := h.foldl step fun _ ↦ none

@[simp] theorem slots_append_singleton (op : Op κ σ) : slots (h ++ [op]) = step (slots h) op := by
  rw [slots, List.foldl_append]
  rfl

/-- **Last writer wins.** A slot belongs to its last claimant, unless that one has released it. -/
theorem slots_eq (hd : Disciplined h) (k : κ) :
    (∀ s, lastClaim h k = some s → .release k s ∉ h → slots h k = some s) ∧
    (∀ s, lastClaim h k = some s → .release k s ∈ h → slots h k = none) ∧
    (lastClaim h k = none → slots h k = none) := by
  induction hd with
  | nil => exact ⟨fun _ hs ↦ absurd hs (by simp [lastClaim, claimants]),
      fun _ hs ↦ absurd hs (by simp [lastClaim, claimants]), fun _ ↦ rfl⟩
  | @claim h k₀ s₀ hd hfresh ih =>
    obtain ⟨ih₁, ih₂, ih₃⟩ := ih
    rw [lastClaim_claim, slots_append_singleton, step]
    by_cases hk : k = k₀
    · subst hk
      simp only [if_pos, Function.update_self, Option.some.injEq, List.mem_append,
        List.mem_singleton, reduceCtorEq, or_false]
      -- A new claimant has released nothing.
      refine ⟨fun s hs _ ↦ hs, ?_, by simp⟩
      rintro s rfl hr
      exact absurd (hd.claimed hr) (hfresh k)
    · simp only [if_neg hk, Function.update_of_ne hk, List.mem_append, List.mem_singleton,
        reduceCtorEq, or_false]
      exact ⟨ih₁, ih₂, ih₃⟩
  | @release h k₀ s₀ hd hc ih =>
    obtain ⟨ih₁, ih₂, ih₃⟩ := ih
    rw [lastClaim_release, slots_append_singleton, step]
    have hsame : ∀ s, .release k s ∈ h ++ [.release k₀ s₀] ↔
        .release k s ∈ h ∨ k = k₀ ∧ s = s₀ := by simp
    simp only [hsame]
    have hslot : (if slots h k₀ = some s₀ then Function.update (slots h) k₀ none else slots h) k =
        if k = k₀ ∧ slots h k₀ = some s₀ then none else slots h k := by
      by_cases hk : k = k₀
      · subst hk
        by_cases hs : slots h k = some s₀ <;> simp [hs]
      · by_cases hs : slots h k₀ = some s₀ <;> simp [hs, hk]
    rw [hslot]
    refine ⟨fun s hs hr ↦ ?_, fun s hs hr ↦ ?_, fun hn ↦ ?_⟩
    · -- The slot is that of the last claimant, so the release of another one leaves it alone.
      rw [not_or] at hr
      rw [if_neg, ih₁ s hs hr.1]
      rintro ⟨rfl, hs₀⟩
      rw [ih₁ s hs hr.1, Option.some.injEq] at hs₀
      exact hr.2 ⟨rfl, hs₀⟩
    · split
      · rfl
      · rename_i hnot
        rcases hr with hr | ⟨rfl, rfl⟩
        · exact ih₂ s hs hr
        · by_contra hne
          by_cases hr : .release k s ∈ h
          · exact hne (ih₂ s hs hr)
          · exact hnot ⟨rfl, ih₁ s hs hr⟩
    · split
      · rfl
      · exact ih₃ hn

/-- A holder that has not released finds its slot its own exactly when it claimed last. -/
theorem slots_eq_some_iff (hd : Disciplined h) (hr : .release k s ∉ h) :
    slots h k = some s ↔ lastClaim h k = some s := by
  obtain ⟨h₁, h₂, h₃⟩ := slots_eq hd k
  refine ⟨fun hs ↦ ?_, fun hs ↦ h₁ s hs hr⟩
  cases hl : lastClaim h k with
  | none => rw [h₃ hl] at hs; cases hs
  | some s' =>
    by_cases hr' : .release k s' ∈ h
    · rw [h₂ s' hl hr'] at hs
      cases hs
    · rw [h₁ s' hl hr'] at hs
      exact hs

/-- Once every claimant has released, the slot is empty. -/
theorem slots_eq_none (hd : Disciplined h) (hall : ∀ s, .claim k s ∈ h → .release k s ∈ h) :
    slots h k = none := by
  obtain ⟨-, h₂, h₃⟩ := slots_eq hd k
  cases hl : lastClaim h k with
  | none => exact h₃ hl
  | some s => exact h₂ s hl (hall s (mem_of_lastClaim hl))

end LastWriter
