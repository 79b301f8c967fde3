import Mathlib.Algebra.BigOperators.Group.Finset.Basic
import Mathlib.Algebra.BigOperators.Group.Finset.Piecewise
import Mathlib.Algebra.Order.BigOperators.Group.Finset

/-!
# Tallies

Each member of a finite population is in one class at a time. A *tally* is the number of members
whose class has a given property. When one member changes its class, each tally follows by one or
stays, and which of the two is decided by the two classes alone; `count_move` says so for a member
that may be new in the population.

Where a class says who owns the member, the tallies of the owners add up to that of all members
which are owned.
-/

namespace Tally

open Finset

variable {ι κ σ : Type*} {S T : Finset ι} {f g : ι → κ} {p q : κ → Bool} {i : ι} {k : κ}

/-- The number of members of `S` whose class satisfies `p`. -/
def count (S : Finset ι) (f : ι → κ) (p : κ → Bool) : ℕ := (S.filter fun i ↦ p (f i)).card

theorem count_eq_sum (S : Finset ι) (f : ι → κ) (p : κ → Bool) :
    count S f p = ∑ i ∈ S, (p (f i)).toNat := by
  rw [count, card_filter]
  refine sum_congr rfl fun i _ ↦ ?_
  cases p (f i) <;> rfl

theorem count_congr (hfg : ∀ i ∈ S, p (f i) = q (g i)) : count S f p = count S g q := by
  rw [count_eq_sum, count_eq_sum]
  exact sum_congr rfl fun i hi ↦ congrArg Bool.toNat (hfg i hi)

theorem count_mono (hpq : ∀ i ∈ S, p (f i) = true → q (g i) = true) :
    count S f p ≤ count S g q := by
  refine card_le_card fun i hi ↦ ?_
  obtain ⟨hi, hp⟩ := mem_filter.mp hi
  exact mem_filter.mpr ⟨hi, hpq i hi hp⟩

theorem count_pos (hi : i ∈ S) (hp : p (f i) = true) : 0 < count S f p :=
  card_pos.mpr ⟨i, mem_filter.mpr ⟨hi, hp⟩⟩

theorem count_eq_zero (hp : ∀ i ∈ S, p (f i) = false) : count S f p = 0 := by
  rw [count, card_eq_zero, filter_eq_empty_iff]
  intro i hi
  rw [hp i hi]
  exact Bool.false_ne_true

/-! ## One member moves -/

section Move

variable [DecidableEq ι]

theorem count_insert (hi : i ∉ S) : count (insert i S) f p = count S f p + (p (f i)).toNat := by
  rw [count_eq_sum, count_eq_sum, sum_insert hi, Nat.add_comm]

theorem count_update (hi : i ∈ S) :
    count S (Function.update f i k) p + (p (f i)).toNat = count S f p + (p k).toNat := by
  obtain ⟨T, hT, rfl⟩ : ∃ T, i ∉ T ∧ S = insert i T :=
    ⟨S.erase i, notMem_erase i S, (insert_erase hi).symm⟩
  have hrest : count T (Function.update f i k) p = count T f p := by
    refine count_congr fun j hj ↦ ?_
    rw [Function.update_of_ne (ne_of_mem_of_not_mem hj hT)]
  rw [count_insert hT, count_insert hT, hrest, Function.update_self]
  exact Nat.add_right_comm _ _ _

/-- **One member changes its class**, or comes in with it. -/
theorem count_move (hout : i ∉ S → p (f i) = false) :
    count (insert i S) (Function.update f i k) p + (p (f i)).toNat =
      count S f p + (p k).toNat := by
  rw [count_update (mem_insert_self i S)]
  congr 1
  by_cases hi : i ∈ S
  · rw [insert_eq_of_mem hi]
  · rw [count_insert hi, hout hi]
    rfl

theorem count_stay (hp : p (f i) = p k) (hout : i ∉ S → p (f i) = false) :
    count (insert i S) (Function.update f i k) p = count S f p := by
  have hmove := count_move (k := k) hout
  rw [hp] at hmove
  exact Nat.add_right_cancel hmove

theorem count_enter (hf : p (f i) = false) (hk : p k = true) :
    count (insert i S) (Function.update f i k) p = count S f p + 1 := by
  have hmove := count_move (S := S) (k := k) fun _ ↦ hf
  rwa [hf, hk] at hmove

theorem count_leave (hi : i ∈ S) (hf : p (f i) = true) (hk : p k = false) :
    count (insert i S) (Function.update f i k) p + 1 = count S f p := by
  have hmove := count_move (f := f) (k := k) (p := p) fun h ↦ absurd hi h
  rwa [hf, hk] at hmove

end Move

/-! ## Tallies add up -/

theorem count_add (hpq : ∀ i ∈ S, p (f i) = true → q (f i) = false) :
    count S f p + count S f q = count S f fun k ↦ p k || q k := by
  rw [count_eq_sum, count_eq_sum, count_eq_sum, ← sum_add_distrib]
  refine sum_congr rfl fun i hi ↦ ?_
  cases hp : p (f i) with
  | false => rw [Bool.false_or, Bool.toNat_false, Nat.zero_add]
  | true => rw [hpq i hi hp, Bool.true_or, Bool.toNat_false, Nat.add_zero]

/-- **The tallies of the owners add up.** -/
theorem sum_count_owner [DecidableEq σ] {owner : κ → Option σ} {T : Finset σ}
    (hT : ∀ i ∈ S, ∀ c, owner (f i) = some c → c ∈ T) :
    ∑ c ∈ T, count S f (fun k ↦ owner k == some c) = count S f fun k ↦ (owner k).isSome := by
  simp only [count_eq_sum]
  rw [sum_comm]
  refine sum_congr rfl fun i hi ↦ ?_
  cases ho : owner (f i) with
  | none => exact sum_eq_zero fun c _ ↦ rfl
  | some c =>
    rw [sum_eq_single_of_mem c (hT i hi c ho)]
    · rw [beq_self_eq_true]
      rfl
    · intro c' _ hne
      rw [beq_eq_false_iff_ne.mpr fun heq ↦ hne (Option.some.inj heq).symm]
      rfl

end Tally
