import Mathlib.Data.List.Induction
import Mathlib.Data.List.Nodup
import Mathlib.Tactic.Common

/-!
# Siblings in order

The children of an element, as a list without repetition, with the operations of the DOM that a
reconciliation uses: the next sibling, insertion before a sibling, which moves a child that is in
the list already, and removal.

`place` puts one child behind the last one that was placed, and moves nothing if it stands there.
Over a front that is done it extends the front by one and keeps the order of the rest (`place_eq`).
This is the step of any loop that brings a list of children into a given order.
-/

namespace Siblings

variable {α : Type*} [DecidableEq α]

/-- The child behind `x`. -/
def nextSibling (children : List α) (x : α) : Option α :=
  (children.dropWhile (· ≠ x)).tail.head?

/-- Insert `x` before a sibling, or at the end. If `x` is a child, it moves. -/
def insertBefore (children : List α) (x : α) : Option α → List α
  | none => children.erase x ++ [x]
  | some ref =>
    (children.erase x).takeWhile (· ≠ ref) ++ x :: (children.erase x).dropWhile (· ≠ ref)

/-- The child behind the last one that was placed, or the first one. -/
def current (children : List α) : Option α → Option α
  | none => children.head?
  | some last => nextSibling children last

/-- Put `x` behind the last one that was placed. -/
def place (children : List α) (last : Option α) (x : α) : List α :=
  if current children last = some x then children
  else insertBefore children x (current children last)

variable {done rest : List α} {x : α}

/-- The siblings before a child that stands behind `front`. -/
private theorem takeWhile_ne (hx : x ∉ done) :
    (done ++ x :: rest).takeWhile (· ≠ x) = done := by
  have hall : ∀ y ∈ done, decide (y ≠ x) = true := by
    intro y hy
    rw [decide_eq_true_eq]
    rintro rfl
    exact hx hy
  rw [List.takeWhile_append_of_pos hall, List.takeWhile_cons_of_neg (by simp), List.append_nil]

private theorem dropWhile_ne (hx : x ∉ done) :
    (done ++ x :: rest).dropWhile (· ≠ x) = x :: rest := by
  have hall : ∀ y ∈ done, decide (y ≠ x) = true := by
    intro y hy
    rw [decide_eq_true_eq]
    rintro rfl
    exact hx hy
  rw [List.dropWhile_append_of_pos hall, List.dropWhile_cons_of_neg (by simp)]

theorem current_append (hnodup : (done ++ rest).Nodup) :
    current (done ++ rest) done.getLast? = rest.head? := by
  induction done using List.reverseRecOn with
  | nil => rfl
  | append_singleton done last =>
    have hlast : last ∉ done := by
      rw [List.append_assoc, List.singleton_append] at hnodup
      intro hmem
      exact (List.disjoint_of_nodup_append hnodup) hmem List.mem_cons_self
    rw [List.getLast?_concat, current, nextSibling, List.append_assoc, List.singleton_append,
      dropWhile_ne hlast, List.tail_cons]

/-- **One step.** Behind a front that is done comes `x`, then the rest without `x`. -/
theorem place_eq (hnodup : (done ++ rest).Nodup) (hx : x ∉ done) :
    place (done ++ rest) done.getLast? x = done ++ x :: rest.erase x := by
  rw [place, current_append hnodup]
  cases rest with
  | nil =>
    rw [List.head?_nil, if_neg (by simp), insertBefore, List.append_nil, List.erase_of_not_mem hx]
    rfl
  | cons ref rest =>
    rw [List.head?_cons]
    split
    next heq => rw [Option.some.inj heq, List.erase_cons_head]
    next hne =>
      have hne : ref ≠ x := fun heq ↦ hne (congrArg some heq)
      have href : ref ∉ done := fun hmem ↦
        (List.disjoint_of_nodup_append hnodup) hmem List.mem_cons_self
      rw [insertBefore, List.erase_append_right _ hx, List.erase_cons_tail (by simpa using hne),
        takeWhile_ne href, dropWhile_ne href]

end Siblings
