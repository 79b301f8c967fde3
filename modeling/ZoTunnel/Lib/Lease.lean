import Mathlib.Data.List.Nodup
import Mathlib.Logic.Function.Basic
import Mathlib.Order.Monotone.Basic

/-!
# Leases

A lease is issued to an identifier at some time, holds while its age is admissible, and can be
revoked. What has been issued and revoked is a *log*, and `Valid` reads off a log whether a lease
holds now. The log alone decides, so this is the specification.

A *store* keeps the time of issue of some identifiers. It may forget a lease that is too old at any
moment, and it forgets the revoked ones at once. `Tracks` says that a store agrees with a log so
far; each operation keeps it, and while it holds a lookup in the store decides validity.

Identifiers are issued once. That is what makes the end of a lease final.
-/

namespace Lease

variable {ι : Type*}

/-- What a log records. -/
inductive Event (ι : Type*)
  | issue (id : ι) (t : ℕ)
  | revoke (id : ι)

/-- The identifiers that were issued. -/
def issued (log : List (Event ι)) : List ι :=
  log.filterMap fun | .issue id _ => some id | .revoke _ => none

@[simp] theorem issued_append (log log' : List (Event ι)) :
    issued (log ++ log') = issued log ++ issued log' := List.filterMap_append

theorem mem_issued {log : List (Event ι)} {id : ι} : id ∈ issued log ↔ ∃ t, .issue id t ∈ log := by
  rw [issued, List.mem_filterMap]
  constructor
  · rintro ⟨e, he, heq⟩
    cases e with
    | issue id' t =>
      rw [Option.some.injEq] at heq
      exact ⟨t, heq ▸ he⟩
    | revoke => cases heq
  · rintro ⟨t, hmem⟩
    exact ⟨_, hmem, rfl⟩

/-- A lease holds: it was issued, is not revoked since, and is of an age that is alive. -/
def Valid (alive : ℕ → Prop) (log : List (Event ι)) (id : ι) (now : ℕ) : Prop :=
  ∃ log₁ t log₂, log = log₁ ++ .issue id t :: log₂ ∧ .revoke id ∉ log₂ ∧ alive (now - t)

section Log

variable {alive : ℕ → Prop} {log log' log₁ log₂ log₃ log₄ : List (Event ι)} {id : ι}
  {t t' now now' : ℕ}

/-- An identifier that is issued once has one place in the log. -/
theorem issue_unique (hnodup : (issued log).Nodup) (hlog : log = log₁ ++ .issue id t :: log₂)
    (hlog' : log = log₃ ++ .issue id t' :: log₄) : log₁ = log₃ ∧ t = t' ∧ log₂ = log₄ := by
  subst hlog
  have hlt : ∀ {l₁ l₂ l₃ l₄ : List (Event ι)} {t t' : ℕ}, (issued (l₁ ++ .issue id t :: l₂)).Nodup →
      ∀ {e : Event ι} {l : List (Event ι)}, l₃ = l₁ ++ e :: l →
        l₁ ++ .issue id t :: l₂ ≠ l₃ ++ .issue id t' :: l₄ := by
    rintro l₁ l₂ l₃ l₄ t t' hn e l rfl heq
    rw [List.append_assoc, List.append_cancel_left_eq, List.cons_append, List.cons.injEq] at heq
    obtain ⟨rfl, rfl⟩ := heq
    rw [issued_append, List.nodup_append] at hn
    have hmem : id ∈ issued (l ++ .issue id t' :: l₄) :=
      mem_issued.mpr ⟨t', List.mem_append_right _ List.mem_cons_self⟩
    exact (List.nodup_cons.mp hn.2.1).1 hmem
  rcases List.append_eq_append_iff.mp hlog' with ⟨as, has, htail⟩ | ⟨bs, hbs, htail⟩
  · cases as with
    | nil =>
      rw [List.nil_append, List.cons.injEq, Event.issue.injEq] at htail
      rw [List.append_nil] at has
      exact ⟨has.symm, htail.1.2, htail.2⟩
    | cons e l => exact absurd hlog' (hlt hnodup has)
  · cases bs with
    | nil =>
      rw [List.nil_append, List.cons.injEq, Event.issue.injEq] at htail
      rw [List.append_nil] at hbs
      exact ⟨hbs, htail.1.2.symm, htail.2.symm⟩
    | cons e l => exact absurd hlog'.symm (hlt (hlog' ▸ hnodup) hbs)

/-- A place in a longer log that is not the new one is a place in the log before. -/
theorem split_of_concat {e x : Event ι} (hne : x ≠ e) (heq : log ++ [e] = log₁ ++ x :: log₂) :
    ∃ l, log₂ = l ++ [e] ∧ log = log₁ ++ x :: l := by
  rcases List.eq_nil_or_concat log₂ with rfl | ⟨l, e', rfl⟩
  · have hlast := congrArg List.getLast? heq
    rw [List.getLast?_concat, List.getLast?_concat, Option.some.injEq] at hlast
    exact absurd hlast.symm hne
  · rw [List.concat_eq_append, ← List.cons_append, ← List.append_assoc] at heq
    obtain ⟨rfl, hlast⟩ := List.append_inj' heq rfl
    rw [List.cons.injEq] at hlast
    exact ⟨l, by rw [hlast.1, List.concat_eq_append], rfl⟩

/-- **The end of a lease is final.** What holds later, of an identifier issued by now, holds now. -/
theorem Valid.of_later (halive : Antitone alive) (hnodup : (issued (log ++ log')).Nodup)
    (hid : id ∈ issued log) (hle : now ≤ now') (hv : Valid alive (log ++ log') id now') :
    Valid alive log id now := by
  obtain ⟨l₁, t, l₂, heq, hrev, hage⟩ := hv
  obtain ⟨t₀, hmem⟩ := mem_issued.mp hid
  obtain ⟨m₁, m₂, rfl⟩ := List.append_of_mem hmem
  obtain ⟨rfl, rfl, rfl⟩ := issue_unique hnodup heq
    (by rw [List.append_assoc]; rfl : _ = m₁ ++ .issue id t₀ :: (m₂ ++ log'))
  exact ⟨_, _, _, rfl, fun hmem ↦ hrev (List.mem_append_left _ hmem),
    halive (Nat.sub_le_sub_right hle t) hage⟩

end Log

/-! ## Stores -/

/-- A store agrees with a log at some time. -/
structure Tracks (alive : ℕ → Prop) (log : List (Event ι)) (store : ι → Option ℕ) (clock : ℕ) :
    Prop where
  once : (issued log).Nodup
  /-- The store has what was issued and not revoked since, -/
  sound : ∀ id t, store id = some t → ∃ log₁ log₂, log = log₁ ++ .issue id t :: log₂ ∧
    .revoke id ∉ log₂
  /-- and all of it that is not too old. -/
  complete : ∀ log₁ id t log₂, log = log₁ ++ .issue id t :: log₂ → .revoke id ∉ log₂ →
    store id = some t ∨ ¬alive (clock - t)

namespace Tracks

variable {alive : ℕ → Prop} {log : List (Event ι)} {store : ι → Option ℕ} {clock clock' t : ℕ}
  {id : ι}

theorem empty (alive : ℕ → Prop) (clock : ℕ) :
    Tracks alive ([] : List (Event ι)) (fun _ ↦ none) clock where
  once := List.nodup_nil
  sound id t ht := by cases ht
  complete log₁ id t log₂ heq := by simp at heq

/-- **A lookup decides validity.** -/
theorem valid_iff (ht : Tracks alive log store clock) :
    Valid alive log id clock ↔ ∃ t, store id = some t ∧ alive (clock - t) := by
  constructor
  · rintro ⟨log₁, t, log₂, heq, hrev, hage⟩
    exact ⟨t, (ht.complete log₁ id t log₂ heq hrev).resolve_right (not_not_intro hage), hage⟩
  · rintro ⟨t, hs, hage⟩
    obtain ⟨log₁, log₂, heq, hrev⟩ := ht.sound id t hs
    exact ⟨log₁, t, log₂, heq, hrev, hage⟩

theorem wait (ht : Tracks alive log store clock) (halive : Antitone alive) (hle : clock ≤ clock') :
    Tracks alive log store clock' := by
  refine ⟨ht.once, ht.sound, fun log₁ id t log₂ heq hrev ↦ ?_⟩
  refine (ht.complete log₁ id t log₂ heq hrev).imp_right fun hdead hage ↦ hdead ?_
  exact halive (Nat.sub_le_sub_right hle t) hage

variable [DecidableEq ι]

theorem issue (ht : Tracks alive log store clock) (hid : id ∉ issued log) :
    Tracks alive (log ++ [.issue id clock]) (Function.update store id (some clock)) clock := by
  have hnew : issued [Event.issue id clock] = [id] := rfl
  have hnodup : (issued (log ++ [.issue id clock])).Nodup := by
    rw [issued_append, hnew, List.nodup_append]
    refine ⟨ht.once, List.nodup_singleton id, fun a ha b hb ↦ ?_⟩
    rw [List.mem_singleton.mp hb]
    rintro rfl
    exact hid ha
  refine ⟨hnodup, fun id' t hs ↦ ?_, fun log₁ id' t log₂ heq hrev ↦ ?_⟩
  · by_cases hne : id' = id
    · subst hne
      rw [Function.update_self, Option.some.injEq] at hs
      exact ⟨log, [], by rw [hs], List.not_mem_nil⟩
    · rw [Function.update_of_ne hne] at hs
      obtain ⟨log₁, log₂, rfl, hrev⟩ := ht.sound id' t hs
      refine ⟨log₁, log₂ ++ [.issue id clock], by simp, fun hmem ↦ ?_⟩
      exact (List.mem_append.mp hmem).elim hrev (by simp)
  · by_cases hne : id' = id
    · subst hne
      obtain ⟨-, rfl, -⟩ := issue_unique hnodup rfl heq
      exact .inl (Function.update_self ..)
    · rw [Function.update_of_ne hne]
      obtain ⟨l, rfl, rfl⟩ := split_of_concat (fun h ↦ hne (Event.issue.inj h).1) heq
      exact ht.complete log₁ id' t l rfl fun hmem ↦ hrev (List.mem_append_left _ hmem)

theorem revoke (ht : Tracks alive log store clock) :
    Tracks alive (log ++ [.revoke id]) (Function.update store id none) clock := by
  refine ⟨?_, fun id' t hs ↦ ?_, fun log₁ id' t log₂ heq hrev ↦ ?_⟩
  · rw [issued_append, show issued [Event.revoke id] = [] from rfl, List.append_nil]
    exact ht.once
  · by_cases hne : id' = id
    · rw [hne, Function.update_self] at hs
      cases hs
    · rw [Function.update_of_ne hne] at hs
      obtain ⟨log₁, log₂, rfl, hrev⟩ := ht.sound id' t hs
      refine ⟨log₁, log₂ ++ [.revoke id], by simp, fun hmem ↦ ?_⟩
      rcases List.mem_append.mp hmem with hmem | hmem
      · exact hrev hmem
      · exact hne (Event.revoke.inj (List.mem_singleton.mp hmem))
  · have hkind : Event.issue id' t ≠ .revoke id := nofun
    obtain ⟨l, rfl, rfl⟩ := split_of_concat hkind heq
    have hne : id' ≠ id := by
      rintro rfl
      exact hrev (List.mem_append_right _ (List.mem_singleton_self _))
    rw [Function.update_of_ne hne]
    exact ht.complete log₁ id' t l rfl fun hmem ↦ hrev (List.mem_append_left _ hmem)

theorem forget (ht : Tracks alive log store clock) (hid : .issue id t ∈ log)
    (hdead : ¬alive (clock - t)) :
    Tracks alive log (Function.update store id none) clock := by
  refine ⟨ht.once, fun id' t' hs ↦ ?_, fun log₁ id' t' log₂ heq hrev ↦ ?_⟩
  · by_cases hne : id' = id
    · rw [hne, Function.update_self] at hs
      cases hs
    · rw [Function.update_of_ne hne] at hs
      exact ht.sound id' t' hs
  · by_cases hne : id' = id
    · subst hne
      obtain ⟨l₁, l₂, hl⟩ := List.append_of_mem hid
      obtain ⟨-, rfl, -⟩ := issue_unique ht.once hl heq
      exact .inr hdead
    · rw [Function.update_of_ne hne]
      exact ht.complete log₁ id' t' log₂ heq hrev

end Tracks

end Lease
