import ZoTunnel.Lib.Window
import ZoTunnel.Server.Metrics

/-!
# What the rate limiter admits

`RateLimiter.check` answers one call. Here are sequences of calls over any keys, made one after
the other on a new limiter. A key's entry is touched by the key's own calls only, and on them the
limiter is the counter of `Window`, with its count in 32 bits.

So the limiter admits the first `maxPerSecond` calls of each window of a key. Its windows begin
with a call and do not slide: the end of one and the beginning of the next can share a second.
-/

namespace ZoTunnel

namespace RateLimiter

def new (maxPerSecond : UInt32) : RateLimiter := { maxPerSecond }

/-- A call of `check`: the key, and the time when the limiter looks. -/
structure Call where
  key : String
  now : ℕ
  deriving DecidableEq, Repr

/-- The calls in order, each with its answer. -/
def judge (rl : RateLimiter) : List Call → List (Call × Bool)
  | [] => []
  | c :: cs => (c, (rl.check c.key c.now).1) :: (rl.check c.key c.now).2.judge cs

/-- The limiter after the calls. -/
def after (rl : RateLimiter) : List Call → RateLimiter
  | [] => rl
  | c :: cs => (rl.check c.key c.now).2.after cs

/-- A key's entry, with the count as a number. -/
def entry (rl : RateLimiter) (key : String) : Option (ℕ × ℕ) :=
  (rl.counters key).map fun v ↦ (v.1, v.2.toNat)

theorem toNat_succ {count max : UInt32} (hlt : count < max) :
    (count + 1).toNat = count.toNat + 1 := by
  have := UInt32.lt_iff_toNat_lt.mp hlt
  have := max.toNat_lt
  rw [UInt32.toNat_add, UInt32.toNat_one]
  omega

section Check

variable {rl rl' : RateLimiter} {key key' : String} {now : ℕ}

/-- What a check does: nothing without a limit, else it decides by the key's entry and rewrites
that entry. -/
theorem check_cases (rl : RateLimiter) (key : String) (now : ℕ) :
    rl.maxPerSecond = 0 ∧ rl.check key now = (true, rl) ∨
      rl.maxPerSecond ≠ 0 ∧ ∃ allowed start count,
        rl.check key now =
          (allowed, { rl with counters := Function.update rl.counters key (some (start, count)) }) ∧
        (allowed, start, count.toNat) =
          Window.decideAt window rl.maxPerSecond.toNat (rl.entry key) now := by
  rw [check]
  split
  next hzero => exact .inl ⟨hzero, rfl⟩
  next hmax =>
    refine .inr ⟨hmax, ?_⟩
    set p := (rl.counters key).getD (now, 0) with hp
    have hget : (rl.entry key).getD (now, 0) = (p.1, p.2.toNat) := by
      rw [hp, entry]
      cases rl.counters key with
      | none => rfl
      | some v => rfl
    rw [Window.decideAt, hget]
    simp only
    split
    · exact ⟨true, now, 1, rfl, rfl⟩
    · split
      next hlt =>
        rw [if_pos (UInt32.lt_iff_toNat_lt.mp hlt)]
        exact ⟨true, p.1, p.2 + 1, rfl, by rw [toNat_succ hlt]⟩
      next hge =>
        rw [if_neg fun hlt ↦ hge (UInt32.lt_iff_toNat_lt.mpr hlt)]
        exact ⟨false, p.1, p.2, rfl, rfl⟩

@[simp] theorem check_maxPerSecond :
    (rl.check key now).2.maxPerSecond = rl.maxPerSecond := by
  rcases check_cases rl key now with ⟨-, heq⟩ | ⟨-, _, _, _, heq, -⟩ <;> rw [heq]

theorem check_counters_ne (hne : key' ≠ key) :
    (rl.check key now).2.counters key' = rl.counters key' := by
  rcases check_cases rl key now with ⟨-, heq⟩ | ⟨-, _, _, _, heq, -⟩
  · rw [heq]
  · rw [heq]
    exact Function.update_of_ne hne _ _

/-- Two limiters that agree on a key answer its calls alike, and agree on it afterwards. -/
theorem check_congr (now : ℕ) (hmax : rl.maxPerSecond = rl'.maxPerSecond)
    (hkey : rl.counters key = rl'.counters key) :
    (rl.check key now).1 = (rl'.check key now).1 ∧
      (rl.check key now).2.counters key = (rl'.check key now).2.counters key := by
  rw [check, check, ← hmax, ← hkey]
  split
  · exact ⟨rfl, hkey⟩
  · simp only
    split
    · exact ⟨rfl, by simp only [Function.update_self]⟩
    · split <;> exact ⟨rfl, by simp only [Function.update_self]⟩

/-- On the key's own entry a check is one step of the window counter. -/
theorem check_refines (key : String) (now : ℕ) (hmax : rl.maxPerSecond ≠ 0) :
    (rl.check key now).1 = (Window.decideAt window rl.maxPerSecond.toNat (rl.entry key) now).1 ∧
      (rl.check key now).2.entry key =
        some (Window.decideAt window rl.maxPerSecond.toNat (rl.entry key) now).2 := by
  rcases check_cases rl key now with ⟨hzero, -⟩ | ⟨-, allowed, start, count, heq, hadmit⟩
  · exact absurd hzero hmax
  · rw [heq, ← hadmit]
    refine ⟨rfl, ?_⟩
    exact congrArg (Option.map _) (Function.update_self key (some (start, count)) rl.counters)

end Check

/-! ## Sequences of calls -/

section Judge

variable {rl rl' : RateLimiter} {key : String}

/-- **Isolation.** The answers to a key's calls are those of a limiter that gets no other calls. -/
theorem filter_judge (hmax : rl.maxPerSecond = rl'.maxPerSecond)
    (hkey : rl.counters key = rl'.counters key) (calls : List Call) :
    (rl.judge calls).filter (fun d ↦ d.1.key = key) =
      rl'.judge (calls.filter fun c ↦ c.key = key) := by
  induction calls generalizing rl rl' with
  | nil => rfl
  | cons c cs ih =>
    rw [judge]
    by_cases hc : c.key = key
    · subst hc
      obtain ⟨hfst, hsnd⟩ := check_congr c.now hmax hkey
      rw [List.filter_cons_of_pos (by simp), List.filter_cons_of_pos (by simp), judge, hfst,
        ih (by rw [check_maxPerSecond, check_maxPerSecond, hmax]) hsnd]
    · rw [List.filter_cons_of_neg (by simpa using hc), List.filter_cons_of_neg (by simpa using hc)]
      refine ih ?_ ?_
      · rw [check_maxPerSecond, hmax]
      · rw [check_counters_ne (Ne.symm hc), hkey]

/-- The answers to a key's calls are the window counter's to their times. -/
theorem map_judge (rl : RateLimiter) (hmax : rl.maxPerSecond ≠ 0) (key : String)
    (calls : List Call) :
    ((rl.judge calls).filter fun d ↦ d.1.key = key).map (fun d ↦ (d.1.now, d.2)) =
      Window.judge window rl.maxPerSecond.toNat (rl.entry key)
        ((calls.filter fun c ↦ c.key = key).map (·.now)) := by
  induction calls generalizing rl with
  | nil => rfl
  | cons c cs ih =>
    rw [judge]
    by_cases hc : c.key = key
    · subst hc
      obtain ⟨hfst, hsnd⟩ := check_refines c.key c.now hmax
      rw [List.filter_cons_of_pos (by simp), List.filter_cons_of_pos (by simp), List.map_cons,
        List.map_cons, ih _ (by rwa [check_maxPerSecond]), hsnd, check_maxPerSecond, hfst,
        Window.judge]
    · rw [List.filter_cons_of_neg (by simpa using hc), List.filter_cons_of_neg (by simpa using hc),
        ih _ (by rwa [check_maxPerSecond]), check_maxPerSecond, entry,
        check_counters_ne (Ne.symm hc), ← entry]

/-- The stored counts are within the limit. -/
def Bounded (rl : RateLimiter) : Prop :=
  ∀ key start count, rl.counters key = some (start, count) → count ≤ rl.maxPerSecond

theorem bounded_check (h : rl.Bounded) (now : ℕ) : (rl.check key now).2.Bounded := by
  intro key' start count hget
  rw [check_maxPerSecond]
  rcases check_cases rl key now with ⟨-, heq⟩ | ⟨hmax, allowed, start', count', heq, hadmit⟩
  · rw [heq] at hget
    exact h key' start count hget
  · by_cases hkey : key' = key
    · subst hkey
      rw [heq] at hget
      simp only [Function.update_self, Option.some.injEq, Prod.mk.injEq] at hget
      obtain ⟨rfl, rfl⟩ := hget
      have hpos : 0 < rl.maxPerSecond.toNat := by
        rcases Nat.eq_zero_or_pos rl.maxPerSecond.toNat with hzero | hpos
        · exact absurd (UInt32.toNat_inj.mp hzero) hmax
        · exact hpos
      rw [UInt32.le_iff_toNat_le]
      rcases Window.decideAt_cases (rl.entry key') now with
        ⟨-, hcase⟩ | ⟨-, hlt, hcase⟩ | ⟨-, -, hcase⟩
      · rw [hcase, Prod.mk.injEq, Prod.mk.injEq] at hadmit
        omega
      · rw [hcase, Prod.mk.injEq, Prod.mk.injEq] at hadmit
        omega
      · rw [hcase, Prod.mk.injEq] at hadmit
        have hcount : count'.toNat = ((rl.entry key').getD (now, 0)).2 :=
          congrArg Prod.snd hadmit.2
        rw [hcount, entry]
        cases hentry : rl.counters key' with
        | none => exact Nat.zero_le _
        | some v => exact UInt32.le_iff_toNat_le.mp (h key' v.1 v.2 hentry)
    · rw [check_counters_ne hkey] at hget
      exact h key' start count hget

theorem bounded_after (h : rl.Bounded) (calls : List Call) : (rl.after calls).Bounded := by
  induction calls generalizing rl with
  | nil => exact h
  | cons c cs ih => exact ih (bounded_check h c.now)

@[simp] theorem after_maxPerSecond (calls : List Call) :
    (rl.after calls).maxPerSecond = rl.maxPerSecond := by
  induction calls generalizing rl with
  | nil => rfl
  | cons c cs ih => rw [after, ih, check_maxPerSecond]

/-! ## The limit in any second -/

theorem window_pos : 0 < window := Nat.succ_pos _

theorem toNat_pos {max : UInt32} (hmax : max ≠ 0) : 0 < max.toNat :=
  Nat.pos_of_ne_zero fun hzero ↦ hmax (UInt32.toNat_inj.mp hzero)

/-- The times of a key's calls. -/
def timesOf (key : String) (calls : List Call) : List ℕ :=
  (calls.filter fun c ↦ c.key = key).map (·.now)

theorem timesOf_sorted (key : String) {calls : List Call}
    (hsorted : calls.Pairwise fun c d ↦ c.now ≤ d.now) : (timesOf key calls).Pairwise (· ≤ ·) :=
  List.pairwise_map.mpr (hsorted.sublist List.filter_sublist)

/-- The allowed calls of a key in an interval, counted among the counter's decisions. -/
theorem length_filter_judge (rl : RateLimiter) (hmax : rl.maxPerSecond ≠ 0) (key : String)
    (calls : List Call) (p : ℕ → Bool) :
    ((rl.judge calls).filter fun d ↦ d.2 ∧ d.1.key = key ∧ p d.1.now).length =
      ((Window.admitted (Window.judge window rl.maxPerSecond.toNat (rl.entry key)
        (timesOf key calls))).filter p).length := by
  rw [timesOf, ← map_judge rl hmax, Window.admitted, List.filter_map, List.filter_map,
    List.filter_filter, List.length_map, List.filter_map, List.filter_filter, List.length_map]
  refine congrArg List.length (List.filter_congr fun d _ ↦ ?_)
  simp only [Function.comp_apply, Bool.decide_and, Bool.decide_eq_true]
  rw [Bool.and_left_comm, Bool.and_comm (p d.1.now), Bool.and_left_comm, Bool.and_assoc]

/-- **When no second has more than the limit.** Cut the times of the key's calls into windows, one
opened by the first call and by each call a second or more after the window's first. Over calls in
time order, every half-open interval of a second has at most `max` allowed calls of the key iff,
of any two consecutive windows, no call among the first `max` of the later one comes within a
second of the call that is `max` allowed calls before it in the earlier one. -/
theorem check_sliding_iff (max : UInt32) (hmax : max ≠ 0) (calls : List Call)
    (hsorted : calls.Pairwise fun c d ↦ c.now ≤ d.now) (key : String) :
    (∀ x, (((new max).judge calls).filter fun d ↦
        d.2 ∧ d.1.key = key ∧ x ≤ d.1.now ∧ d.1.now < x + window).length ≤ max.toNat) ↔
      (Window.windows window (timesOf key calls)).IsChain (Window.Apart window max.toNat) := by
  rw [← Window.sliding_iff_isChain window_pos (toNat_pos hmax) (timesOf_sorted key hsorted)]
  refine forall_congr' fun x ↦ ?_
  have hlen := length_filter_judge (new max) hmax key calls fun t ↦ x ≤ t ∧ t < x + window
  simp only [decide_eq_true_eq] at hlen
  rw [hlen]
  rfl

/-- The calls of a key at the given tenths of a second. -/
private def tenths (key : String) (ts : List ℕ) : List Call :=
  ts.map fun t ↦ ⟨key, t * 100000000⟩

theorem check_sliding_iff_burst :
    (2 : UInt32) ≠ 0 ∧
      ((tenths "client-a" [0, 9, 10, 19]).Pairwise fun c d ↦ c.now ≤ d.now) ∧
      ∀ x, (((new 2).judge (tenths "client-a" [0, 9, 10, 19])).filter fun d ↦
        d.2 ∧ d.1.key = "client-a" ∧ x ≤ d.1.now ∧ d.1.now < x + window).length ≤ 2 := by
  have hsorted : (tenths "client-a" [0, 9, 10, 19]).Pairwise fun c d ↦ c.now ≤ d.now := by decide
  refine ⟨by decide, hsorted, ?_⟩
  refine (check_sliding_iff 2 (by decide) _ hsorted "client-a").mpr ?_
  have hwindows : Window.windows window (timesOf "client-a" (tenths "client-a" [0, 9, 10, 19])) =
      [[0, 900000000], [1000000000, 1900000000]] := by decide +kernel
  rw [hwindows, List.isChain_pair]
  -- the two windows are full, so the calls to compare have the same place in them
  intro i k x y hk hx hy
  obtain rfl : k = i := Nat.add_right_cancel hk
  match k with
  | 0 =>
    obtain rfl := Option.some.inj hx
    obtain rfl := Option.some.inj hy
    exact le_rfl
  | 1 =>
    obtain rfl := Option.some.inj hx
    obtain rfl := Option.some.inj hy
    exact le_rfl
  | k + 2 => cases hx

/-- A burst over the end of a window: of a limit of two, three calls pass in a fifth of a
second. -/
theorem check_not_sliding :
    ¬ ∀ (max : UInt32), max ≠ 0 → ∀ calls : List Call,
      (calls.Pairwise fun c d ↦ c.now ≤ d.now) → ∀ (key : String) (x : ℕ),
        (((new max).judge calls).filter fun d ↦
          d.2 ∧ d.1.key = key ∧ x ≤ d.1.now ∧ d.1.now < x + window).length ≤ max.toNat := by
  intro h
  have := h 2 (by decide) (tenths "client-a" [0, 9, 10, 11]) (by decide) "client-a" 900000000
  exact absurd this (by decide +kernel)

/-! ## Isolation, and no false refusal -/

/-- A refused call of a new limiter has the limit's worth of its key's calls in the second before
it. -/
theorem rejected_full (max : UInt32) (calls : List Call)
    (hsorted : calls.Pairwise fun c d ↦ c.now ≤ d.now) {ds₁ ds₂ : List (Call × Bool)} {c : Call}
    (hjudge : (new max).judge calls = ds₁ ++ (c, false) :: ds₂) :
    max.toNat ≤ (ds₁.filter fun d ↦
      d.2 ∧ d.1.key = c.key ∧ c.now < d.1.now + window).length := by
  by_cases hmax : max = 0
  · rw [hmax]
    exact Nat.zero_le _
  · have hmap := map_judge (new max) hmax c.key calls
    rw [hjudge, List.filter_append, List.filter_cons_of_pos (by simp), List.map_append,
      List.map_cons] at hmap
    have hfull := Window.rejected_full (toNat_pos hmax) (timesOf_sorted c.key hsorted)
      (show Window.Backed [] none _ from fun _ _ hnone ↦ by cases hnone) hmap.symm
    rw [List.nil_append, List.filter_map, List.length_map, List.filter_filter] at hfull
    refine hfull.trans_eq (congrArg List.length (List.filter_congr fun d _ ↦ ?_))
    simp only [Function.comp_apply, Bool.decide_and, Bool.decide_eq_true]
    rw [Bool.and_assoc, Bool.and_comm (decide (c.now < d.1.now + window))]

/-- **Fairness.** Over calls in time order: a key's answers are as if only its own calls had been
made; a refused call has at least `max` allowed calls of its key before it, each less than a
second ago; and a stored count is at most `max`, and one below it has a successor in 32 bits. -/
theorem check_fair (max : UInt32) (calls : List Call)
    (hsorted : calls.Pairwise fun c d ↦ c.now ≤ d.now) :
    (∀ key, ((new max).judge calls).filter (fun d ↦ d.1.key = key) =
      (new max).judge (calls.filter fun c ↦ c.key = key)) ∧
    (∀ ds₁ c ds₂, (new max).judge calls = ds₁ ++ (c, false) :: ds₂ →
      max.toNat ≤ (ds₁.filter fun d ↦
        d.2 ∧ d.1.key = c.key ∧ c.now < d.1.now + window).length) ∧
    ∀ key start count, ((new max).after calls).counters key = some (start, count) →
      count ≤ max ∧ (count < max → (count + 1).toNat = count.toNat + 1) := by
  refine ⟨fun key ↦ filter_judge rfl rfl calls, fun ds₁ c ds₂ hjudge ↦ ?_,
    fun key start count hget ↦ ⟨?_, toNat_succ⟩⟩
  · exact rejected_full max calls hsorted hjudge
  · have hnew : (new max).Bounded := fun _ _ _ hnone ↦ by cases hnone
    have hle := bounded_after hnew calls key start count hget
    rwa [after_maxPerSecond] at hle

theorem check_fair_refusal :
    ∃ ds₁ c ds₂,
      (new 1).judge [⟨"client-a", 5⟩, ⟨"client-b", 6⟩, ⟨"client-a", 7⟩] =
        ds₁ ++ (c, false) :: ds₂ ∧
      1 ≤ (ds₁.filter fun d ↦ d.2 ∧ d.1.key = c.key ∧ c.now < d.1.now + window).length :=
  have hjudge : (new 1).judge [⟨"client-a", 5⟩, ⟨"client-b", 6⟩, ⟨"client-a", 7⟩] =
      [(⟨"client-a", 5⟩, true), (⟨"client-b", 6⟩, true)] ++ (⟨"client-a", 7⟩, false) :: [] := by
    decide +kernel
  ⟨_, _, _, hjudge, (check_fair 1 _ (by decide)).2.1 _ _ _ hjudge⟩

end Judge

end RateLimiter

end ZoTunnel
