import Mathlib.Data.List.Chain
import Mathlib.Data.List.Pairwise
import Mathlib.Data.Nat.Notation
import Mathlib.Tactic.Common

/-!
# Admission in fixed windows

A counter admits at most `limit` requests a window. A request opens a window: the first one, and
then each one that comes at least `width` after the open window began. What is wanted of such a
counter is often `Sliding`, that *no* interval of length `width` has more than `limit` admitted
requests, wherever it starts.

The counter does less. It admits the first `limit` requests of every window, and the windows are
read off the times alone (`windows`), so the admitted requests are known (`admitted_judge_none`).
Two consecutive windows can still crowd one interval; `sliding_iff_isChain` says exactly when they
do not. In the other direction the counter never refuses too early (`rejected_full`).
-/

namespace Window

variable {width limit : ℕ}

/-! ## The counter -/

/-- Decide a request at `t`. The state is the start of the open window with the number of requests
admitted in it. -/
def decideAt (width limit : ℕ) (s : Option (ℕ × ℕ)) (t : ℕ) : Bool × ℕ × ℕ :=
  let (start, count) := s.getD (t, 0)
  if width ≤ t - start then (true, t, 1)
  else if count < limit then (true, start, count + 1)
  else (false, start, count)

/-- Decide the requests in order, each with its time. -/
def judge (width limit : ℕ) : Option (ℕ × ℕ) → List ℕ → List (ℕ × Bool)
  | _, [] => []
  | s, t :: ts =>
    (t, (decideAt width limit s t).1) :: judge width limit (some (decideAt width limit s t).2) ts

/-- The times of the requests that are admitted. -/
def admitted (ds : List (ℕ × Bool)) : List ℕ := (ds.filter (·.2)).map (·.1)

theorem map_fst_judge (s : Option (ℕ × ℕ)) (ts : List ℕ) :
    (judge width limit s ts).map (·.1) = ts := by
  induction ts generalizing s with
  | nil => rfl
  | cons t ts ih => rw [judge, List.map_cons, ih]

theorem admitted_sublist (s : Option (ℕ × ℕ)) (ts : List ℕ) :
    (admitted (judge width limit s ts)).Sublist ts := by
  have h := (List.filter_sublist (p := (·.2)) (l := judge width limit s ts)).map (·.1)
  rwa [map_fst_judge] at h

theorem decideAt_none (hwidth : 0 < width) (hlimit : 0 < limit) (t : ℕ) :
    decideAt width limit none t = (true, t, 1) := by
  rw [decideAt, Option.getD_none]
  simp only [Nat.sub_self]
  rw [if_neg (by omega), if_pos hlimit]

/-- What a decision can be: the request opens a window, has a place in the open one, or has none. -/
theorem decideAt_cases (s : Option (ℕ × ℕ)) (t : ℕ) :
    width ≤ t - (s.getD (t, 0)).1 ∧ decideAt width limit s t = (true, t, 1) ∨
      t - (s.getD (t, 0)).1 < width ∧ (s.getD (t, 0)).2 < limit ∧
        decideAt width limit s t = (true, (s.getD (t, 0)).1, (s.getD (t, 0)).2 + 1) ∨
      t - (s.getD (t, 0)).1 < width ∧ limit ≤ (s.getD (t, 0)).2 ∧
        decideAt width limit s t = (false, s.getD (t, 0)) := by
  have heq : decideAt width limit s t =
      if width ≤ t - (s.getD (t, 0)).1 then (true, t, 1)
      else if (s.getD (t, 0)).2 < limit then (true, (s.getD (t, 0)).1, (s.getD (t, 0)).2 + 1)
      else (false, s.getD (t, 0)) := rfl
  rw [heq]
  rcases Nat.lt_or_ge (t - (s.getD (t, 0)).1) width with hlt | hge
  · rw [if_neg (by omega)]
    rcases Nat.lt_or_ge (s.getD (t, 0)).2 limit with hroom | hfull
    · exact .inr (.inl ⟨hlt, hroom, if_pos hroom⟩)
    · exact .inr (.inr ⟨hlt, hfull, if_neg (by omega)⟩)
  · exact .inl ⟨hge, if_pos hge⟩

theorem decideAt_some (start count t : ℕ) : decideAt width limit (some (start, count)) t =
    if width ≤ t - start then (true, t, 1)
    else if count < limit then (true, start, count + 1)
    else (false, start, count) := rfl

/-! ## The windows -/

/-- The times that belong to the window that began at `start`, and the windows after it. -/
def windowsFrom (width start : ℕ) : List ℕ → List ℕ × List (List ℕ)
  | [] => ([], [])
  | t :: ts =>
    if width ≤ t - start then
      ([], (t :: (windowsFrom width t ts).1) :: (windowsFrom width t ts).2)
    else (t :: (windowsFrom width start ts).1, (windowsFrom width start ts).2)

/-- The times of the requests, cut into windows. -/
def windows (width : ℕ) : List ℕ → List (List ℕ)
  | [] => []
  | t :: ts => (t :: (windowsFrom width t ts).1) :: (windowsFrom width t ts).2

theorem admitted_judge_some (hlimit : 0 < limit) {start count : ℕ} (hcount : count ≤ limit)
    (ts : List ℕ) : admitted (judge width limit (some (start, count)) ts) =
      (windowsFrom width start ts).1.take (limit - count) ++
        (windowsFrom width start ts).2.flatMap (List.take limit) := by
  induction ts generalizing start count with
  | nil => rw [windowsFrom, List.take_nil]; rfl
  | cons t ts ih =>
    rw [judge, decideAt_some, windowsFrom]
    split
    · -- `t` opens the next window
      rw [admitted, List.filter_cons_of_pos rfl, List.map_cons, ← admitted, ih (by omega),
        List.take_nil, List.nil_append, List.flatMap_cons]
      obtain ⟨n, rfl⟩ : ∃ n, limit = n + 1 := ⟨limit - 1, by omega⟩
      rw [List.take_succ_cons, Nat.add_sub_cancel]
      rfl
    · split
      next hlt =>
        rw [admitted, List.filter_cons_of_pos rfl, List.map_cons, ← admitted, ih (by omega)]
        obtain ⟨n, hn⟩ : ∃ n, limit - count = n + 1 := ⟨limit - count - 1, by omega⟩
        rw [hn, List.take_succ_cons, show limit - (count + 1) = n by omega]
        rfl
      next hge =>
        have hzero : limit - count = 0 := by omega
        rw [admitted, List.filter_cons_of_neg Bool.false_ne_true, ← admitted, ih hcount, hzero,
          List.take_zero, List.take_zero]

/-- **What is admitted**: the first `limit` requests of every window. -/
theorem admitted_judge_none (hwidth : 0 < width) (hlimit : 0 < limit) (ts : List ℕ) :
    admitted (judge width limit none ts) = (windows width ts).flatMap (List.take limit) := by
  cases ts with
  | nil => rfl
  | cons t ts =>
    rw [judge, decideAt_none hwidth hlimit, admitted, List.filter_cons_of_pos rfl, List.map_cons,
      ← admitted, admitted_judge_some hlimit hlimit, windows, List.flatMap_cons]
    obtain ⟨n, rfl⟩ : ∃ n, limit = n + 1 := ⟨limit - 1, by omega⟩
    rw [List.take_succ_cons, Nat.add_sub_cancel]
    rfl

/-- Windows one after the other, none before `lo`: each lasts less than `width`, and the next one
begins no sooner than `width` after its beginning. -/
inductive Successive (width : ℕ) : ℕ → List (List ℕ) → Prop
  | nil {lo : ℕ} : Successive width lo []
  | cons {lo t : ℕ} {w : List ℕ} {ws : List (List ℕ)} (hlo : lo ≤ t)
      (hw : ∀ x ∈ t :: w, t ≤ x ∧ x < t + width) (hws : Successive width (t + width) ws) :
      Successive width lo ((t :: w) :: ws)

theorem Successive.le {lo : ℕ} {ws : List (List ℕ)} (h : Successive width lo ws) :
    ∀ w ∈ ws, ∀ x ∈ w, lo ≤ x := by
  induction h with
  | nil => exact fun w hw ↦ absurd hw List.not_mem_nil
  | cons hlo hw _ ih =>
    intro w' hmem x hx
    rcases List.mem_cons.mp hmem with rfl | hmem
    · exact hlo.trans (hw x hx).1
    · have := ih w' hmem x hx
      omega

theorem successive_windowsFrom (hwidth : 0 < width) {start : ℕ} {ts : List ℕ}
    (hsorted : (start :: ts).Pairwise (· ≤ ·)) :
    (∀ x ∈ (windowsFrom width start ts).1, start ≤ x ∧ x < start + width) ∧
      Successive width (start + width) (windowsFrom width start ts).2 := by
  induction ts generalizing start with
  | nil => exact ⟨fun x hx ↦ absurd hx List.not_mem_nil, .nil⟩
  | cons t ts ih =>
    obtain ⟨hstart, hts⟩ := List.pairwise_cons.mp hsorted
    have hle : start ≤ t := hstart t List.mem_cons_self
    rw [windowsFrom]
    split
    next hopen =>
      obtain ⟨hw, hws⟩ := ih hts
      refine ⟨fun x hx ↦ absurd hx List.not_mem_nil, .cons (by omega) (fun x hx ↦ ?_) hws⟩
      rcases List.mem_cons.mp hx with rfl | hx
      · exact ⟨le_rfl, by omega⟩
      · exact hw x hx
    next hclosed =>
      obtain ⟨hw, hws⟩ := ih (List.pairwise_cons.mpr
        ⟨fun x hx ↦ hstart x (List.mem_cons_of_mem t hx), (List.pairwise_cons.mp hts).2⟩)
      refine ⟨fun x hx ↦ ?_, hws⟩
      rcases List.mem_cons.mp hx with rfl | hx
      · exact ⟨hle, by omega⟩
      · exact hw x hx

theorem successive_windows (hwidth : 0 < width) {ts : List ℕ} (hsorted : ts.Pairwise (· ≤ ·)) :
    Successive width 0 (windows width ts) := by
  cases ts with
  | nil => exact .nil
  | cons t ts =>
    obtain ⟨hw, hws⟩ := successive_windowsFrom hwidth hsorted
    refine .cons (Nat.zero_le t) (fun x hx ↦ ?_) hws
    rcases List.mem_cons.mp hx with rfl | hx
    · exact ⟨le_rfl, by omega⟩
    · exact hw x hx

/-! ## Sliding windows -/

/-- At most `limit` of the times in every half-open interval of length `width`. -/
def Sliding (width limit : ℕ) (l : List ℕ) : Prop :=
  ∀ x, (l.filter fun t ↦ x ≤ t ∧ t < x + width).length ≤ limit

/-- Any `limit + 1` of the times in a row spread over `width` at least. -/
def Gap (width limit : ℕ) (l : List ℕ) : Prop :=
  ∀ i a b, l[i]? = some a → l[i + limit]? = some b → a + width ≤ b

private theorem getElem?_mono {l : List ℕ} (hc : l.Pairwise (· ≤ ·)) {i j x y : ℕ} (hij : i ≤ j)
    (hx : l[i]? = some x) (hy : l[j]? = some y) : x ≤ y := by
  obtain ⟨hi, rfl⟩ := List.getElem?_eq_some_iff.mp hx
  obtain ⟨hj, rfl⟩ := List.getElem?_eq_some_iff.mp hy
  rcases hij.lt_or_eq with hlt | rfl
  · exact List.pairwise_iff_getElem.mp hc i j hi hj hlt
  · exact le_rfl

/-- In a sorted list, more than `n` times below a bound put the one at `n` below it. -/
private theorem getElem?_lt_of_length {l : List ℕ} (hc : l.Pairwise (· ≤ ·)) {n hi : ℕ}
    (hlen : n < (l.filter fun t ↦ t < hi).length) : ∃ b, l[n]? = some b ∧ b < hi := by
  induction l generalizing n with
  | nil => exact absurd hlen (Nat.not_lt_zero n)
  | cons a l ih =>
    obtain ⟨ha, hc⟩ := List.pairwise_cons.mp hc
    by_cases hlt : a < hi
    · rw [List.filter_cons_of_pos (by simpa using hlt), List.length_cons] at hlen
      cases n with
      | zero => exact ⟨a, rfl, hlt⟩
      | succ n => exact ih hc (by omega)
    · -- no later time is below the bound either
      rw [List.filter_cons_of_neg (by simpa using hlt), List.filter_eq_nil_iff.mpr] at hlen
      · exact absurd hlen (Nat.not_lt_zero n)
      · intro b hb
        have := ha b hb
        simp only [decide_eq_true_eq]
        omega

/-- **Sliding windows by gaps.** An interval with too many of the times has `limit + 1` of them in
a row, and these are closer together than `width`. -/
theorem sliding_iff_gap {l : List ℕ} (hc : l.Pairwise (· ≤ ·)) :
    Sliding width limit l ↔ Gap width limit l := by
  constructor
  · intro h i a b ha hb
    by_contra hlt
    -- the interval from `a` on has the times from `i` to `i + limit`
    have hsub : ((l.drop i).take (limit + 1)).Sublist l :=
      (List.take_sublist _ _).trans (List.drop_sublist _ _)
    have hall : ∀ x ∈ (l.drop i).take (limit + 1), a ≤ x ∧ x < a + width := by
      intro x hx
      obtain ⟨k, hk⟩ := List.mem_iff_getElem?.mp hx
      rw [List.getElem?_take] at hk
      split at hk
      next hklt =>
        rw [List.getElem?_drop] at hk
        have hxb := getElem?_mono hc (by omega) hk hb
        exact ⟨getElem?_mono hc (by omega) ha hk, by omega⟩
      next => cases hk
    have hlen : ((l.drop i).take (limit + 1)).length = limit + 1 := by
      have := (List.getElem?_eq_some_iff.mp hb).1
      rw [List.length_take, List.length_drop]
      omega
    have hle := (hsub.filter fun t ↦ decide (a ≤ t ∧ t < a + width)).length_le
    rw [List.filter_eq_self.mpr (fun x hx ↦ by simpa using hall x hx), hlen] at hle
    exact absurd (hle.trans (h a)) (by omega)
  · intro h x
    induction l with
    | nil => exact Nat.zero_le limit
    | cons a l ih =>
      obtain ⟨ha, hc'⟩ := List.pairwise_cons.mp hc
      by_cases hx : x ≤ a
      · -- every time is from `x` on, so the ones in the interval come first
        by_contra hlt
        have hcongr : ((a :: l).filter fun t ↦ x ≤ t ∧ t < x + width) =
            (a :: l).filter fun t ↦ t < x + width := by
          refine List.filter_congr fun t ht ↦ ?_
          have hxt : x ≤ t := by
            rcases List.mem_cons.mp ht with rfl | ht
            · exact hx
            · exact hx.trans (ha t ht)
          rw [decide_eq_decide, and_iff_right hxt]
        rw [hcongr, Nat.not_le] at hlt
        obtain ⟨b, hb, hlt'⟩ := getElem?_lt_of_length hc hlt
        have := h 0 a b rfl (by rwa [Nat.zero_add])
        omega
      · rw [List.filter_cons_of_neg (by simp [hx])]
        exact ih hc' fun i a' b ha' hb ↦ h (i + 1) a' b ha' (by rwa [Nat.add_right_comm])

/-! ## When the windows do not crowd an interval -/

/-- Of two windows, `v` after `u`: a request that `v` admits comes at least `width` after the one
that `u` admits `limit` before it. -/
def Apart (width limit : ℕ) (u v : List ℕ) : Prop :=
  ∀ i k x y, k + (u.take limit).length = i + limit →
    (u.take limit)[i]? = some x → (v.take limit)[k]? = some y → x + width ≤ y

/-- The admitted times of a window have a gap after those of the windows that follow iff it is
apart from the next one. The ones after that are far anyway. -/
theorem gap_iff_isChain {lo : ℕ} {ws : List (List ℕ)} (h : Successive width lo ws) :
    Gap width limit (ws.flatMap (List.take limit)) ↔ ws.IsChain (Apart width limit) := by
  induction h with
  | nil => exact ⟨fun _ ↦ .nil, fun _ i a b ha ↦ by cases ha⟩
  | @cons lo t w ws hlo hw hws ih => ?_
  have hlen : ((t :: w).take limit).length ≤ limit := List.length_take_le _ _
  set u := (t :: w).take limit with hu
  have hulo : ∀ x ∈ u, x < t + width := fun x hx ↦ (hw x (List.mem_of_mem_take hx)).2
  -- a gap in the whole is a gap after the window and one that crosses its end
  have hsplit : Gap width limit (u ++ ws.flatMap (List.take limit)) ↔
      (∀ i k x y, k + u.length = i + limit → u[i]? = some x →
        (ws.flatMap (List.take limit))[k]? = some y → x + width ≤ y) ∧
      Gap width limit (ws.flatMap (List.take limit)) := by
    constructor
    · intro hgap
      refine ⟨fun i k x y hk hx hy ↦ hgap i x y ?_ ?_,
        fun i a b ha hb ↦ hgap (u.length + i) a b ?_ ?_⟩
      · rw [List.getElem?_append_left (List.getElem?_eq_some_iff.mp hx).1, hx]
      · rw [← hk, List.getElem?_append_right (by omega), Nat.add_sub_cancel, hy]
      · rw [List.getElem?_append_right (by omega), Nat.add_sub_cancel_left, ha]
      · rw [Nat.add_assoc, List.getElem?_append_right (by omega), Nat.add_sub_cancel_left, hb]
    · rintro ⟨hcross, hgap⟩ i a b ha hb
      rw [List.getElem?_append_right (by omega)] at hb
      rcases Nat.lt_or_ge i u.length with hi | hi
      · rw [List.getElem?_append_left hi] at ha
        exact hcross i _ a b (by omega) ha hb
      · rw [List.getElem?_append_right hi] at ha
        have hindex : i + limit - u.length = i - u.length + limit := by omega
        exact hgap _ a b ha (by rwa [hindex] at hb)
  rw [List.flatMap_cons, hsplit, ih]
  cases hws with
  | nil => exact ⟨fun _ ↦ .singleton _, fun _ ↦ ⟨fun _ _ _ _ _ _ hy ↦ (by cases hy), .nil⟩⟩
  | @cons _ t' w' ws' hlo' hw' hws' => ?_
  rw [List.isChain_cons_cons]
  refine and_congr_left fun _ ↦ ⟨fun hcross i k x y hk hx hy ↦ ?_, fun hapart i k x y hk hx hy ↦ ?_⟩
  · refine hcross i k x y hk hx ?_
    rw [List.flatMap_cons, List.getElem?_append_left (List.getElem?_eq_some_iff.mp hy).1, hy]
  · rw [List.flatMap_cons] at hy
    rcases Nat.lt_or_ge k ((t' :: w').take limit).length with hk' | hk'
    · rw [List.getElem?_append_left hk'] at hy
      exact hapart i k x y hk hx hy
    · -- two windows on, `y` is far from all of `u`
      rw [List.getElem?_append_right hk'] at hy
      obtain ⟨v, hv, hyv⟩ := List.mem_flatMap.mp (List.mem_of_getElem? hy)
      have hxlt := hulo x (List.mem_of_getElem? hx)
      have hyle := hws'.le v hv y (List.mem_of_mem_take hyv)
      omega

/-- **When the counter slides.** No interval of length `width` has more than `limit` of the
admitted requests iff any two consecutive windows are apart. -/
theorem sliding_iff_isChain (hwidth : 0 < width) (hlimit : 0 < limit) {ts : List ℕ}
    (hsorted : ts.Pairwise (· ≤ ·)) :
    Sliding width limit (admitted (judge width limit none ts)) ↔
      (windows width ts).IsChain (Apart width limit) := by
  rw [sliding_iff_gap (hsorted.sublist (admitted_sublist none ts)),
    admitted_judge_none hwidth hlimit]
  exact gap_iff_isChain (successive_windows hwidth hsorted)

/-! ## No request is refused too early -/

/-- The requests of a history that are admitted from `start` on. -/
def admittedFrom (start : ℕ) (ds : List (ℕ × Bool)) : List (ℕ × Bool) :=
  ds.filter fun d ↦ d.2 ∧ start ≤ d.1

/-- A state counts no more than was admitted from the start of its window on, and no later request
is before that start. -/
def Backed (ds : List (ℕ × Bool)) (s : Option (ℕ × ℕ)) (ts : List ℕ) : Prop :=
  ∀ start count, s = some (start, count) →
    count ≤ (admittedFrom start ds).length ∧ ∀ t ∈ ts, start ≤ t

theorem Backed.step {ds : List (ℕ × Bool)} {s : Option (ℕ × ℕ)} {t : ℕ} {ts : List ℕ}
    (hsorted : (t :: ts).Pairwise (· ≤ ·)) (h : Backed ds s (t :: ts)) :
    Backed (ds ++ [(t, (decideAt width limit s t).1)]) (some (decideAt width limit s t).2) ts := by
  have hts := (List.pairwise_cons.mp hsorted).1
  -- a request without a state is as one whose window begins with it and is empty
  have hs : (s.getD (t, 0)).2 ≤ (admittedFrom (s.getD (t, 0)).1 ds).length ∧
      (s.getD (t, 0)).1 ≤ t ∧ ∀ u ∈ ts, (s.getD (t, 0)).1 ≤ u := by
    cases s with
    | none => exact ⟨Nat.zero_le _, le_rfl, hts⟩
    | some p =>
      obtain ⟨hle, hall⟩ := h p.1 p.2 rfl
      exact ⟨hle, hall t List.mem_cons_self, fun u hu ↦ hall u (List.mem_cons_of_mem t hu)⟩
  obtain ⟨hle, hstart, hall⟩ := hs
  have happend : ∀ start b, (admittedFrom start (ds ++ [(t, b)])).length =
      (admittedFrom start ds).length + (admittedFrom start [(t, b)]).length := by
    intro start b
    rw [admittedFrom, List.filter_append, List.length_append]
    rfl
  have hone : ∀ start, start ≤ t → (admittedFrom start [(t, true)]).length = 1 := by
    intro start hle
    rw [admittedFrom, List.filter_cons_of_pos (by simpa using hle)]
    rfl
  intro start count hsome
  rw [Option.some.injEq] at hsome
  rcases @decideAt_cases width limit s t with
    ⟨-, heq⟩ | ⟨-, -, heq⟩ | ⟨-, -, heq⟩ <;> rw [heq] at hsome ⊢ <;>
    obtain ⟨rfl, rfl⟩ := Prod.mk.injEq .. ▸ hsome
  · rw [happend, hone _ le_rfl]
    exact ⟨Nat.le_add_left _ _, hts⟩
  · rw [happend, hone _ hstart]
    exact ⟨Nat.add_le_add_right hle 1, hall⟩
  · rw [happend]
    exact ⟨hle.trans (Nat.le_add_right _ _), hall⟩

theorem decideAt_eq_false {s : Option (ℕ × ℕ)} {t : ℕ} (hlimit : 0 < limit)
    (h : (decideAt width limit s t).1 = false) :
    ∃ start count, s = some (start, count) ∧ t < start + width ∧ limit ≤ count := by
  rcases @decideAt_cases width limit s t with
    ⟨-, heq⟩ | ⟨-, -, heq⟩ | ⟨hlt, hfull, -⟩
  · rw [heq] at h; cases h
  · rw [heq] at h; cases h
  · cases s with
    | none =>
      rw [Option.getD_none] at hfull
      omega
    | some p =>
      rw [Option.getD_some] at hlt hfull
      exact ⟨p.1, p.2, rfl, by omega, hfull⟩

/-- **No false refusal.** A request that is refused has at least `limit` admitted ones before it,
each less than `width` ago. -/
theorem rejected_full (hlimit : 0 < limit) {ds ds₁ ds₂ : List (ℕ × Bool)} {s : Option (ℕ × ℕ)}
    {t : ℕ} {ts : List ℕ} (hsorted : ts.Pairwise (· ≤ ·)) (hbacked : Backed ds s ts)
    (hjudge : judge width limit s ts = ds₁ ++ (t, false) :: ds₂) :
    limit ≤ ((ds ++ ds₁).filter fun d ↦ d.2 ∧ t < d.1 + width).length := by
  induction ts generalizing ds s ds₁ with
  | nil => rw [judge] at hjudge; exact absurd hjudge.symm (by simp)
  | cons u ts ih =>
    rw [judge] at hjudge
    cases ds₁ with
    | nil =>
      rw [List.nil_append, List.cons.injEq, Prod.mk.injEq] at hjudge
      obtain ⟨⟨rfl, hfalse⟩, -⟩ := hjudge
      obtain ⟨start, count, rfl, hlt, hfull⟩ := decideAt_eq_false hlimit hfalse
      have hle := (hbacked start count rfl).1
      have hsub : (admittedFrom start ds).length ≤
          (ds.filter fun d ↦ d.2 ∧ u < d.1 + width).length := by
        refine (List.monotone_filter_right ds fun d hd ↦ ?_).length_le
        rw [decide_eq_true_eq] at hd ⊢
        exact ⟨hd.1, by omega⟩
      rw [List.append_nil]
      exact hfull.trans (hle.trans hsub)
    | cons d ds₁ =>
      rw [List.cons_append, List.cons.injEq] at hjudge
      obtain ⟨rfl, htail⟩ := hjudge
      have h := ih (List.pairwise_cons.mp hsorted).2 (hbacked.step hsorted) htail
      rwa [List.append_assoc, List.singleton_append] at h

end Window
