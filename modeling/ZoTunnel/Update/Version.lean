import ZoTunnel.Client.Tunnels
import ZoTunnel.Lib.SemVer

/-!
# Which release is newer

`is_newer` cuts both versions at their dots, keeps the pieces that are 32-bit numbers and compares
the first three of them. Of a version without pre-release and build these are its numbers. A
pre-release or a build sticks to the patch number and takes it out of the comparison, and the next
identifier that is a number moves up in its place; a number that does not fit is left out too.

So the comparison is right as long as the major and minor numbers decide, and for plain versions
(`Agrees`). Otherwise the answer has nothing to do with the patch numbers: it is wrong for some of
them, and for the others it is right by luck (`InOrder`).
-/

namespace ZoTunnel

namespace SelfUpdate

open SemVer (Version)
open Tunnels (parseU32)

/-! ## The comparison -/

/-- The text behind a `v` in front. -/
def stripV : List Char → List Char
  | 'v' :: rest => rest
  | text => text

/-- The first three numbers, with zeros for what is missing. -/
def firstThree (parts : List UInt32) : UInt32 × UInt32 × UInt32 :=
  (parts[0]?.getD 0, parts[1]?.getD 0, parts[2]?.getD 0)

/-- The closure `parse` of `is_newer`. -/
def parse (s : String) : UInt32 × UInt32 × UInt32 :=
  firstThree (((stripV s.toList).splitOn '.').filterMap parseU32)

/-- The order of tuples: the first components that differ decide. -/
def tupleLt (s t : UInt32 × UInt32 × UInt32) : Prop :=
  s.1 < t.1 ∨ s.1 = t.1 ∧ (s.2.1 < t.2.1 ∨ s.2.1 = t.2.1 ∧ s.2.2 < t.2.2)

instance (s t : UInt32 × UInt32 × UInt32) : Decidable (tupleLt s t) :=
  inferInstanceAs (Decidable (_ ∨ _))

/-- Whether `latest` is newer than `current`. -/
def isNewer (current latest : String) : Bool := decide (tupleLt (parse current) (parse latest))

/-! ## Numbers -/

/-- A number as one of 32 bits, if it fits. -/
def fit (n : ℕ) : Option UInt32 := if n < 2 ^ 32 then some (.ofNat n) else none

theorem parseU32_toDigits (n : ℕ) : parseU32 (Nat.toDigits 10 n) = fit n := by
  have hall : ∀ c ∈ Nat.toDigits 10 n, c.isDigit = true :=
    fun c hc ↦ Nat.isDigit_of_mem_toDigits (by decide) (by decide) hc
  rw [parseU32, Tunnels.skipPlus_digits hall]
  simp only
  rw [if_pos ⟨Nat.toDigits_ne_nil, List.all_eq_true.mpr hall⟩, Nat.ofDigitChars_ten_toDigits, fit]

/-- A text with a character that is no digit and not a sign in front is no number. -/
theorem parseU32_eq_none {text : List Char} {c : Char} (hmem : c ∈ Tunnels.skipPlus text)
    (hc : c.isDigit = false) : parseU32 text = none := by
  rw [parseU32]
  refine if_neg fun hdigits ↦ ?_
  rw [List.all_eq_true.mp hdigits.2 c hmem] at hc
  cases hc

theorem parseU32_hyphen (a b : List Char) : parseU32 (a ++ '-' :: b) = none :=
  parseU32_eq_none
    (Tunnels.mem_skipPlus (List.mem_append_right a List.mem_cons_self) (by decide)) rfl

theorem parseU32_plus (a b : List Char) (hne : a ≠ []) : parseU32 (a ++ '+' :: b) = none := by
  obtain ⟨c, a, rfl⟩ := List.exists_cons_of_ne_nil hne
  refine parseU32_eq_none (c := '+') ?_ rfl
  have hmem : '+' ∈ a ++ '+' :: b := List.mem_append_right a List.mem_cons_self
  unfold Tunnels.skipPlus
  split
  next heq =>
    rw [List.cons_append, List.cons.injEq] at heq
    exact heq.2 ▸ hmem
  next => exact List.mem_cons_of_mem c hmem

/-! ## What is read of a version -/

/-- The numbers among the pieces of a version that nothing is stuck to. -/
def standing (v : Version) : List UInt32 :=
  (Nat.toDigits 10 v.major :: Nat.toDigits 10 v.minor :: v.trailing).filterMap parseU32

/-- What is in the place of the patch number: the first of the loose numbers that fits 32 bits. For
a version without pre-release and build this is its patch number. -/
def standIn (v : Version) : ℕ := (v.loose.find? (· < 2 ^ 32)).getD 0

theorem stripV_text (v : Version) : stripV v.text = v.text := by
  unfold stripV
  split
  next rest heq =>
    exfalso
    have hdigit : ∃ c cs, Nat.toDigits 10 v.major = c :: cs :=
      List.exists_cons_of_ne_nil Nat.toDigits_ne_nil
    obtain ⟨c, cs, hc⟩ := hdigit
    rw [SemVer.Version.text, hc] at heq
    simp only [List.cons_append, List.cons.injEq] at heq
    have hmem : c ∈ Nat.toDigits 10 v.major := hc ▸ List.mem_cons_self
    rw [heq.1] at hmem
    cases Nat.isDigit_of_mem_toDigits (by decide) (by decide) hmem
  next => rfl

/-- `parse` reads the first three of the numbers that stand alone. -/
theorem parse_of_spells {s : String} {v : Version} (h : v.Spells s) :
    parse s = firstThree (standing v) := by
  have hstrip : stripV s.toList = v.text := by
    rcases h with h | h
    · rw [h, stripV_text]
    · rw [h]
      rfl
  rw [parse, hstrip, v.splitOn_text, v.filterMap_pieces parseU32_hyphen parseU32_plus, standing]

theorem parseU32_ident {text : List Char} (hchars : ∀ c ∈ text, SemVer.isIdentChar c = true)
    (hne : text ≠ []) : parseU32 text =
      if text.all Char.isDigit then fit (Nat.ofDigitChars 10 text 0) else none := by
  have hskip : Tunnels.skipPlus text = text := by
    unfold Tunnels.skipPlus
    split
    · cases hchars '+' List.mem_cons_self
    · rfl
  rw [parseU32, hskip]
  simp only [fit, ne_eq, hne, not_false_eq_true, true_and]

theorem parseU32_preId (id : SemVer.PreId) : parseU32 id.text = id.number.bind fit := by
  cases id with
  | numeric n => exact parseU32_toDigits n
  | alphanumeric s =>
    obtain ⟨c, hc, hdigit⟩ := s.nondigit
    have hall : ¬s.text.all Char.isDigit = true := by
      intro hall
      rw [List.all_eq_true.mp hall c hc] at hdigit
      cases hdigit
    exact (parseU32_ident s.chars (List.ne_nil_of_mem hc)).trans (if_neg hall)

theorem parseU32_buildId (id : SemVer.BuildId) : parseU32 id.text = id.number.bind fit := by
  rw [parseU32_ident id.chars id.ne_nil, SemVer.BuildId.number]
  split <;> rfl

/-- The first number behind the minor one is what stands in. -/
theorem head?_trailing (v : Version) :
    (v.trailing.filterMap parseU32).head?.getD 0 = .ofNat (standIn v) := by
  rw [v.filterMap_trailing parseU32_toDigits parseU32_preId parseU32_buildId, standIn]
  induction v.loose with
  | nil => rfl
  | cons n ns ih =>
    by_cases hn : n < 2 ^ 32
    · have hfit : fit n = some (.ofNat n) := if_pos hn
      rw [List.filterMap_cons_some hfit, List.find?_cons_of_pos (by rwa [decide_eq_true_iff])]
      rfl
    · have hfit : fit n = none := if_neg hn
      rw [List.filterMap_cons_none hfit, List.find?_cons_of_neg (by rwa [decide_eq_true_iff])]
      exact ih

theorem standIn_lt (v : Version) : standIn v < 2 ^ 32 := by
  rw [standIn]
  cases hfind : v.loose.find? (· < 2 ^ 32) with
  | none => exact Nat.two_pow_pos 32
  | some n => exact of_decide_eq_true (List.find?_some hfind :)

theorem firstThree_standing {v : Version} (hmajor : v.major < 2 ^ 32) (hminor : v.minor < 2 ^ 32) :
    firstThree (standing v) = (.ofNat v.major, .ofNat v.minor, .ofNat (standIn v)) := by
  have hfst := (parseU32_toDigits v.major).trans (if_pos hmajor)
  have hsnd := (parseU32_toDigits v.minor).trans (if_pos hminor)
  rw [standing, List.filterMap_cons_some hfst, List.filterMap_cons_some hsnd, firstThree,
    ← head?_trailing, List.head?_eq_getElem?]
  rfl

/-! ## Precedence -/

/-- The major and the minor number fit 32 bits. -/
def Fits (v : Version) : Prop := v.major < 2 ^ 32 ∧ v.minor < 2 ^ 32

instance (v : Version) : Decidable (Fits v) := inferInstanceAs (Decidable (_ ∧ _))

/-- No pre-release and no build. -/
def IsBare (v : Version) : Prop := v.pre = [] ∧ v.build = []

/-- No pre-release, no build, and a patch number of 32 bits. -/
def IsPlain (v : Version) : Prop := IsBare v ∧ v.patch < 2 ^ 32

/-- All major and minor numbers fit 32 bits, and they decide, or both versions are plain. -/
def Agrees (c l : Version) : Prop :=
  (Fits c ∧ Fits l) ∧ ((c.major, c.minor) ≠ (l.major, l.minor) ∨ IsPlain c ∧ IsPlain l)

/-- The numbers that stand in for the patch numbers are in order: that of `c` is below that of `l`
where `c` has the smaller patch number, or the same and a pre-release that is below that of `l`, and
it is not below where that is not so. -/
def InOrder (c l : Version) : Prop :=
  c.patch < l.patch ∧ standIn c < standIn l ∨
  l.patch < c.patch ∧ standIn l ≤ standIn c ∨
  c.patch = l.patch ∧ c.preReleaseLt l ∧ standIn c < standIn l ∨
  c.patch = l.patch ∧ ¬c.preReleaseLt l ∧ standIn l ≤ standIn c

/-- The comparison of the two versions is right, however they are written. -/
def Right (c l : Version) : Prop :=
  ∀ current latest, c.Spells current → l.Spells latest → (isNewer current latest = true ↔ c.lt l)

theorem standIn_of_isBare {v : Version} {p : ℕ} (hv : IsBare v) (hp : p < 2 ^ 32) :
    standIn { v with patch := p } = p := by
  have hloose : SemVer.Version.loose { v with patch := p } = [p] := by
    rw [SemVer.Version.loose, hv.1, hv.2]
  rw [standIn, hloose, List.find?_cons_of_pos (by rwa [decide_eq_true_iff]), Option.getD_some]

/-- With a pre-release or a build the patch number does not count. -/
theorem standIn_of_not_isBare {v : Version} (hv : ¬IsBare v) (p : ℕ) :
    standIn { v with patch := p } = standIn v := by
  have hloose : SemVer.Version.loose { v with patch := p } = v.loose := by
    rw [SemVer.Version.loose, SemVer.Version.loose]
    split
    · rename_i hpre hbuild
      exact absurd ⟨hpre, hbuild⟩ hv
    · rename_i hpre hbuild
      rw [hpre, hbuild]
    · rename_i hpre hbuild
      rw [hpre, hbuild]
    · rename_i hpre hbuild
      rw [hpre, hbuild]
  rw [standIn, hloose, standIn]

theorem inOrder_of_isPlain {c l : Version} (hc : IsPlain c) (hl : IsPlain l) : InOrder c l := by
  have hpre : ¬c.preReleaseLt l := fun h ↦ h.1 hc.1.1
  have hcpatch : standIn c = c.patch := standIn_of_isBare hc.1 hc.2
  have hlpatch : standIn l = l.patch := standIn_of_isBare hl.1 hl.2
  rw [InOrder, hcpatch, hlpatch]
  rcases Nat.lt_trichotomy c.patch l.patch with h | h | h
  · exact .inl ⟨h, h⟩
  · exact .inr (.inr (.inr ⟨h, hpre, h.ge⟩))
  · exact .inr (.inl ⟨h, h.le⟩)

theorem inOrder_iff {c l : Version} : InOrder c l ↔ (standIn c < standIn l ↔ c.patchLt l) := by
  rw [InOrder, SemVer.Version.patchLt]
  by_cases hpre : c.preReleaseLt l
  · simp only [hpre, not_true, true_and, false_and, and_false, or_false, and_true]
    omega
  · simp only [hpre, not_false_eq_true, true_and, false_and, and_false, or_false, false_or]
    omega

theorem InOrder.lt {c l : Version} (h : InOrder c l) (hlt : c.patch < l.patch) :
    standIn c < standIn l :=
  (inOrder_iff.mp h).mpr (.inl hlt)

theorem InOrder.le {c l : Version} (h : InOrder c l) (hlt : l.patch < c.patch) :
    standIn l ≤ standIn c := by
  refine not_lt.mp fun hbelow ↦ ?_
  rcases (inOrder_iff.mp h).mp hbelow with hgt | ⟨heq, -⟩
  · exact hgt.asymm hlt
  · exact hlt.ne' heq

/-- Two versions of which one has a pre-release or a build are out of order with some patch
numbers. -/
theorem exists_not_inOrder {c l : Version} (hbare : ¬(IsBare c ∧ IsBare l)) :
    ∃ p < 2 ^ 32, ∃ q < 2 ^ 32, ¬InOrder { c with patch := p } { l with patch := q } := by
  by_contra! hall
  have hlt : ∀ {p q}, p < q → q < 2 ^ 32 →
      standIn { c with patch := p } < standIn { l with patch := q } :=
    fun hpq hq ↦ (hall _ (hpq.trans hq) _ hq).lt hpq
  have hle : ∀ {p q}, q < p → p < 2 ^ 32 →
      standIn { l with patch := q } ≤ standIn { c with patch := p } :=
    fun hqp hp ↦ (hall _ hp _ (hqp.trans hp)).le hqp
  by_cases hc : IsBare c
  · -- The number of `c` is its patch number, and that of `l` is always the same.
    have hl : ¬IsBare l := fun hl ↦ hbare ⟨hc, hl⟩
    have habove := hlt (p := 1) (q := 2) (by decide) (by decide)
    have hbelow := hle (p := 1) (q := 0) (by decide) (by decide)
    rw [standIn_of_isBare hc (by decide), standIn_of_not_isBare hl] at habove hbelow
    exact absurd habove hbelow.not_gt
  by_cases hl : IsBare l
  · have habove := hlt (p := 0) (q := 1) (by decide) (by decide)
    have hbelow := hle (p := 2) (q := 1) (by decide) (by decide)
    rw [standIn_of_isBare hl (by decide), standIn_of_not_isBare hc] at habove hbelow
    exact absurd habove hbelow.not_gt
  · -- Neither number depends on the patch number.
    have habove := hlt (p := 0) (q := 1) (by decide) (by decide)
    have hbelow := hle (p := 1) (q := 0) (by decide) (by decide)
    rw [standIn_of_not_isBare hc, standIn_of_not_isBare hl] at habove hbelow
    exact absurd habove hbelow.not_gt

theorem ofNat_lt {m n : ℕ} (hm : m < 2 ^ 32) (hn : n < 2 ^ 32) :
    UInt32.ofNat m < UInt32.ofNat n ↔ m < n := by
  rw [UInt32.lt_iff_toNat_lt, UInt32.toNat_ofNat_of_lt' hm, UInt32.toNat_ofNat_of_lt' hn]

theorem ofNat_inj {m n : ℕ} (hm : m < 2 ^ 32) (hn : n < 2 ^ 32) :
    UInt32.ofNat m = UInt32.ofNat n ↔ m = n := by
  rw [← UInt32.toNat_inj, UInt32.toNat_ofNat_of_lt' hm, UInt32.toNat_ofNat_of_lt' hn]

/-- With major and minor numbers that fit, the comparison is right exactly if these decide or what
stands in for the patch numbers is in order. -/
theorem isNewer_iff_of_fits {current latest : String} {c l : Version} (hc : c.Spells current)
    (hl : l.Spells latest) (hcfits : Fits c) (hlfits : Fits l) :
    (isNewer current latest = true ↔ c.lt l) ↔
      (c.major, c.minor) ≠ (l.major, l.minor) ∨ InOrder c l := by
  rw [isNewer, decide_eq_true_iff, parse_of_spells hc, parse_of_spells hl]
  obtain ⟨hcmajor, hcminor⟩ := hcfits
  obtain ⟨hlmajor, hlminor⟩ := hlfits
  rw [firstThree_standing hcmajor hcminor, firstThree_standing hlmajor hlminor, tupleLt]
  simp only [ofNat_lt hcmajor hlmajor, ofNat_inj hcmajor hlmajor, ofNat_lt hcminor hlminor,
    ofNat_inj hcminor hlminor, ofNat_lt (standIn_lt c) (standIn_lt l)]
  by_cases heq : (c.major, c.minor) = (l.major, l.minor)
  · rw [SemVer.Version.lt_of_eq heq, or_iff_right (not_not_intro heq), inOrder_iff]
    rw [Prod.mk.injEq] at heq
    rw [heq.1, heq.2]
    simp
  · rw [SemVer.Version.lt_of_ne heq]
    refine iff_of_true (or_congr_right (and_congr_right fun hmajor ↦ or_iff_left fun h ↦ ?_))
      (.inl heq)
    exact heq (by rw [hmajor, h.1])

theorem exists_spells (v : Version) : ∃ s, v.Spells s :=
  ⟨.ofList v.text, .inl (String.toList_ofList ..)⟩

theorem right_iff_of_fits {c l : Version} (hc : Fits c) (hl : Fits l) :
    Right c l ↔ (c.major, c.minor) ≠ (l.major, l.minor) ∨ InOrder c l := by
  constructor
  · intro hright
    obtain ⟨current, hcurrent⟩ := exists_spells c
    obtain ⟨latest, hlatest⟩ := exists_spells l
    exact (isNewer_iff_of_fits hcurrent hlatest hc hl).mp (hright _ _ hcurrent hlatest)
  · intro h current latest hcurrent hlatest
    exact (isNewer_iff_of_fits hcurrent hlatest hc hl).mpr h

theorem right_of_agrees {c l : Version} (h : Agrees c l) : Right c l :=
  (right_iff_of_fits h.1.1 h.1.2).mpr (h.2.imp_right fun hplain ↦
    inOrder_of_isPlain hplain.1 hplain.2)

/-- Two versions with any patch numbers of 32 bits: the major and minor numbers have to decide, or
both have neither a pre-release nor a build. -/
theorem forall_right_iff {c l : Version} (hc : Fits c) (hl : Fits l) :
    (∀ p < 2 ^ 32, ∀ q < 2 ^ 32, Right { c with patch := p } { l with patch := q }) ↔
      (c.major, c.minor) ≠ (l.major, l.minor) ∨ IsBare c ∧ IsBare l := by
  constructor
  · intro hall
    by_contra! hnot
    obtain ⟨p, hp, q, hq, hnot'⟩ := exists_not_inOrder fun h ↦ hnot.2 h.1 h.2
    rcases (right_iff_of_fits (by exact hc) (by exact hl)).mp (hall p hp q hq) with hne | hord
    · exact hne hnot.1
    · exact hnot' hord
  · intro h p hp q hq
    exact right_of_agrees ⟨⟨hc, hl⟩, h.imp_right fun hbare ↦ ⟨⟨hbare.1, hp⟩, hbare.2, hq⟩⟩

theorem not_right_of_lt {c l : Version} (hlt : c.lt l)
    (hnot : ¬tupleLt (firstThree (standing c)) (firstThree (standing l))) : ¬Right c l := by
  intro hright
  obtain ⟨current, hcurrent⟩ := exists_spells c
  obtain ⟨latest, hlatest⟩ := exists_spells l
  have hnewer := (hright current latest hcurrent hlatest).mpr hlt
  rw [isNewer, decide_eq_true_iff, parse_of_spells hcurrent, parse_of_spells hlatest] at hnewer
  exact hnot hnewer

theorem not_tupleLt_self (t : UInt32 × UInt32 × UInt32) : ¬tupleLt t t := by
  simp [tupleLt, UInt32.lt_irrefl]

theorem not_tupleLt_zero (t : UInt32 × UInt32 × UInt32) : ¬tupleLt t (t.1, 0, 0) := by
  simp [tupleLt, UInt32.lt_irrefl, UInt32.not_lt_zero]

theorem standing_of_bare (m n p : ℕ) : standing ⟨m, n, p, [], []⟩ =
    [Nat.toDigits 10 m, Nat.toDigits 10 n, Nat.toDigits 10 p].filterMap parseU32 := rfl

/-- A version with a major or a minor number that does not fit is not told from a higher one. -/
theorem exists_not_right {c : Version} (hc : ¬Fits c) : ∃ l, ¬Right c l := by
  have hzero : parseU32 (Nat.toDigits 10 0) = some 0 := parseU32_toDigits 0
  by_cases hfit : c.major < 2 ^ 32
  · -- The minor number of the higher version does not fit either.
    have hfst := (parseU32_toDigits c.major).trans (if_pos hfit)
    have hsnd : parseU32 (Nat.toDigits 10 (c.minor + 1)) = none :=
      (parseU32_toDigits _).trans (if_neg fun h ↦ hc ⟨hfit, Nat.lt_of_succ_lt h⟩)
    refine ⟨⟨c.major, c.minor + 1, 0, [], []⟩,
      not_right_of_lt (.inr ⟨rfl, .inl (Nat.lt_succ_self _)⟩) ?_⟩
    rw [standing_of_bare, List.filterMap_cons_some hfst, List.filterMap_cons_none hsnd,
      List.filterMap_cons_some hzero, standing, List.filterMap_cons_some hfst]
    exact not_tupleLt_zero _
  · have hfst : parseU32 (Nat.toDigits 10 (c.major + 1)) = none :=
      (parseU32_toDigits _).trans (if_neg fun h ↦ hfit (Nat.lt_of_succ_lt h))
    refine ⟨⟨c.major + 1, 0, 0, [], []⟩, not_right_of_lt (.inl (Nat.lt_succ_self _)) ?_⟩
    rw [standing_of_bare, List.filterMap_cons_none hfst, List.filterMap_cons_some hzero,
      List.filterMap_cons_some hzero]
    simp [tupleLt, firstThree, UInt32.not_lt_zero]

/-- The version that `parse` takes another one for. -/
def taken (v : Version) : Version where
  major := (firstThree (standing v)).1.toNat
  minor := (firstThree (standing v)).2.1.toNat
  patch := (firstThree (standing v)).2.2.toNat

theorem firstThree_taken (v : Version) :
    firstThree (standing (taken v)) = firstThree (standing v) := by
  have hfits : Fits (taken v) := ⟨UInt32.toNat_lt _, UInt32.toNat_lt _⟩
  have hpatch : standIn (taken v) = (taken v).patch :=
    standIn_of_isBare (v := taken v) ⟨rfl, rfl⟩ (UInt32.toNat_lt _)
  rw [firstThree_standing hfits.1 hfits.2, hpatch]
  simp only [taken, UInt32.ofNat_toNat]

/-- A version with a major or a minor number that does not fit is taken for a lower one. -/
theorem taken_lt {v : Version} (hv : ¬Fits v) : (taken v).lt v := by
  have hmajor : (taken v).major < 2 ^ 32 := UInt32.toNat_lt _
  have hminor : (taken v).minor < 2 ^ 32 := UInt32.toNat_lt _
  by_cases hfit : v.major < 2 ^ 32
  · have hfst := (parseU32_toDigits v.major).trans (if_pos hfit)
    have heq : (taken v).major = v.major := by
      rw [taken, standing, List.filterMap_cons_some hfst]
      exact UInt32.toNat_ofNat_of_lt' hfit
    exact .inr ⟨heq, .inl (hminor.trans_le (not_lt.mp fun h ↦ hv ⟨hfit, h⟩))⟩
  · exact .inl (hmajor.trans_le (not_lt.mp hfit))

/-- **When `is_newer` is right.** For all versions, written with or without a `v` in front: if they
agree, it says that the latest has the higher precedence exactly if it has. Of two versions whose
major and minor numbers fit 32 bits it says so for all patch numbers of 32 bits in no other case;
and otherwise it is right exactly if what stands in for the patch numbers is in order. A version
whose major or minor number does not fit is compared wrongly with some other one. -/
theorem isNewer_sound_iff (c l : Version) :
    (Agrees c l → Right c l) ∧
      (Fits c → Fits l →
        ((∀ p < 2 ^ 32, ∀ q < 2 ^ 32, Right { c with patch := p } { l with patch := q }) ↔
          (c.major, c.minor) ≠ (l.major, l.minor) ∨ IsBare c ∧ IsBare l)) ∧
      (Fits c → Fits l → ¬Agrees c l → (Right c l ↔ InOrder c l)) ∧
      (¬Fits c → ∃ l, ¬Right c l) ∧ (¬Fits l → ∃ c, ¬Right c l) := by
  refine ⟨right_of_agrees, forall_right_iff, fun hc hl hnot ↦ ?_, exists_not_right, fun hl ↦
    ⟨taken l, not_right_of_lt (taken_lt hl) (firstThree_taken l ▸ not_tupleLt_self _)⟩⟩
  rw [right_iff_of_fits hc hl]
  exact or_iff_right fun hne ↦ hnot ⟨⟨hc, hl⟩, .inl hne⟩

/-- The release candidate `1.0.0-rc.1`. -/
def candidate : Version where
  major := 1
  minor := 0
  patch := 0
  pre := [.alphanumeric ⟨['r', 'c'], List.all_eq_true.mp (by decide), ⟨'r', by decide⟩⟩,
    .numeric 1]

/-- Plain versions compare as they should. A release candidate and a release do so for some patch
numbers only. -/
theorem isNewer_sound_iff_plain :
    (isNewer "0.4.9" "v0.4.10" = true ↔
      (⟨0, 4, 9, [], []⟩ : Version).lt ⟨0, 4, 10, [], []⟩) ∧
    ¬∀ p < 2 ^ 32, ∀ q < 2 ^ 32, Right { candidate with patch := p } ⟨1, 0, q, [], []⟩ := by
  constructor
  · refine (isNewer_sound_iff _ _).1 ⟨by decide, .inr ⟨⟨⟨rfl, rfl⟩, by decide⟩, ⟨rfl, rfl⟩, ?_⟩⟩
      "0.4.9" "v0.4.10" (.inl (by decide +kernel)) (.inr (by decide +kernel))
    decide
  · intro hall
    rcases ((isNewer_sound_iff candidate ⟨1, 0, 0, [], []⟩).2.1 (by decide) (by decide)).mp hall
      with hne | hbare
    · exact hne rfl
    · cases hbare.1.1

/-- The release is not newer than its candidate, whose `1` counts as a patch number. -/
theorem isNewer_not_sound :
    ¬ ∀ (current latest : String) (c l : Version), c.Spells current → l.Spells latest →
      (isNewer current latest = true ↔ c.lt l) := by
  intro h
  have hiff := h "1.0.0-rc.1" "v1.0.0" candidate ⟨1, 0, 0, [], []⟩ (.inl (by decide +kernel))
    (.inr (by decide +kernel))
  have hlt : candidate.lt ⟨1, 0, 0, [], []⟩ :=
    .inr ⟨rfl, .inr ⟨rfl, .inr ⟨rfl, List.cons_ne_nil _ _, .inl rfl⟩⟩⟩
  exact absurd (hiff.mpr hlt) (by decide +kernel)

end SelfUpdate

end ZoTunnel
