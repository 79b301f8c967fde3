import Mathlib.Data.List.Basic
import Mathlib.Data.Nat.Notation
import Mathlib.Tactic.Common

/-!
# Semantic versions

A version is three numbers, a pre-release of identifiers between dots, and a build of such
identifiers. Its text is `major.minor.patch-pre+build`, where a pre-release or a build without
identifiers leaves no mark. What is no version cannot be written down: the identifiers carry their
characters' conditions, and numbers have no leading zeros because they are numbers.

`Version.lt` is precedence. The build has no part in it.

The dots of the text cut it into `Version.pieces`. A pre-release sticks to the patch number and a
build to what is before it, so these are no numbers even when an identifier is one.
-/

namespace SemVer

/-- A letter, a digit or a hyphen. -/
def isIdentChar (c : Char) : Bool := c.isAlphanum || c == '-'

/-- An identifier that is not a number. -/
structure Alphanumeric where
  text : List Char
  chars : ∀ c ∈ text, isIdentChar c = true
  nondigit : ∃ c ∈ text, c.isDigit = false

/-- An identifier of a pre-release. -/
inductive PreId
  | numeric (n : ℕ)
  | alphanumeric (s : Alphanumeric)

/-- An identifier of a build. -/
structure BuildId where
  text : List Char
  chars : ∀ c ∈ text, isIdentChar c = true
  ne_nil : text ≠ []

structure Version where
  major : ℕ
  minor : ℕ
  patch : ℕ
  pre : List PreId := []
  build : List BuildId := []

/-! ## Texts -/

def PreId.text : PreId → List Char
  | .numeric n => Nat.toDigits 10 n
  | .alphanumeric s => s.text

/-- The number that an identifier is. -/
def PreId.number : PreId → Option ℕ
  | .numeric n => some n
  | .alphanumeric _ => none

/-- The number that an identifier is, zeros in front or not. -/
def BuildId.number (id : BuildId) : Option ℕ :=
  if id.text.all Char.isDigit then some (Nat.ofDigitChars 10 id.text 0) else none

/-- A part with a mark before it, which is not there if the part has no identifiers. -/
def marked (mark : Char) : List (List Char) → List Char
  | [] => []
  | ids => mark :: List.intercalate ['.'] ids

namespace Version

def text (v : Version) : List Char :=
  Nat.toDigits 10 v.major ++ '.' :: Nat.toDigits 10 v.minor ++ '.' :: Nat.toDigits 10 v.patch ++
    marked '-' (v.pre.map PreId.text) ++ marked '+' (v.build.map BuildId.text)

/-- A string is the version, with or without a `v` in front. -/
def Spells (s : String) (v : Version) : Prop := s.toList = v.text ∨ s.toList = 'v' :: v.text

end Version

/-! ## Precedence -/

/-- Numbers by size, other identifiers by their characters, and numbers before the others. -/
def PreId.lt : PreId → PreId → Prop
  | .numeric m, .numeric n => m < n
  | .numeric _, .alphanumeric _ => True
  | .alphanumeric _, .numeric _ => False
  | .alphanumeric s, .alphanumeric t => s.text < t.text

instance : (a b : PreId) → Decidable (a.lt b)
  | .numeric m, .numeric n => inferInstanceAs (Decidable (m < n))
  | .numeric _, .alphanumeric _ => .isTrue trivial
  | .alphanumeric _, .numeric _ => .isFalse id
  | .alphanumeric s, .alphanumeric t => inferInstanceAs (Decidable (s.text < t.text))

/-- The first identifiers that differ decide, and else the longer list is above. -/
def preLt : List PreId → List PreId → Prop
  | _, [] => False
  | [], _ :: _ => True
  | a :: as, b :: bs => a.lt b ∨ a.text = b.text ∧ preLt as bs

instance decidablePreLt : (as bs : List PreId) → Decidable (preLt as bs)
  | [], [] => .isFalse id
  | _ :: _, [] => .isFalse id
  | [], _ :: _ => .isTrue trivial
  | a :: as, b :: bs =>
    have := decidablePreLt as bs
    inferInstanceAs (Decidable (a.lt b ∨ a.text = b.text ∧ preLt as bs))

namespace Version

/-- A version with a pre-release is below the one without. -/
def preReleaseLt (v w : Version) : Prop :=
  v.pre ≠ [] ∧ (w.pre = [] ∨ preLt v.pre w.pre)

/-- Precedence of versions with the same major and minor numbers. -/
def patchLt (v w : Version) : Prop :=
  v.patch < w.patch ∨ v.patch = w.patch ∧ v.preReleaseLt w

/-- `w` has the higher precedence. -/
def lt (v w : Version) : Prop :=
  v.major < w.major ∨ v.major = w.major ∧
    (v.minor < w.minor ∨ v.minor = w.minor ∧ v.patchLt w)

/-- Versions of different major or minor numbers: the first of these that differ decide. -/
theorem lt_of_ne {v w : Version} (hne : (v.major, v.minor) ≠ (w.major, w.minor)) :
    v.lt w ↔ v.major < w.major ∨ v.major = w.major ∧ v.minor < w.minor := by
  rw [lt]
  refine or_congr_right (and_congr_right fun hmajor ↦ or_iff_left fun h ↦ hne ?_)
  rw [hmajor, h.1]

theorem lt_of_eq {v w : Version} (heq : (v.major, v.minor) = (w.major, w.minor)) :
    v.lt w ↔ v.patchLt w := by
  rw [Prod.mk.injEq] at heq
  rw [lt, heq.1, heq.2]
  simp

end Version

/-! ## Pieces -/

/-- The pieces of a text and of a part that is stuck to it with a mark: the last piece of the one
and the first piece of the other become one piece. -/
def glue (pieces : List (List Char)) (mark : Char) : List (List Char) → List (List Char)
  | [] => pieces
  | id :: ids => pieces.dropLast ++ (pieces.getLast?.getD [] ++ mark :: id) :: ids

theorem glue_nil (pieces : List (List Char)) (mark : Char) : glue pieces mark [] = pieces := rfl

section Glue

variable {α : Type*} {pieces ids : List (List Char)} {mark : Char}

theorem glue_cons_cons (p q : List Char) (pieces ids : List (List Char)) (mark : Char) :
    glue (p :: q :: pieces) mark ids = p :: glue (q :: pieces) mark ids := by
  cases ids with
  | nil => rfl
  | cons id ids => rfl

theorem glue_ne_nil (hne : pieces ≠ []) : glue pieces mark ids ≠ [] := by
  cases ids with
  | nil => exact hne
  | cons id ids => exact List.append_ne_nil_of_right_ne_nil _ (List.cons_ne_nil _ _)

theorem intercalate_append_cons (a b : List Char) (l : List (List Char)) :
    List.intercalate ['.'] ((a ++ b) :: l) = a ++ List.intercalate ['.'] (b :: l) := by
  cases l with
  | nil => rw [List.intercalate_singleton, List.intercalate_singleton]
  | cons c l => rw [List.intercalate_cons_cons, List.intercalate_cons_cons]; simp

theorem intercalate_glue (hne : pieces ≠ []) :
    List.intercalate ['.'] (glue pieces mark ids) =
      List.intercalate ['.'] pieces ++ marked mark ids := by
  induction pieces with
  | nil => exact absurd rfl hne
  | cons p pieces ih =>
    cases pieces with
    | nil =>
      cases ids with
      | nil => exact (List.append_nil _).symm
      | cons id ids =>
        have hglue : glue [p] mark (id :: ids) = (p ++ mark :: id) :: ids := rfl
        rw [hglue, intercalate_append_cons, List.intercalate_singleton]
        exact congrArg (p ++ ·) (intercalate_append_cons [mark] id ids)
    | cons q pieces =>
      rw [glue_cons_cons, List.intercalate_cons_of_ne_nil (glue_ne_nil (List.cons_ne_nil _ _)),
        ih (List.cons_ne_nil _ _), List.intercalate_cons_cons, List.append_assoc,
        List.append_assoc, List.append_assoc]

theorem notMem_glue (hpieces : ∀ l ∈ pieces, '.' ∉ l) (hmark : '.' ≠ mark)
    (hids : ∀ l ∈ ids, '.' ∉ l) : ∀ l ∈ glue pieces mark ids, '.' ∉ l := by
  cases ids with
  | nil => exact hpieces
  | cons id ids =>
    intro l hl
    rcases List.mem_append.mp hl with hl | hl
    · exact hpieces l (List.dropLast_subset pieces hl)
    · rcases List.mem_cons.mp hl with rfl | hl
      · have hlast : '.' ∉ pieces.getLast?.getD [] := by
          cases hget : pieces.getLast? with
          | none => exact List.not_mem_nil
          | some last => exact hpieces last (List.mem_of_getLast? hget)
        rw [List.mem_append, List.mem_cons]
        rintro (hmem | hmem | hmem)
        · exact hlast hmem
        · exact hmark hmem
        · exact hids id List.mem_cons_self hmem
      · exact hids l (List.mem_cons_of_mem _ hl)

/-- A reading of the pieces that makes nothing of a stuck piece passes over it. -/
theorem filterMap_glue_cons {f : List Char → Option α} {id : List Char}
    (hnone : f (pieces.getLast?.getD [] ++ mark :: id) = none) :
    (glue pieces mark (id :: ids)).filterMap f =
      pieces.dropLast.filterMap f ++ ids.filterMap f := by
  rw [glue, List.filterMap_append, List.filterMap_cons_none hnone]

end Glue

namespace Version

variable {α : Type*}

/-- The text between its dots. -/
def pieces (v : Version) : List (List Char) :=
  glue
    (glue [Nat.toDigits 10 v.major, Nat.toDigits 10 v.minor, Nat.toDigits 10 v.patch] '-'
      (v.pre.map PreId.text))
    '+' (v.build.map BuildId.text)

/-- The pieces behind the minor number that nothing is stuck to. -/
def trailing (v : Version) : List (List Char) :=
  match v.pre.map PreId.text, v.build.map BuildId.text with
  | [], [] => [Nat.toDigits 10 v.patch]
  | _ :: ids, [] => ids
  | [], _ :: ids => ids
  | _ :: ids, _ :: ids' => ids.dropLast ++ ids'

/-- The numbers among them: the patch number of a version without pre-release and build, and
otherwise the identifiers that are numbers, but for the first one of the pre-release and of the
build and the last one in front of a build. -/
def loose (v : Version) : List ℕ :=
  match v.pre, v.build with
  | [], [] => [v.patch]
  | _ :: ids, [] => ids.filterMap PreId.number
  | [], _ :: ids => ids.filterMap BuildId.number
  | _ :: ids, _ :: ids' => ids.dropLast.filterMap PreId.number ++ ids'.filterMap BuildId.number

/-- A reading that makes of an identifier what it makes of its number reads the loose numbers. -/
theorem filterMap_trailing (v : Version) {f : List Char → Option α} {g : ℕ → Option α}
    (hdigits : ∀ n, f (Nat.toDigits 10 n) = g n) (hpre : ∀ id : PreId, f id.text = id.number.bind g)
    (hbuild : ∀ id : BuildId, f id.text = id.number.bind g) :
    v.trailing.filterMap f = v.loose.filterMap g := by
  have hpres : ∀ ids : List PreId,
      (ids.map PreId.text).filterMap f = (ids.filterMap PreId.number).filterMap g := by
    intro ids
    rw [List.filterMap_map, List.filterMap_filterMap]
    exact congrArg (ids.filterMap ·) (funext hpre)
  have hbuilds : ∀ ids : List BuildId,
      (ids.map BuildId.text).filterMap f = (ids.filterMap BuildId.number).filterMap g := by
    intro ids
    rw [List.filterMap_map, List.filterMap_filterMap]
    exact congrArg (ids.filterMap ·) (funext hbuild)
  rw [trailing, loose]
  cases v.pre with
  | nil =>
    cases v.build with
    | nil => simp only [List.map_nil, List.filterMap_cons, List.filterMap_nil, hdigits]
    | cons id ids => exact hbuilds ids
  | cons id ids =>
    cases v.build with
    | nil => exact hpres ids
    | cons id' ids' =>
      simp only [List.map_cons]
      rw [← List.map_dropLast, List.filterMap_append, List.filterMap_append, hpres, hbuilds]

theorem notMem_toDigits (n : ℕ) : '.' ∉ Nat.toDigits 10 n := fun hmem ↦ by
  cases Nat.isDigit_of_mem_toDigits (by decide) (by decide) hmem

theorem notMem_preId (id : PreId) : '.' ∉ id.text := by
  cases id with
  | numeric n => exact notMem_toDigits n
  | alphanumeric s => exact fun hmem ↦ by cases s.chars _ hmem

theorem preId_ne_nil (id : PreId) : id.text ≠ [] := by
  cases id with
  | numeric n => exact Nat.toDigits_ne_nil
  | alphanumeric s =>
    obtain ⟨c, hc, -⟩ := s.nondigit
    exact List.ne_nil_of_mem hc

/-- **The pieces are what the dots cut the text into.** -/
theorem splitOn_text (v : Version) : v.text.splitOn '.' = v.pieces := by
  have hcore : ∀ l ∈ [Nat.toDigits 10 v.major, Nat.toDigits 10 v.minor, Nat.toDigits 10 v.patch],
      '.' ∉ l := by
    simp only [List.forall_mem_cons]
    exact ⟨notMem_toDigits _, notMem_toDigits _, notMem_toDigits _, fun _ h ↦ by cases h⟩
  have hpre : ∀ l ∈ v.pre.map PreId.text, '.' ∉ l := by
    intro l hl
    obtain ⟨id, -, rfl⟩ := List.mem_map.mp hl
    exact notMem_preId id
  have hbuild : ∀ l ∈ v.build.map BuildId.text, '.' ∉ l := by
    intro l hl
    obtain ⟨id, -, rfl⟩ := List.mem_map.mp hl
    exact fun hmem ↦ by cases id.chars _ hmem
  have htext : v.text = List.intercalate ['.'] v.pieces := by
    rw [pieces, intercalate_glue (glue_ne_nil (List.cons_ne_nil _ _)),
      intercalate_glue (List.cons_ne_nil _ _), text, List.intercalate_cons_cons,
      List.intercalate_cons_cons, List.intercalate_singleton]
    simp
  rw [htext, pieces]
  exact List.splitOn_intercalate '.'
    (notMem_glue (notMem_glue hcore (by decide) hpre) (by decide) hbuild)
    (glue_ne_nil (glue_ne_nil (List.cons_ne_nil _ _)))

/-- **The pieces that are read.** A reading that makes nothing of a piece with a mark in it reads
the major and the minor number and then the pieces that nothing is stuck to. -/
theorem filterMap_pieces (v : Version) {f : List Char → Option α}
    (hhyphen : ∀ a b, f (a ++ '-' :: b) = none)
    (hplus : ∀ a b, a ≠ [] → f (a ++ '+' :: b) = none) :
    v.pieces.filterMap f =
      (Nat.toDigits 10 v.major :: Nat.toDigits 10 v.minor :: v.trailing).filterMap f := by
  rw [pieces, trailing]
  set core := [Nat.toDigits 10 v.major, Nat.toDigits 10 v.minor, Nat.toDigits 10 v.patch]
  cases hpre : v.pre.map PreId.text with
  | nil =>
    cases v.build.map BuildId.text with
    | nil => rfl
    | cons id' ids' =>
      have hnone : f (core.getLast?.getD [] ++ '+' :: id') = none := hplus _ _ Nat.toDigits_ne_nil
      rw [glue_nil, filterMap_glue_cons hnone, ← List.filterMap_append]
      rfl
  | cons id ids =>
    have hnone : f (core.getLast?.getD [] ++ '-' :: id) = none := hhyphen _ _
    cases v.build.map BuildId.text with
    | nil =>
      rw [glue_nil, filterMap_glue_cons hnone, ← List.filterMap_append]
      rfl
    | cons id' ids' =>
      -- the build is stuck to the last piece of the pre-release, which may be stuck itself
      have hstuck : f ((glue core '-' (id :: ids)).getLast?.getD [] ++ '+' :: id') = none := by
        refine hplus _ _ ?_
        rw [glue, List.getLast?_append, List.getLast?_cons, Option.some_or, Option.getD_some]
        cases hlast : ids.getLast? with
        | none => exact List.append_ne_nil_of_right_ne_nil _ (List.cons_ne_nil _ _)
        | some last =>
          have hmem : last ∈ v.pre.map PreId.text := by
            rw [hpre]
            exact List.mem_cons_of_mem _ (List.mem_of_getLast? hlast)
          obtain ⟨preId, -, rfl⟩ := List.mem_map.mp hmem
          exact preId_ne_nil preId
      rw [filterMap_glue_cons hstuck, glue, List.dropLast_append_of_ne_nil (List.cons_ne_nil _ _),
        List.filterMap_append]
      cases ids with
      | nil =>
        rw [List.dropLast_singleton, List.filterMap_nil, List.append_nil, ← List.filterMap_append]
        rfl
      | cons i ids =>
        have hdrop : ((core.getLast?.getD [] ++ '-' :: id) :: i :: ids).dropLast =
            (core.getLast?.getD [] ++ '-' :: id) :: (i :: ids).dropLast := rfl
        rw [hdrop, List.filterMap_cons_none hnone, ← List.filterMap_append,
          ← List.filterMap_append, List.append_assoc]
        rfl

end Version

end SemVer
