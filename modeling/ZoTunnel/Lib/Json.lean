import ZoTunnel.Lib.JsonText

/-!
# Reading JSON

A reader for JSON texts as RFC 8259 has them: white space, all six kinds of values, strings with
every escape, pairs of surrogates among them, and numbers with fraction and exponent, which are
read exactly. A surrogate without its partner is no character and refused.

A string is read in two steps. The first finds its end, so it knows quotes and backslashes only; the
second decodes what is before the end. Decoding never makes a text longer, and every escape makes it
shorter. So a text that is put between quotes as it is comes out again only if nothing in it needs
an escape (`string_append_quote`).

The reader takes the depth to which it may go as a number. What counts is that some depth will do.
-/

/-- JSON values. A number is `mantissa * 10 ^ exponent`, and an object has its members in order,
each name as often as it was there. -/
inductive Json
  | null
  | bool (b : Bool)
  | num (mantissa exponent : ℤ)
  | str (s : List Char)
  | arr (vs : List Json)
  | obj (ms : List (List Char × Json))

namespace Json

/-! ## Strings -/

/-- What is between the quotes, and what is behind the closing one. -/
def content : List Char → Option (List Char × List Char)
  | [] => none
  | '"' :: s => some ([], s)
  | '\\' :: c :: s => (content s).map fun r ↦ ('\\' :: c :: r.1, r.2)
  | c :: s => (content s).map fun r ↦ (c :: r.1, r.2)

/-- The characters and the UTF-16 units that the content stands for. -/
def units : List Char → Option (List ℕ)
  | [] => some []
  | '\\' :: 'u' :: a :: b :: c :: d :: s =>
    (JsonText.hexParse 4 0 [a, b, c, d]).bind fun q ↦ (units s).map (q.1 :: ·)
  | '\\' :: e :: s => (JsonText.unescapeChar e).bind fun c ↦ (units s).map (c.toNat :: ·)
  | ['\\'] => none
  | c :: s => if c.toNat < 32 then none else (units s).map (c.toNat :: ·)

def isHigh (n : ℕ) : Bool := decide (0xD800 ≤ n ∧ n ≤ 0xDBFF)

def isLow (n : ℕ) : Bool := decide (0xDC00 ≤ n ∧ n ≤ 0xDFFF)

/-- Put the surrogates together, two by two. -/
def assemble : List ℕ → Option (List Char)
  | [] => some []
  | [n] => if isHigh n || isLow n then none else some [Char.ofNat n]
  | n :: m :: s =>
    if isHigh n then
      if isLow m then
        (assemble s).map (Char.ofNat (0x10000 + (n - 0xD800) * 0x400 + (m - 0xDC00)) :: ·)
      else none
    else if isLow n then none
    else (assemble (m :: s)).map (Char.ofNat n :: ·)

/-- A string behind its opening quote. -/
def string (s : List Char) : Option (List Char × List Char) :=
  (content s).bind fun r ↦ ((units r.1).bind assemble).map fun t ↦ (t, r.2)

/-! ## Numbers -/

/-- The digits behind a mark, which have to be there if the mark is. -/
def fraction : List Char → Option (List Char × List Char)
  | '.' :: s =>
    if s.takeWhile Char.isDigit = [] then none
    else some (s.takeWhile Char.isDigit, s.dropWhile Char.isDigit)
  | s => some ([], s)

/-- An exponent with its sign, or 0. -/
def exponent : List Char → Option (ℤ × List Char)
  | c :: s =>
    if c = 'e' ∨ c = 'E' then
      let (sign, s) : ℤ × List Char := match s with
        | '-' :: s => (-1, s)
        | '+' :: s => (1, s)
        | s => (1, s)
      if s.takeWhile Char.isDigit = [] then none
      else some (sign * Nat.ofDigitChars 10 (s.takeWhile Char.isDigit) 0, s.dropWhile Char.isDigit)
    else some (0, c :: s)
  | [] => some (0, [])

/-- A number. No digit follows a zero in front. -/
def number (s : List Char) : Option (Json × List Char) :=
  let (sign, s) : ℤ × List Char := match s with
    | '-' :: s => (-1, s)
    | s => (1, s)
  let digits := s.takeWhile Char.isDigit
  if digits = [] ∨ (digits.head? = some '0' ∧ digits ≠ ['0']) then none
  else
    (fraction (s.dropWhile Char.isDigit)).bind fun f ↦ (exponent f.2).map fun e ↦
      (.num (sign * Nat.ofDigitChars 10 (digits ++ f.1) 0) (e.1 - f.1.length), e.2)

/-! ## Values -/

def isBlank (c : Char) : Bool := c == ' ' || c == '\t' || c == '\n' || c == '\r'

/-- The text behind its blanks. -/
def skip (s : List Char) : List Char := s.dropWhile isBlank

/-- A literal, if the text begins with it. -/
def literal (t : List Char) (v : Json) (s : List Char) : Option (Json × List Char) :=
  if t <+: s then some (v, s.drop t.length) else none

mutual

/-- A value at the front of a text, to a depth. -/
def value : ℕ → List Char → Option (Json × List Char)
  | 0, _ => none
  | depth + 1, '\x7b' :: s =>
    match skip s with
    | '\x7d' :: s => some (.obj [], s)
    | s => (members depth s).map fun r ↦ (.obj r.1, r.2)
  | depth + 1, '[' :: s =>
    match skip s with
    | ']' :: s => some (.arr [], s)
    | s => (elements depth s).map fun r ↦ (.arr r.1, r.2)
  | _ + 1, '"' :: s => (string s).map fun r ↦ (.str r.1, r.2)
  | _ + 1, s =>
    (literal ['t', 'r', 'u', 'e'] (.bool true) s).or
      ((literal ['f', 'a', 'l', 's', 'e'] (.bool false) s).or
        ((literal ['n', 'u', 'l', 'l'] .null s).or (number s)))

/-- One member or more, and the brace behind them. -/
def members : ℕ → List Char → Option (List (List Char × Json) × List Char)
  | depth + 1, '"' :: s =>
    (string s).bind fun name ↦
      match skip name.2 with
      | ':' :: s =>
        (value depth (skip s)).bind fun v ↦
          match skip v.2 with
          | ',' :: s => (members depth (skip s)).map fun r ↦ ((name.1, v.1) :: r.1, r.2)
          | '\x7d' :: s => some ([(name.1, v.1)], s)
          | _ => none
      | _ => none
  | _, _ => none

/-- One element or more, and the bracket behind them. -/
def elements : ℕ → List Char → Option (List Json × List Char)
  | 0, _ => none
  | depth + 1, s =>
    (value depth s).bind fun v ↦
      match skip v.2 with
      | ',' :: s => (elements depth (skip s)).map fun r ↦ (v.1 :: r.1, r.2)
      | ']' :: s => some ([v.1], s)
      | _ => none

end

/-- The text is a JSON text of the value: there is nothing but blanks around it. -/
def Reads (s : List Char) (v : Json) : Prop :=
  ∃ depth rest, value depth (skip s) = some (v, rest) ∧ skip rest = []

/-! ## Numerals -/

/-- A numeral does not begin with a zero, unless it is one. -/
theorem eq_zero_of_head_toDigits {n : ℕ} (h : (Nat.toDigits 10 n).head? = some '0') : n = 0 := by
  induction n using Nat.strong_induction_on with
  | _ n ih =>
    rw [Nat.toDigits_eq_if (by decide)] at h
    split at h
    next hlt =>
      have hdigit : ∀ m < 10, m.digitChar = '0' → m = 0 := by decide
      exact hdigit n hlt (Option.some.inj h)
    next hge =>
      -- a number of two digits or more has another one in front
      rw [List.head?_append_of_ne_nil _ Nat.toDigits_ne_nil] at h
      have := ih (n / 10) (by omega) h
      omega

/-- **The numeral of a natural number is read as that number**, up to whatever ends it. -/
theorem number_toDigits (n : ℕ) {c : Char} (rest : List Char) (hdigit : c.isDigit = false)
    (hmark : c ∉ ['.', 'e', 'E']) :
    number (Nat.toDigits 10 n ++ c :: rest) = some (.num n 0, c :: rest) := by
  have hall : ∀ d ∈ Nat.toDigits 10 n, d.isDigit = true :=
    fun d hd ↦ Nat.isDigit_of_mem_toDigits (by decide) (by decide) hd
  have htake : (Nat.toDigits 10 n ++ c :: rest).takeWhile Char.isDigit = Nat.toDigits 10 n := by
    rw [List.takeWhile_append_of_pos hall, List.takeWhile_cons_of_neg (by simp [hdigit]),
      List.append_nil]
  have hdrop : (Nat.toDigits 10 n ++ c :: rest).dropWhile Char.isDigit = c :: rest := by
    rw [List.dropWhile_append_of_pos hall, List.dropWhile_cons_of_neg (by simp [hdigit])]
  have hzero : ¬(Nat.toDigits 10 n = [] ∨
      (Nat.toDigits 10 n).head? = some '0' ∧ Nat.toDigits 10 n ≠ ['0']) := by
    rintro (hnil | ⟨hhead, hne⟩)
    · exact Nat.toDigits_ne_nil hnil
    · exact hne (eq_zero_of_head_toDigits hhead ▸ Nat.toDigits_zero 10)
  have hsign : ∀ s, Nat.toDigits 10 n ++ c :: rest ≠ '-' :: s := by
    intro s heq
    obtain ⟨d, ds, hd⟩ := List.exists_cons_of_ne_nil (Nat.toDigits_ne_nil (n := n) (b := 10))
    have hmem := hall d (hd ▸ List.mem_cons_self)
    rw [hd, List.cons_append, List.cons.injEq] at heq
    rw [heq.1] at hmem
    cases hmem
  have hfraction : fraction (c :: rest) = some ([], c :: rest) := by
    rw [fraction]
    intro s heq
    rw [List.cons.injEq] at heq
    exact hmark (heq.1 ▸ List.mem_cons_self)
  have hexponent : exponent (c :: rest) = some (0, c :: rest) := by
    refine if_neg ?_
    rintro (rfl | rfl) <;> exact hmark (by decide)
  rw [number]
  · simp only [htake, hdrop, if_neg hzero, hfraction, hexponent, Option.bind_some, Option.map_some,
      List.append_nil, Nat.ofDigitChars_ten_toDigits, one_mul, List.length_nil, Nat.cast_zero,
      sub_zero]
  · exact fun s heq ↦ hsign s heq

/-! ## Texts between quotes -/

/-- Nothing in the text needs an escape. -/
def Plain (t : List Char) : Prop := ∀ c ∈ t, c ≠ '"' ∧ c ≠ '\\' ∧ 32 ≤ c.toNat

instance (t : List Char) : Decidable (Plain t) := List.decidableBAll _ _

theorem plain_append {s t : List Char} : Plain (s ++ t) ↔ Plain s ∧ Plain t :=
  List.forall_mem_append

theorem content_cons {c : Char} (s : List Char) (hq : c ≠ '"') (hb : c ≠ '\\') :
    content (c :: s) = (content s).map fun r ↦ (c :: r.1, r.2) := by
  rw [content]
  · exact hq
  · intro c' s' h
    exact absurd h hb

theorem content_plain {t : List Char} (ht : Plain t) (rest : List Char) :
    content (t ++ '"' :: rest) = some (t, rest) := by
  induction t with
  | nil => rfl
  | cons c t ih =>
    obtain ⟨hq, hb, -⟩ := ht c List.mem_cons_self
    rw [List.cons_append, content_cons _ hq hb, ih fun c hc ↦ ht c (List.mem_cons_of_mem _ hc)]
    rfl

/-- The content ends at a quote, and has quotes only behind backslashes. -/
theorem content_eq_some {s t rest : List Char} (h : content s = some (t, rest)) :
    s = t ++ '"' :: rest ∧ ('"' ∈ t → '\\' ∈ t) := by
  fun_induction content s generalizing t rest with
  | case1 => cases h
  | case2 s =>
    obtain ⟨rfl, rfl⟩ := Prod.mk.injEq .. ▸ Option.some.inj h
    exact ⟨rfl, fun hmem ↦ absurd hmem List.not_mem_nil⟩
  | case3 c s ih =>
    obtain ⟨⟨t', rest'⟩, hr, heq⟩ := Option.map_eq_some_iff.mp h
    obtain ⟨rfl, rfl⟩ := Prod.mk.injEq .. ▸ heq
    exact ⟨by rw [(ih hr).1]; rfl, fun _ ↦ List.mem_cons_self⟩
  | case4 c s hq _ ih =>
    obtain ⟨⟨t', rest'⟩, hr, heq⟩ := Option.map_eq_some_iff.mp h
    obtain ⟨rfl, rfl⟩ := Prod.mk.injEq .. ▸ heq
    refine ⟨by rw [(ih hr).1]; rfl, fun hmem ↦ ?_⟩
    rcases List.mem_cons.mp hmem with rfl | hmem
    · exact absurd rfl hq
    · exact List.mem_cons_of_mem _ ((ih hr).2 hmem)

/-- Decoding makes nothing longer, and what has an escape shorter. -/
theorem length_units {t : List Char} {us : List ℕ} (h : units t = some us) :
    us.length ≤ t.length ∧ ('\\' ∈ t → us.length < t.length) := by
  fun_induction units t generalizing us with
  | case1 =>
    obtain rfl := Option.some.inj h
    exact ⟨le_rfl, fun hmem ↦ absurd hmem List.not_mem_nil⟩
  | case2 a b c d s ih =>
    obtain ⟨q, -, hq⟩ := Option.bind_eq_some_iff.mp h
    obtain ⟨us', hus, rfl⟩ := Option.map_eq_some_iff.mp hq
    have := (ih hus).1
    simp only [List.length_cons]
    exact ⟨by omega, fun _ ↦ by omega⟩
  | case3 e s _ ih =>
    obtain ⟨c, -, hc⟩ := Option.bind_eq_some_iff.mp h
    obtain ⟨us', hus, rfl⟩ := Option.map_eq_some_iff.mp hc
    have := (ih hus).1
    simp only [List.length_cons]
    exact ⟨by omega, fun _ ↦ by omega⟩
  | case4 => cases h
  | case5 c s hlt => cases h
  | case6 c s _ hescape hlone hge ih =>
    obtain ⟨us', hus, rfl⟩ := Option.map_eq_some_iff.mp h
    have hc : c ≠ '\\' := by
      rintro rfl
      cases s with
      | nil => exact hlone rfl rfl
      | cons e s => exact hescape e s rfl rfl
    obtain ⟨hle, hlt⟩ := ih hus
    simp only [List.length_cons]
    refine ⟨Nat.succ_le_succ hle, fun hmem ↦ Nat.succ_lt_succ (hlt ?_)⟩
    exact (List.mem_cons.mp hmem).resolve_left fun heq ↦ hc heq.symm

/-- Without backslashes every character stands for itself, and a control character for nothing. -/
theorem units_eq_some {t : List Char} (hb : '\\' ∉ t) {us : List ℕ} :
    units t = some us ↔ (∀ c ∈ t, 32 ≤ c.toNat) ∧ t.map Char.toNat = us := by
  induction t generalizing us with
  | nil => simp [units]
  | cons c t ih =>
    rw [List.mem_cons, not_or] at hb
    have hunits : units (c :: t) =
        if c.toNat < 32 then none else (units t).map (c.toNat :: ·) := by
      rw [units]
      · intro a b c' d s h
        exact absurd h.symm hb.1
      · intro e s h
        exact absurd h.symm hb.1
      · intro h
        exact absurd h.symm hb.1
    rw [hunits, List.forall_mem_cons, List.map_cons]
    by_cases hc : c.toNat < 32
    · rw [if_pos hc]
      exact iff_of_false nofun fun h ↦ Nat.not_le.mpr hc h.1.1
    · rw [if_neg hc, Option.map_eq_some_iff]
      constructor
      · rintro ⟨us', hus, rfl⟩
        obtain ⟨hall, rfl⟩ := (ih hb.2).mp hus
        exact ⟨⟨Nat.not_lt.mp hc, hall⟩, rfl⟩
      · rintro ⟨⟨-, hall⟩, rfl⟩
        exact ⟨_, (ih hb.2).mpr ⟨hall, rfl⟩, rfl⟩

theorem length_assemble {us : List ℕ} {t : List Char} (h : assemble us = some t) :
    t.length ≤ us.length := by
  fun_induction assemble us generalizing t with
  | case1 =>
    obtain rfl := Option.some.inj h
    exact le_rfl
  | case2 n hn => cases h
  | case3 n hn =>
    obtain rfl := Option.some.inj h
    exact le_rfl
  | case4 n m s _ _ ih =>
    obtain ⟨t', ht, rfl⟩ := Option.map_eq_some_iff.mp h
    have := ih ht
    simp only [List.length_cons]
    omega
  | case5 | case6 => cases h
  | case7 n m s _ _ ih =>
    obtain ⟨t', ht, rfl⟩ := Option.map_eq_some_iff.mp h
    have := ih ht
    simp only [List.length_cons] at this ⊢
    omega

theorem not_surrogate (c : Char) : isHigh c.toNat = false ∧ isLow c.toNat = false := by
  have hvalid : c.toNat.isValidChar := c.valid
  rw [isHigh, isLow, decide_eq_false_iff_not, decide_eq_false_iff_not]
  rcases hvalid with h | h
  · exact ⟨by omega, by omega⟩
  · exact ⟨by omega, by omega⟩

theorem assemble_map_toNat (t : List Char) : assemble (t.map Char.toNat) = some t := by
  induction t with
  | nil => rfl
  | cons c t ih =>
    obtain ⟨hhigh, hlow⟩ := not_surrogate c
    cases t with
    | nil =>
      rw [List.map_singleton, assemble, hhigh, hlow, Char.ofNat_toNat]
      rfl
    | cons d t =>
      rw [List.map_cons, List.map_cons, assemble, hhigh, hlow, if_neg Bool.false_ne_true,
        if_neg Bool.false_ne_true, ← List.map_cons, ih, Option.map_some, Char.ofNat_toNat]

theorem string_plain {t : List Char} (ht : Plain t) (rest : List Char) :
    string (t ++ '"' :: rest) = some (t, rest) := by
  have hb : '\\' ∉ t := fun hmem ↦ (ht _ hmem).2.1 rfl
  have hunits : units t = some (t.map Char.toNat) :=
    (units_eq_some hb).mpr ⟨fun c hc ↦ (ht c hc).2.2, rfl⟩
  rw [string, content_plain ht, Option.bind_some, hunits, Option.bind_some, assemble_map_toNat]
  rfl

/-- A quote in a text with a quote is that one or a later one, if there is none before. -/
theorem eq_or_append_of_append_quote {s t more rest : List Char} (hs : '"' ∉ s)
    (h : s ++ '"' :: t = more ++ '"' :: rest) :
    rest = t ∨ ∃ more', t = more' ++ '"' :: rest := by
  rcases List.append_eq_append_iff.mp h with ⟨l, -, hl⟩ | ⟨l, hmem, hl⟩
  · cases l with
    | nil => exact .inl (List.cons.inj hl).2.symm
    | cons c l => exact .inr ⟨l, (List.cons.inj hl).2⟩
  · cases l with
    | nil => exact .inl (List.cons.inj hl).2
    | cons c l =>
      obtain ⟨rfl, -⟩ := List.cons.inj hl
      exact absurd (hmem ▸ List.mem_append_right _ List.mem_cons_self) hs

/-- **Only plain texts come out as they are.** If a text between quotes is read as itself, it is
plain, or the string was taken to end at a later quote. -/
theorem string_append_quote {t rest rest' : List Char}
    (h : string (t ++ '"' :: rest) = some (t, rest')) :
    Plain t ∧ rest' = rest ∨ ∃ more, rest = more ++ '"' :: rest' := by
  rw [string] at h
  obtain ⟨⟨u, r⟩, hcontent, h⟩ := Option.bind_eq_some_iff.mp h
  obtain ⟨t', hdecode, heq⟩ := Option.map_eq_some_iff.mp h
  obtain ⟨rfl, rfl⟩ := Prod.mk.injEq .. ▸ heq
  obtain ⟨us, hunits, hassemble⟩ := Option.bind_eq_some_iff.mp hdecode
  obtain ⟨htext, hquote⟩ := content_eq_some hcontent
  obtain ⟨hle, hlt⟩ := length_units hunits
  have hlen := length_assemble hassemble
  -- what is read as itself has had no escapes
  have hplain : u = t' → Plain t' := by
    rintro rfl
    have hb : '\\' ∉ u := fun hmem ↦ absurd (hlt hmem) (Nat.not_lt.mpr hlen)
    have hall := ((units_eq_some hb).mp hunits).1
    exact fun c hc ↦ ⟨fun heq ↦ hb (hquote (heq ▸ hc)), fun heq ↦ hb (heq ▸ hc), hall c hc⟩
  rcases List.append_eq_append_iff.mp htext with ⟨more, hu, hrest⟩ | ⟨more, ht, hrest⟩
  · cases more with
    | nil =>
      rw [List.append_nil] at hu
      exact .inl ⟨hplain hu, (List.cons.inj hrest).2.symm⟩
    | cons c more => exact .inr ⟨more, (List.cons.inj hrest).2⟩
  · cases more with
    | nil =>
      rw [List.append_nil] at ht
      exact .inl ⟨hplain ht.symm, (List.cons.inj hrest).2⟩
    | cons c more =>
      -- a string that ends before has become too short
      have hlength : t'.length = u.length + (c :: more).length := by
        rw [← List.length_append, ← ht]
      rw [List.length_cons] at hlength
      have hshort : t'.length ≤ u.length := hlen.trans hle
      omega

/-! ## Steps of the reader -/

variable (depth : ℕ) (s : List Char)

theorem skip_of_isBlank {c : Char} (hc : isBlank c = false) : skip (c :: s) = c :: s :=
  List.dropWhile_cons_of_neg (by simp [hc])

theorem isBlank_of_isDigit {c : Char} (hc : c.isDigit = true) : isBlank c = false := by
  rw [isBlank, Bool.or_eq_false_iff, Bool.or_eq_false_iff, Bool.or_eq_false_iff]
  refine ⟨⟨⟨?_, ?_⟩, ?_⟩, ?_⟩ <;>
    · rw [beq_eq_false_iff_ne]
      rintro rfl
      cases hc

/-- An object that is not empty begins with the quote of its first name. -/
theorem value_obj : value (depth + 1) ('\x7b' :: '"' :: s) =
    (members depth ('"' :: s)).map fun r ↦ (.obj r.1, r.2) := by
  rw [value, skip_of_isBlank _ rfl]
  rfl

theorem value_string :
    value (depth + 1) ('"' :: s) = (string s).map fun r ↦ (.str r.1, r.2) := by
  rw [value]

theorem value_digit {c : Char} (hc : c.isDigit = true) :
    value (depth + 1) (c :: s) = number (c :: s) := by
  have hne : ∀ d : Char, d.isDigit = false → c ≠ d := by
    rintro d hd rfl
    rw [hc] at hd
    cases hd
  have hliteral : ∀ (d : Char) (t : List Char) (v : Json), d.isDigit = false →
      literal (d :: t) v (c :: s) = none := by
    intro d t v hd
    rw [literal, if_neg]
    exact fun hp ↦ hne d hd (List.cons_prefix_cons.mp hp).1.symm
  rw [value, hliteral _ _ _ rfl, hliteral _ _ _ rfl, hliteral _ _ _ rfl]
  · rfl
  · exact fun s' heq ↦ hne _ rfl (List.cons.inj heq).1
  · exact fun s' heq ↦ hne _ rfl (List.cons.inj heq).1
  · exact fun s' heq ↦ hne _ rfl (List.cons.inj heq).1

theorem members_cons {name : List Char} (hname : Plain name) :
    members (depth + 1) ('"' :: (name ++ '"' :: ':' :: s)) =
      (value depth (skip s)).bind fun v ↦
        match skip v.2 with
        | ',' :: s => (members depth (skip s)).map fun r ↦ ((name, v.1) :: r.1, r.2)
        | '\x7d' :: s => some ([(name, v.1)], s)
        | _ => none := by
  rw [members, string_plain hname, Option.bind_some, skip_of_isBlank _ rfl]
  rfl

end Json
