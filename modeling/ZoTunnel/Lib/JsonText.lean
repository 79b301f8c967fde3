import Mathlib.Data.Nat.Digits.Lemmas
import ZoTunnel.Lib.Framing

/-!
# Compact JSON text

A compositional description of compact JSON: each `Codec` is a printer and a parser together with
the law that the parser takes exactly the printed text off the front of *every* continuation. The
law is a field, so pairs, options and records inherit it and no record needs a round-trip proof of
its own.

Covered are strings with their escapes, decimal and fixed-width hexadecimal numbers, the literals
and objects whose members come in a fixed order without white space, which is what a serializer
writes. A parser here accepts at least that text; it is not a parser for all of JSON.
-/

namespace JsonText

/-- A printer and a parser with the round-trip law. -/
structure Codec (α : Type*) where
  print : α → List Char
  parse : List Char → Option (α × List Char)
  /-- Parsing undoes printing in front of every continuation. -/
  parse_print : ∀ x rest, parse (print x ++ rest) = some (x, rest)

namespace Codec

variable {α β γ : Type*}

/-! ## Composition -/

/-- A fixed text, carrying no value. -/
def lit (t : List Char) : Codec Unit where
  print _ := t
  parse s := if t <+: s then some ((), s.drop t.length) else none
  parse_print _ rest := by rw [if_pos (List.prefix_append t rest), List.drop_left]

theorem lit_parse_append (t rest : List Char) : (lit t).parse (t ++ rest) = some ((), rest) :=
  (lit t).parse_print () rest

/-- One value after the other. -/
def seq (c : Codec α) (d : Codec β) : Codec (α × β) where
  print p := c.print p.1 ++ d.print p.2
  parse s := (c.parse s).bind fun q ↦ (d.parse q.2).map fun r ↦ ((q.1, r.1), r.2)
  parse_print p rest := by
    rw [List.append_assoc, c.parse_print, Option.bind_some, d.parse_print, Option.map_some]

/-- Put a fixed text before a value. -/
def after (t : List Char) (c : Codec α) : Codec α where
  print x := t ++ c.print x
  parse s := ((lit t).parse s).bind fun q ↦ c.parse q.2
  parse_print x rest := by
    rw [List.append_assoc, lit_parse_append, Option.bind_some, c.parse_print]

/-- Put a fixed text behind a value. -/
def upTo (c : Codec α) (t : List Char) : Codec α where
  print x := c.print x ++ t
  parse s := (c.parse s).bind fun q ↦ ((lit t).parse q.2).map fun r ↦ (q.1, r.2)
  parse_print x rest := by
    rw [List.append_assoc, c.parse_print, Option.bind_some, lit_parse_append, Option.map_some]

/-- Change the representation along a partial inverse. -/
def iso (c : Codec α) (pack : α → Option β) (unpack : β → α)
    (pack_unpack : ∀ y, pack (unpack y) = some y) : Codec β where
  print y := c.print (unpack y)
  parse s := (c.parse s).bind fun q ↦ (pack q.1).map fun y ↦ (y, q.2)
  parse_print y rest := by
    rw [c.parse_print, Option.bind_some, pack_unpack, Option.map_some]

/-- `null` with a fixed text behind it, or a value whose text does not start with `null`. A codec
that only knows its end by what follows takes that text in, and then `null` must too. -/
def orNull (c : Codec α) (t : List Char)
    (hn : ∀ x rest, ¬ ['n', 'u', 'l', 'l'] <+: c.print x ++ rest) : Codec (Option α) where
  print
    | none => ['n', 'u', 'l', 'l'] ++ t
    | some x => c.print x
  parse s :=
    if ['n', 'u', 'l', 'l'] <+: s then ((lit t).parse (s.drop 4)).map fun q ↦ (none, q.2)
    else (c.parse s).map fun q ↦ (some q.1, q.2)
  parse_print x rest := by
    cases x with
    | none =>
      simp only
      rw [List.append_assoc, if_pos (List.prefix_append _ _), show
        (['n', 'u', 'l', 'l'] ++ (t ++ rest)).drop 4 = t ++ rest from rfl, lit_parse_append,
        Option.map_some]
    | some x =>
      simp only
      rw [if_neg (hn x rest), c.parse_print, Option.map_some]

/-- `true` or `false`. -/
def bool : Codec Bool where
  print b := if b then ['t', 'r', 'u', 'e'] else ['f', 'a', 'l', 's', 'e']
  parse s :=
    if ['t', 'r', 'u', 'e'] <+: s then some (true, s.drop 4)
    else if ['f', 'a', 'l', 's', 'e'] <+: s then some (false, s.drop 5) else none
  parse_print b rest := by cases b <;> simp

end Codec

/-! ## Hexadecimal digits -/

/-- The lower-case digit of a number below sixteen. -/
def hexDigit (n : ℕ) : Char := if n < 10 then Char.ofNat (48 + n) else Char.ofNat (87 + n)

/-- The value of a hexadecimal digit of either case. -/
def hexValue (c : Char) : Option ℕ :=
  if '0' ≤ c ∧ c ≤ '9' then some (c.toNat - 48)
  else if 'a' ≤ c ∧ c ≤ 'f' then some (c.toNat - 87)
  else if 'A' ≤ c ∧ c ≤ 'F' then some (c.toNat - 55) else none

theorem hexValue_hexDigit : ∀ n < 16, hexValue (hexDigit n) = some n := by decide

/-- The last `width` hexadecimal digits of a number. -/
def hexPrint : ℕ → ℕ → List Char
  | 0, _ => []
  | width + 1, n => hexPrint width (n / 16) ++ [hexDigit (n % 16)]

/-- Read exactly `width` hexadecimal digits onto the accumulator. -/
def hexParse : ℕ → ℕ → List Char → Option (ℕ × List Char)
  | 0, acc, s => some (acc, s)
  | _ + 1, _, [] => none
  | width + 1, acc, c :: s => (hexValue c).bind fun d ↦ hexParse width (acc * 16 + d) s

private theorem hexParse_add (m n acc : ℕ) (s : List Char) :
    hexParse (m + n) acc s = (hexParse m acc s).bind fun q ↦ hexParse n q.1 q.2 := by
  induction m generalizing acc s with
  | zero => rw [Nat.zero_add, hexParse, Option.bind_some]
  | succ m ih =>
    rw [Nat.add_right_comm]
    cases s with
    | nil => rfl
    | cons c s =>
      rw [hexParse, hexParse, Option.bind_assoc]
      congr 1
      funext d
      exact ih _ _

theorem hexParse_hexPrint (width n acc : ℕ) (rest : List Char) :
    hexParse width acc (hexPrint width n ++ rest)
      = some (acc * 16 ^ width + n % 16 ^ width, rest) := by
  induction width generalizing n acc rest with
  | zero => simp [hexPrint, hexParse, Nat.mod_one]
  | succ width ih =>
    rw [hexPrint, List.append_assoc, hexParse_add, ih, Option.bind_some]
    simp only [List.singleton_append, hexParse, hexValue_hexDigit _ (Nat.mod_lt n (by decide)),
      Option.bind_some, Option.some.injEq, Prod.mk.injEq, and_true]
    rw [Nat.pow_succ, Nat.mul_comm (16 ^ width) 16, Nat.mod_mul]
    ring

/-- A number below `16 ^ width`, as exactly `width` digits. -/
def Codec.hex (width : ℕ) : Codec (Fin (16 ^ width)) where
  print n := hexPrint width n.val
  parse s := (hexParse width 0 s).bind fun q ↦
    if h : q.1 < 16 ^ width then some (⟨q.1, h⟩, q.2) else none
  parse_print n rest := by
    rw [hexParse_hexPrint, Option.bind_some, Nat.zero_mul, Nat.zero_add,
      Nat.mod_eq_of_lt n.isLt]
    simp

/-! ## Decimal numbers -/

/-- The decimal digits of a number, most significant first. -/
def decPrint (n : ℕ) : List Char :=
  if n = 0 then ['0'] else (Nat.digits 10 n).reverse.map hexDigit

/-- Read the decimal digits at the front onto the accumulator. -/
def decParse : ℕ → List Char → ℕ × List Char
  | acc, [] => (acc, [])
  | acc, c :: s =>
    if '0' ≤ c ∧ c ≤ '9' then decParse (acc * 10 + (c.toNat - 48)) s else (acc, c :: s)

private theorem decDigit : ∀ d < 10,
    ('0' ≤ hexDigit d ∧ hexDigit d ≤ '9') ∧ (hexDigit d).toNat - 48 = d := by decide

private theorem decParse_map (ds : List ℕ) (hds : ∀ d ∈ ds, d < 10) (acc : ℕ) (s : List Char) :
    decParse acc (ds.map hexDigit ++ s) = decParse (ds.foldl (fun a d ↦ a * 10 + d) acc) s := by
  induction ds generalizing acc with
  | nil => rfl
  | cons d ds ih =>
    obtain ⟨hrange, hval⟩ := decDigit d (hds d List.mem_cons_self)
    rw [List.map_cons, List.cons_append, decParse, if_pos hrange, hval, List.foldl_cons]
    exact ih (fun d' hd' ↦ hds d' (List.mem_cons_of_mem d hd')) _

private theorem foldl_reverse_digits (ds : List ℕ) :
    ds.reverse.foldl (fun a d ↦ a * 10 + d) 0 = Nat.ofDigits 10 ds := by
  rw [List.foldl_reverse]
  induction ds with
  | nil => rfl
  | cons d ds ih =>
    rw [List.foldr_cons, ih, Nat.ofDigits_cons, Nat.mul_comm, Nat.add_comm]

theorem decParse_decPrint (n : ℕ) (s : List Char) :
    decParse 0 (decPrint n ++ s) = decParse n s := by
  by_cases hn : n = 0
  · subst hn
    simp [decPrint, decParse]
  · rw [decPrint, if_neg hn, decParse_map _ (by
      intro d hd
      exact Nat.digits_lt_base (by decide) (List.mem_reverse.mp hd)), foldl_reverse_digits,
      Nat.ofDigits_digits]

/-- A number below `bound` in decimal, up to and including the comma behind it. -/
def Codec.decComma (bound : ℕ) : Codec (Fin bound) where
  print n := decPrint n.val ++ [',']
  parse s :=
    match decParse 0 s with
    | (n, ',' :: s') => if h : n < bound then some (⟨n, h⟩, s') else none
    | _ => none
  parse_print n rest := by
    have hcomma : decParse n.val (',' :: rest) = (n.val, ',' :: rest) := by
      rw [decParse, if_neg (by decide)]
    rw [List.append_assoc, List.singleton_append, decParse_decPrint, hcomma]
    simp

/-! ## Strings -/

/-- The escaped text of one character. -/
def escapeChar (c : Char) : List Char :=
  if c = '"' then ['\\', '"'] else if c = '\\' then ['\\', '\\']
  else if c = '\x08' then ['\\', 'b'] else if c = '\t' then ['\\', 't']
  else if c = '\n' then ['\\', 'n'] else if c = '\x0c' then ['\\', 'f']
  else if c = '\r' then ['\\', 'r']
  else if c.toNat < 32 then ['\\', 'u', '0', '0'] ++ hexPrint 2 c.toNat
  else [c]

/-- The character a one-letter escape stands for. -/
def unescapeChar (c : Char) : Option Char :=
  if c = '"' ∨ c = '\\' ∨ c = '/' then some c
  else if c = 'b' then some '\x08' else if c = 't' then some '\t'
  else if c = 'n' then some '\n' else if c = 'f' then some '\x0c'
  else if c = 'r' then some '\r' else none

/-- Read a string up to its closing quote. A `\u` escape of a surrogate is refused. -/
def unescape : List Char → Option (List Char × List Char)
  | [] => none
  | '"' :: s => some ([], s)
  | '\\' :: 'u' :: a :: b :: c :: d :: s =>
    (hexParse 4 0 [a, b, c, d]).bind fun q ↦
      if 0xD800 ≤ q.1 ∧ q.1 ≤ 0xDFFF then none
      else (unescape s).map fun r ↦ (Char.ofNat q.1 :: r.1, r.2)
  | '\\' :: e :: s =>
    (unescapeChar e).bind fun c ↦ (unescape s).map fun r ↦ (c :: r.1, r.2)
  | c :: s => if c.toNat < 32 then none else (unescape s).map fun r ↦ (c :: r.1, r.2)

private theorem unescape_plain {c : Char} (s : List Char) (hq : c ≠ '"') (hb : c ≠ '\\')
    (hc : ¬ c.toNat < 32) : unescape (c :: s) = (unescape s).map fun r ↦ (c :: r.1, r.2) := by
  rw [unescape]
  · rw [if_neg hc]
  · exact hq
  · intro a b d e s' h
    exact absurd h hb
  · intro e s' h
    exact absurd h hb

private theorem hexParse_control : ∀ n < 32, hexParse 4 0 ('0' :: '0' :: hexPrint 2 n)
    = some (n, []) ∧ ¬ (0xD800 ≤ n ∧ n ≤ 0xDFFF) := by decide

private theorem unescape_control {n : ℕ} (hn : n < 32) (s : List Char) :
    unescape ('\\' :: 'u' :: '0' :: '0' :: (hexPrint 2 n ++ s))
      = (unescape s).map fun r ↦ (Char.ofNat n :: r.1, r.2) := by
  obtain ⟨hparse, hrange⟩ := hexParse_control n hn
  have htwo : hexPrint 2 n = [hexDigit (n / 16 % 16), hexDigit (n % 16)] := rfl
  rw [htwo] at hparse
  rw [htwo, List.cons_append, List.cons_append, List.nil_append, unescape, hparse,
    Option.bind_some, if_neg hrange]

/-- One escaped character is read back, whatever follows. -/
theorem unescape_escapeChar (c : Char) (s : List Char) :
    unescape (escapeChar c ++ s) = (unescape s).map fun r ↦ (c :: r.1, r.2) := by
  by_cases hq : c = '"'
  · subst hq; rfl
  by_cases hb : c = '\\'
  · subst hb; rfl
  by_cases hspecial : c = '\x08' ∨ c = '\t' ∨ c = '\n' ∨ c = '\x0c' ∨ c = '\r'
  · rcases hspecial with rfl | rfl | rfl | rfl | rfl <;> rfl
  simp only [not_or] at hspecial
  obtain ⟨h8, h9, h10, h12, h13⟩ := hspecial
  rw [escapeChar, if_neg hq, if_neg hb, if_neg h8, if_neg h9, if_neg h10, if_neg h12, if_neg h13]
  by_cases hc : c.toNat < 32
  · rw [if_pos hc, List.append_assoc]
    have := unescape_control hc s
    rwa [Char.ofNat_toNat] at this
  · rw [if_neg hc, List.singleton_append, unescape_plain s hq hb hc]

theorem unescape_flatMap (cs s : List Char) :
    unescape (cs.flatMap escapeChar ++ '"' :: s) = some (cs, s) := by
  induction cs with
  | nil => rfl
  | cons c cs ih =>
    rw [List.flatMap_cons, List.append_assoc, unescape_escapeChar, ih, Option.map_some]

namespace Codec

/-- A quoted string. -/
def str : Codec String where
  print s := '"' :: (s.toList.flatMap escapeChar ++ ['"'])
  parse
    | '"' :: s => (unescape s).map fun r ↦ (String.ofList r.1, r.2)
    | _ => none
  parse_print s rest := by
    rw [List.cons_append, List.append_assoc, List.singleton_append]
    simp only [unescape_flatMap, Option.map_some, String.ofList_toList]

/-- `null` or a quoted string. -/
def optStr : Codec (Option String) := str.orNull [] fun s rest ↦ by simp [str]

/-! ## Whole texts as bytes -/

variable {α : Type*}

/-- The UTF-8 bytes of the compact text. -/
def toBytes (c : Codec α) (x : α) : Bytes := Framing.utf8 (String.ofList (c.print x))

/-- The value whose compact text these bytes are. -/
def ofBytes (c : Codec α) (b : Bytes) : Option α :=
  (Framing.ofUtf8 b).bind fun s ↦
    match c.parse s.toList with
    | some (x, []) => some x
    | _ => none

theorem ofBytes_toBytes (c : Codec α) (x : α) : c.ofBytes (c.toBytes x) = some x := by
  have hparse : c.parse (c.print x) = some (x, []) := by
    simpa using c.parse_print x []
  rw [ofBytes, toBytes, Framing.ofUtf8_utf8, Option.bind_some, String.toList_ofList, hparse]

end Codec

end JsonText
