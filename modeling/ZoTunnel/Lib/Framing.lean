import Mathlib.Data.List.Basic
import Mathlib.Data.Nat.Bitwise
import Mathlib.Tactic.Ring

/-!
# Bytes, exact reads and concatenated frames

The parts of a length-prefixed wire format that do not depend on the format: reading exactly `n`
bytes, a big-endian 32-bit word, UTF-8 text with the lossy decoder, and the fact that a decoder
which consumes exactly its own encoding in front of *every* suffix decodes a concatenation.

A decoder is a state transformer on the unread bytes, `Bytes → Except ε μ × Bytes`: it returns the
unread remainder on failure too, so how much a refused input consumed stays observable.
-/

/-- A byte string. -/
abbrev Bytes := List UInt8

namespace Framing

/-! ## Exact reads -/

/-- Take exactly `n` bytes off the front; `none` when the input ends first. -/
def readExact (n : ℕ) (b : Bytes) : Option (Bytes × Bytes) :=
  if n ≤ b.length then some (b.take n, b.drop n) else none

theorem readExact_append (p s : Bytes) : readExact p.length (p ++ s) = some (p, s) := by
  rw [readExact, if_pos (by simp), List.take_left, List.drop_left]

theorem readExact_append_of_length {n : ℕ} {p : Bytes} (s : Bytes) (hp : p.length = n) :
    readExact n (p ++ s) = some (p, s) := hp ▸ readExact_append p s

theorem readExact_eq_some_iff {n : ℕ} {b p s : Bytes} :
    readExact n b = some (p, s) ↔ p.length = n ∧ b = p ++ s := by
  constructor
  · intro h
    rw [readExact] at h
    split at h
    · rename_i hle
      rw [Option.some.injEq, Prod.mk.injEq] at h
      obtain ⟨rfl, rfl⟩ := h
      exact ⟨List.length_take_of_le hle, (List.take_append_drop n b).symm⟩
    · cases h
  · rintro ⟨rfl, rfl⟩
    exact readExact_append p s

/-- A read that succeeds is not disturbed by bytes arriving behind it. -/
theorem readExact_append_right {n : ℕ} {b p s : Bytes} (h : readExact n b = some (p, s))
    (t : Bytes) : readExact n (b ++ t) = some (p, s ++ t) := by
  obtain ⟨hp, rfl⟩ := readExact_eq_some_iff.mp h
  rw [List.append_assoc]
  exact readExact_append_of_length _ hp

/-! ## Big-endian words -/

/-- The four big-endian bytes of a 32-bit word. -/
def be32 (n : UInt32) : Bytes :=
  [(n >>> 24).toUInt8, (n >>> 16).toUInt8, (n >>> 8).toUInt8, n.toUInt8]

/-- The word whose big-endian bytes are `a b c d`. -/
def ofBe32 (a b c d : UInt8) : UInt32 :=
  UInt32.ofNat (((a.toNat * 256 + b.toNat) * 256 + c.toNat) * 256 + d.toNat)

@[simp] theorem length_be32 (n : UInt32) : (be32 n).length = 4 := rfl

theorem ofBe32_be32 (n : UInt32) :
    ofBe32 (n >>> 24).toUInt8 (n >>> 16).toUInt8 (n >>> 8).toUInt8 n.toUInt8 = n := by
  have hlt : n.toNat < 2 ^ 32 := n.toNat_lt
  have hsplit : ((n.toNat / 2 ^ 24 % 256 * 256 + n.toNat / 2 ^ 16 % 256) * 256
      + n.toNat / 2 ^ 8 % 256) * 256 + n.toNat % 256 = n.toNat := by omega
  apply UInt32.toNat_inj.mp
  rw [ofBe32, UInt32.toNat_ofNat']
  simp only [UInt32.toNat_toUInt8, UInt32.toNat_shiftRight, Nat.shiftRight_eq_div_pow,
    UInt32.toNat_ofNat, Nat.reduceMod, Nat.reducePow] at hsplit ⊢
  omega

theorem be32_ofBe32 (a b c d : UInt8) : be32 (ofBe32 a b c d) = [a, b, c, d] := by
  have ha := a.toNat_lt
  have hb := b.toNat_lt
  have hc := c.toNat_lt
  have hd := d.toNat_lt
  have hnat : (ofBe32 a b c d).toNat =
      ((a.toNat * 256 + b.toNat) * 256 + c.toNat) * 256 + d.toNat := by
    rw [ofBe32, UInt32.toNat_ofNat', Nat.mod_eq_of_lt (by omega)]
  simp only [be32, List.cons.injEq, and_true, ← UInt8.toNat_inj, UInt32.toNat_toUInt8,
    UInt32.toNat_shiftRight, Nat.shiftRight_eq_div_pow, UInt32.toNat_ofNat, hnat, Nat.reduceMod,
    Nat.reducePow]
  omega

/-! ## Concatenated frames -/

section Frames

variable {ε μ : Type*}

/-- Decode `n` values one after the other, stopping at the first failure. -/
def decodeMany (dec : Bytes → Except ε μ × Bytes) : ℕ → Bytes → Except ε (List μ) × Bytes
  | 0, b => (.ok [], b)
  | n + 1, b =>
    match dec b with
    | (.error e, r) => (.error e, r)
    | (.ok m, r) =>
      match decodeMany dec n r with
      | (.error e, r') => (.error e, r')
      | (.ok ms, r') => (.ok (m :: ms), r')

/-- **Concatenation.** A decoder that takes exactly `enc m` off the front of every suffix takes a
list of encodings off the front of every suffix. -/
theorem decodeMany_flatMap {dec : Bytes → Except ε μ × Bytes} {enc : μ → Bytes} {ms : List μ}
    (h : ∀ m ∈ ms, ∀ s, dec (enc m ++ s) = (.ok m, s)) (s : Bytes) :
    decodeMany dec ms.length (ms.flatMap enc ++ s) = (.ok ms, s) := by
  induction ms with
  | nil => rfl
  | cons m ms ih =>
    have hm := h m List.mem_cons_self (ms.flatMap enc ++ s)
    have hms := ih fun m' hm' ↦ h m' (List.mem_cons_of_mem m hm')
    rw [List.length_cons, decodeMany, List.flatMap_cons, List.append_assoc, hm]
    simp only [hms]

end Frames

/-! ## UTF-8 text -/

/-- The UTF-8 bytes of a string. -/
def utf8 (s : String) : Bytes := s.toUTF8.data.toList

/-- The string whose UTF-8 bytes these are, if they are valid UTF-8. -/
def ofUtf8 (b : Bytes) : Option String := String.fromUTF8? b.toByteArray

/-- The characters of a literal. The kernel reads a literal as a list of characters, and to write
this list as bytes and to decode it again is slow. -/
theorem toList_lit {s : String} {l : List Char} (h : s = String.ofList l) : s.toList = l := by
  rw [h, String.toList_ofList]

theorem ofUtf8_utf8 (s : String) : ofUtf8 (utf8 s) = some s := by
  have hbytes : (utf8 s).toByteArray = s.toUTF8 := by
    apply ByteArray.ext
    rw [List.data_toByteArray, utf8, Array.toArray_toList]
  rw [ofUtf8, hbytes, String.fromUTF8?, String.toUTF8_eq_toByteArray, dif_pos s.isValidUTF8]
  rfl

theorem utf8_eq_flatMap (text : String) :
    utf8 text = text.toList.flatMap String.utf8EncodeChar := by
  rw [utf8, String.toUTF8_eq_toByteArray, ← String.utf8Encode_toList, List.utf8Encode,
    List.toList_data_toByteArray]

theorem flatMap_utf8EncodeChar {l : List Char} (ha : ∀ c ∈ l, c.toNat < 128) :
    l.flatMap String.utf8EncodeChar = l.map fun c ↦ UInt8.ofNat c.toNat := by
  induction l with
  | nil => rfl
  | cons c l ih =>
    have hle : c.val.toNat ≤ 0x7f := Nat.le_of_lt_succ (ha c List.mem_cons_self)
    have hc : String.utf8EncodeChar c = [UInt8.ofNat c.toNat] := by
      rw [String.utf8EncodeChar, if_pos hle]
      rfl
    rw [List.flatMap_cons, hc, ih fun c' hc' ↦ ha c' (List.mem_cons_of_mem c hc')]
    rfl

theorem exists_of_mem_utf8 {s : String} (ha : ∀ c ∈ s.toList, c.toNat < 128) {b : UInt8}
    (hb : b ∈ utf8 s) : ∃ c ∈ s.toList, b.toNat = c.toNat := by
  rw [utf8_eq_flatMap, flatMap_utf8EncodeChar ha] at hb
  obtain ⟨c, hc, rfl⟩ := List.mem_map.mp hb
  refine ⟨c, hc, ?_⟩
  have := ha c hc
  rw [UInt8.toNat_ofNat']
  omega

theorem toNat_of_isAlphanum {c : Char} (hc : c.isAlphanum = true) :
    (48 ≤ c.toNat ∧ c.toNat ≤ 57) ∨ (65 ≤ c.toNat ∧ c.toNat ≤ 90) ∨
      (97 ≤ c.toNat ∧ c.toNat ≤ 122) := by
  delta Char.isAlphanum Char.isAlpha Char.isUpper Char.isLower Char.isDigit at hc
  simp only [Bool.or_eq_true, Bool.and_eq_true, decide_eq_true_eq, ge_iff_le,
    UInt32.le_iff_toNat_le] at hc
  rcases hc with (hupper | hlower) | hdigit
  · exact .inr (.inl hupper)
  · exact .inr (.inr hlower)
  · exact .inl hdigit

theorem utf8_inj {s t : String} (h : utf8 s = utf8 t) : s = t := by
  have := congrArg ofUtf8 h
  rwa [ofUtf8_utf8, ofUtf8_utf8, Option.some.injEq] at this

/-- How many bytes at the front one replacement character stands for, where no character can be
decoded: the longest prefix that begins some well-formed sequence, and at least one byte. -/
def invalidLength : Bytes → ℕ
  | [] => 1
  | a :: rest =>
    let second : Option (UInt8 × UInt8) :=
      if a = 0xE0 then some (0xA0, 0xBF) else if a = 0xED then some (0x80, 0x9F)
      else if 0xE1 ≤ a ∧ a ≤ 0xEF then some (0x80, 0xBF)
      else if a = 0xF0 then some (0x90, 0xBF) else if a = 0xF4 then some (0x80, 0x8F)
      else if 0xF1 ≤ a ∧ a ≤ 0xF3 then some (0x80, 0xBF) else none
    match second, rest with
    | some (lo, hi), b :: rest' =>
      if lo ≤ b ∧ b ≤ hi then
        match rest' with
        | c :: _ => if 0xF0 ≤ a ∧ 0x80 ≤ c ∧ c ≤ 0xBF then 3 else 2
        | [] => 2
      else 1
    | _, _ => 1

/-- Decode at most `fuel` characters, putting U+FFFD for each undecodable stretch. -/
def lossyChars : ℕ → Bytes → List Char
  | 0, _ => []
  | _ + 1, [] => []
  | fuel + 1, b@(_ :: _) =>
    match b.toByteArray.utf8DecodeChar? 0 with
    | some c => c :: lossyChars fuel (b.drop c.utf8Size)
    | none => '\uFFFD' :: lossyChars fuel (b.drop (invalidLength b))

/-- Text from bytes, invalid stretches replaced: bytes that are valid UTF-8 are taken as they
are, every character or stretch of the others uses at least one byte. -/
def fromUtf8Lossy (b : Bytes) : String :=
  match ofUtf8 b with
  | some s => s
  | none => String.ofList (lossyChars b.length b)

@[simp] theorem fromUtf8Lossy_utf8 (s : String) : fromUtf8Lossy (utf8 s) = s := by
  rw [fromUtf8Lossy, ofUtf8_utf8]

example : fromUtf8Lossy [0x61, 0xE2, 0x82, 0xFF, 0xC3, 0xA9] = "a\uFFFD\uFFFDé" := by decide

end Framing
