import Mathlib.Data.List.DropRight
import ZoTunnel.Lib.JsonText
import ZoTunnel.Lib.Machine

/-!
# A fragment of YAML

A reader for the block part of YAML 1.2: mappings and sequences by indentation, plain scalars on one
line, and double-quoted scalars with their escapes and the folding of their lines. Flow collections,
anchors, tags, directives, block scalars and quoted keys are refused, and so is a plain scalar that
starts with a dash or goes on in a second line. The indentation of the later lines of a
double-quoted scalar is not looked at, and keys may be of any length, where YAML 1.2 has a limit of
1024 characters.

The scanner is a machine that takes one character at a time and emits tokens with their columns.
The structure of the document is read off the columns, from the last token to the first: a key or
a dash takes in what follows it at greater columns.

## What quotes keep

A double-quoted scalar whose value is its own text has nothing to escape and nothing to fold. The
measure behind this is the number of characters other than spaces: a backslash and a line break
count on one side only, and nothing that they do brings back the difference.
-/

namespace Yaml

/-- A document, or a part of one. -/
inductive Node
  | null
  | scalar (text : String)
  | seq (items : List Node)
  | map (entries : List (String × Node))

/-- The value of a key. -/
def Node.get (k : String) : Node → Option Node
  | .map entries => entries.lookup k
  | _ => none

/-! ## Characters -/

def isBreak (c : Char) : Bool := c == '\n' || c == '\r'

def isBlank (c : Char) : Bool := c == ' ' || c == '\t'

/-- What may stand outside quotes, line breaks apart. -/
def isPrintable (c : Char) : Bool :=
  c.toNat == 9 || 32 ≤ c.toNat && c.toNat ≤ 126 || c.toNat == 133 ||
    160 ≤ c.toNat && c.toNat ≤ 65533 && c.toNat != 65279 || 65536 ≤ c.toNat

/-- What may stand in double quotes, line breaks apart: `nb-json` of YAML 1.2. Readers in the
tradition of `libyaml` refuse DEL and the C1 controls, here they are read. -/
def isJson (c : Char) : Bool := c == '\t' || 32 ≤ c.toNat

/-- Characters that no plain scalar starts with. -/
def indicators : List Char :=
  ['-', '?', ':', ',', '[', ']', '\x7b', '\x7d', '#', '&', '*', '!', '|', '>', '\x27', '"', '%',
    '@', '\x60']

def isPlainFirst (c : Char) : Bool := isPrintable c && !isBlank c && !indicators.contains c

/-- Characters that neither end a plain scalar nor depend on their neighbours in it. -/
def isPlainChar (c : Char) : Bool := isPrintable c && !isBlank c && c != ':' && c != '#'

/-- Characters that stand for themselves in double quotes. -/
def isLiteral (c : Char) : Bool := isJson c && c != '"' && c != '\\'

/-- The escape sequences of one character. -/
def escapeChar : Char → Option Char
  | '0' => some '\x00'
  | 'a' => some '\x07'
  | 'b' => some '\x08'
  | 't' => some '\t'
  | '\t' => some '\t'
  | 'n' => some '\n'
  | 'v' => some '\x0b'
  | 'f' => some '\x0c'
  | 'r' => some '\r'
  | 'e' => some '\x1b'
  | ' ' => some ' '
  | '"' => some '"'
  | '/' => some '/'
  | '\\' => some '\\'
  | 'N' => some '\u0085'
  | '_' => some '\u00a0'
  | 'L' => some '\u2028'
  | 'P' => some '\u2029'
  | _ => none

/-- How many hexadecimal digits follow. -/
def escapeDigits : Char → Option ℕ
  | 'x' => some 2
  | 'u' => some 4
  | 'U' => some 8
  | _ => none

/-! ## Double-quoted scalars -/

/-- Where the scanner stands between double quotes. -/
inductive Quote
  /-- In a line, after some blanks; they are dropped if the line ends here. -/
  | text (blanks : List Char)
  | escape
  /-- In a hexadecimal escape, with so many digits to come. -/
  | hex (left value : ℕ)
  /-- At the start of a line, after so many empty lines. -/
  | fold (escaped : Bool) (empty : ℕ) (cr : Bool)
  deriving DecidableEq, Repr

/-- What line breaks come to. -/
def foldText (escaped : Bool) (empty : ℕ) : List Char :=
  if empty = 0 then if escaped then [] else [' '] else List.replicate empty '\n'

/-- What one character between double quotes leads to. -/
inductive Quoted
  | closed (value : List Char)
  | more (value : List Char) (q : Quote)

/-- A character in a line. -/
def textStep (value blanks : List Char) (c : Char) : Option Quoted :=
  if c = '"' then some (.closed (value ++ blanks))
  else if c = '\\' then some (.more (value ++ blanks) .escape)
  else if isBreak c then some (.more value (.fold false 0 (c == '\r')))
  else if isBlank c then some (.more value (.text (blanks ++ [c])))
  else if isJson c then some (.more (value ++ blanks ++ [c]) (.text []))
  else none

/-- A character between double quotes. -/
def quoteStep (value : List Char) (c : Char) : Quote → Option Quoted
  | .text blanks => textStep value blanks c
  | .escape =>
    if isBreak c then some (.more value (.fold true 0 (c == '\r')))
    else
      match escapeDigits c with
      | some n => some (.more value (.hex n 0))
      | none => (escapeChar c).map fun d ↦ .more (value ++ [d]) (.text [])
  | .hex left n =>
    match JsonText.hexValue c with
    | none => none
    | some d =>
      if 1 < left then some (.more value (.hex (left - 1) (16 * n + d)))
      else if (16 * n + d).isValidChar then
        some (.more (value ++ [Char.ofNat (16 * n + d)]) (.text []))
      else none
  | .fold escaped empty cr =>
    -- The second half of a CRLF is no further break.
    if c = '\n' ∧ cr = true then some (.more value (.fold escaped empty false))
    else if isBreak c then some (.more value (.fold escaped (empty + 1) (c == '\r')))
    else if isBlank c then some (.more value (.fold escaped empty false))
    else textStep (value ++ foldText escaped empty) [] c

/-! ## The scanner -/

inductive Lexeme
  | key (name : List Char)
  | dash
  | scalar (text : List Char)
  deriving DecidableEq, Repr

structure Token where
  col : ℕ
  lexeme : Lexeme
  deriving DecidableEq, Repr

/-- Where the scanner stands. -/
inductive Mode
  /-- Nothing but spaces, or a dash and spaces, in this line. -/
  | fresh
  | dash (col : ℕ)
  | value
  /-- In a plain scalar, which may still turn out to be a key. -/
  | plain (key : Bool) (col : ℕ) (text : List Char)
  /-- After a colon in a plain scalar. -/
  | colon (key : Bool) (col : ℕ) (text : List Char)
  | quoted (col : ℕ) (value : List Char) (q : Quote)
  | after (spaced : Bool)
  | comment
  deriving DecidableEq, Repr

structure Scanner where
  mode : Mode
  col : ℕ
  deriving DecidableEq, Repr

/-- Without the blanks at its end. -/
def trim (text : List Char) : List Char := text.rdropWhile isBlank

/-- One character. -/
def Mode.step (col : ℕ) (c : Char) : Mode → Option (Mode × List Token)
  | fresh =>
    if isBreak c || c == ' ' then some (fresh, [])
    else if c = '#' then some (comment, [])
    else if c = '-' then some (dash col, [])
    else if c = '"' then some (quoted col [] (.text []), [])
    else if isPlainFirst c then some (plain true col [c], [])
    else none
  | dash start => if isBreak c || c == ' ' then some (fresh, [⟨start, .dash⟩]) else none
  | value =>
    if isBreak c then some (fresh, [])
    else if isBlank c then some (value, [])
    else if c = '#' then some (comment, [])
    else if c = '"' then some (quoted col [] (.text []), [])
    else if isPlainFirst c then some (plain false col [c], [])
    else none
  | plain key start text =>
    if isBreak c then some (fresh, [⟨start, .scalar (trim text)⟩])
    else if c = ':' then some (colon key start text, [])
    else if c = '#' ∧ text.getLast?.any isBlank then some (comment, [⟨start, .scalar (trim text)⟩])
    else if isPrintable c then some (plain key start (text ++ [c]), [])
    else none
  | colon key start text =>
    if isBreak c || isBlank c then
      if key then some (if isBreak c then fresh else value, [⟨start, .key (trim text)⟩]) else none
    else if c = ':' then some (colon key start (text ++ [':']), [])
    else if isPrintable c then some (plain key start (text ++ [':', c]), [])
    else none
  | quoted start text q =>
    match quoteStep text c q with
    | none => none
    | some (.closed v) => some (after false, [⟨start, .scalar v⟩])
    | some (.more v q) => some (quoted start v q, [])
  | after spaced =>
    if isBreak c then some (fresh, [])
    else if isBlank c then some (after true, [])
    else if c = '#' ∧ spaced = true then some (comment, [])
    else none
  | comment =>
    if isBreak c then some (fresh, []) else if isPrintable c then some (comment, []) else none

/-- The token that the end of the text completes. -/
def Mode.finish : Mode → Option (List Token)
  | fresh | value | after _ | comment => some []
  | dash col => some [⟨col, .dash⟩]
  | plain _ col text => some [⟨col, .scalar (trim text)⟩]
  | colon key col text => if key then some [⟨col, .key (trim text)⟩] else none
  | quoted .. => none

/-- The scanner as a machine: its actions are characters, its events tokens. -/
def scanner : Machine Scanner Char Token where
  init := ⟨.fresh, 0⟩
  step s c := (s.mode.step s.col c).map fun p ↦
    (⟨p.1, if isBreak c then 0 else s.col + 1⟩, p.2)

/-- The tokens of a text. -/
def tokens (text : List Char) : Option (List Token) :=
  (scanner.run scanner.init text).bind fun p ↦ p.1.mode.finish.map (p.2 ++ ·)

/-! ## The structure -/

/-- What a token stands for, with all that belongs to it. -/
inductive Part
  | entry (key : String) (value : Node)
  | item (value : Node)
  | scalar (text : String)

def entryAt (col : ℕ) : ℕ × Part → Option (String × Node)
  | (c, .entry k v) => if c = col then some (k, v) else none
  | _ => none

def itemAt (col : ℕ) : ℕ × Part → Option Node
  | (c, .item v) => if c = col then some v else none
  | _ => none

/-- The node that some parts make up: the entries of one mapping or the items of one sequence, all
at one column, or a scalar. A key stands in a mapping once. -/
def collect : List (ℕ × Part) → Option Node
  | [] => some .null
  | (_, .scalar text) :: rest => if rest.isEmpty then some (.scalar text) else none
  | (col, .entry k v) :: rest =>
    (rest.mapM (entryAt col)).bind fun entries ↦
      if (k :: entries.map Prod.fst).Nodup then some (.map ((k, v) :: entries)) else none
  | (col, .item v) :: rest => (rest.mapM (itemAt col)).map fun items ↦ .seq (v :: items)

/-- Put a token before the parts that follow it; those at greater columns belong to it. -/
def push (t : Token) (parts : List (ℕ × Part)) : Option (List (ℕ × Part)) :=
  let inner := parts.takeWhile fun p ↦ t.col < p.1
  let rest := parts.dropWhile fun p ↦ t.col < p.1
  match t.lexeme with
  | .scalar text => if inner.isEmpty then some ((t.col, .scalar (.ofList text)) :: rest) else none
  | .key name => (collect inner).map fun v ↦ (t.col, .entry (.ofList name) v) :: rest
  | .dash => (collect inner).map fun v ↦ (t.col, .item v) :: rest

def parts : List Token → Option (List (ℕ × Part))
  | [] => some []
  | t :: ts => (parts ts).bind (push t)

/-- Read a document. -/
def read (text : String) : Option Node := ((tokens text.toList).bind parts).bind collect

/-! ## Plain scalars -/

theorem not_isBreak_of_isPrintable {c : Char} (hc : isPrintable c = true) : isBreak c = false := by
  rw [isBreak, Bool.or_eq_false_iff, beq_eq_false_iff_ne, beq_eq_false_iff_ne]
  constructor
  · rintro rfl
    cases hc
  · rintro rfl
    cases hc

theorem run_plain (key : Bool) (start col : ℕ) (text : List Char) {cs : List Char}
    (hcs : ∀ c ∈ cs, isPlainChar c = true) :
    scanner.run ⟨.plain key start text, col⟩ cs =
      some (⟨.plain key start (text ++ cs), col + cs.length⟩, []) := by
  induction cs generalizing text col with
  | nil => rw [Machine.run_nil, List.append_nil, List.length_nil, Nat.add_zero]
  | cons c cs ih =>
    have hc := hcs c List.mem_cons_self
    rw [isPlainChar, Bool.and_eq_true, Bool.and_eq_true, Bool.and_eq_true, bne_iff_ne,
      bne_iff_ne] at hc
    obtain ⟨⟨⟨hprint, -⟩, hcolon⟩, hhash⟩ := hc
    have hstep : scanner.step ⟨.plain key start text, col⟩ c =
        some (⟨.plain key start (text ++ [c]), col + 1⟩, []) := by
      simp [scanner, Mode.step, not_isBreak_of_isPrintable hprint, hcolon, hhash, hprint]
    have hrun := ih (col + 1) (text ++ [c]) fun c' hc' ↦ hcs c' (List.mem_cons_of_mem c hc')
    rw [List.append_assoc, Nat.add_assoc, Nat.add_comm 1] at hrun
    exact Machine.run_cons_eq_some.mpr ⟨_, [], [], hstep, hrun, rfl⟩

theorem scanner_isPlainFirst (col : ℕ) {c : Char} (hc : isPlainFirst c = true) :
    scanner.step ⟨.value, col⟩ c = some (⟨.plain false col [c], col + 1⟩, []) := by
  have hfirst := hc
  rw [isPlainFirst, Bool.and_eq_true, Bool.and_eq_true, Bool.not_eq_true', Bool.not_eq_true',
    List.contains_eq_mem, decide_eq_false_iff_not] at hc
  obtain ⟨⟨hprint, hblank⟩, hind⟩ := hc
  have hhash : c ≠ '#' := by
    rintro rfl
    exact hind (by decide)
  have hquote : c ≠ '"' := by
    rintro rfl
    exact hind (by decide)
  simp [scanner, Mode.step, not_isBreak_of_isPrintable hprint, hblank, hhash, hquote, hfirst]

theorem trim_of_isPlainChar {text : List Char} (htext : ∀ c ∈ text, isPlainChar c = true) :
    trim text = text := by
  rw [trim, List.rdropWhile_eq_self_iff]
  intro hne
  have hlast := htext _ (List.getLast_mem hne)
  rw [isPlainChar, Bool.and_eq_true, Bool.and_eq_true, Bool.and_eq_true] at hlast
  rw [Bool.not_eq_true, ← Bool.not_eq_true', hlast.1.1.2]

/-! ## Quoted scalars -/

/-- The number of characters other than spaces. -/
def weight (text : List Char) : ℕ := text.countP (· != ' ')

@[simp] theorem weight_nil : weight [] = 0 := rfl

@[simp] theorem weight_append (a b : List Char) : weight (a ++ b) = weight a + weight b :=
  List.countP_append

theorem weight_cons (c : Char) (text : List Char) : weight (c :: text) = weight [c] + weight text :=
  weight_append [c] text

/-- What line breaks and blanks come to if nothing follows. -/
def Quote.pending : Quote → List Char
  | text blanks => blanks
  | fold escaped empty _ => foldText escaped empty
  | escape | hex .. => []

/-- Nothing has been escaped or folded just before. -/
def Quote.IsText (q : Quote) : Prop := ∃ blanks, q = .text blanks

section

variable {value v : List Char} {q q' : Quote} {c : Char} {x : Quoted}

private theorem textStep_cases {blanks : List Char} (h : textStep value blanks c = some x) :
    (c = '"' ∧ x = .closed (value ++ blanks)) ∨
    (c = '\\' ∧ x = .more (value ++ blanks) .escape) ∨
    (isBreak c = true ∧ x = .more value (.fold false 0 (c == '\r'))) ∨
    isLiteral c = true ∧ ∃ v blanks', x = .more v (.text blanks') ∧
      v ++ blanks' = value ++ blanks ++ [c] := by
  rw [textStep] at h
  split at h
  · exact .inl ⟨‹_›, (Option.some.inj h).symm⟩
  · rename_i hquote
    split at h
    · exact .inr (.inl ⟨‹_›, (Option.some.inj h).symm⟩)
    · rename_i hslash
      split at h
      · exact .inr (.inr (.inl ⟨‹_›, (Option.some.inj h).symm⟩))
      · refine .inr (.inr (.inr ?_))
        split at h
        · rename_i hblank
          refine ⟨?_, _, _, (Option.some.inj h).symm, (List.append_assoc ..).symm⟩
          rw [isBlank, Bool.or_eq_true, beq_iff_eq, beq_iff_eq] at hblank
          rcases hblank with rfl | rfl <;> rfl
        · split at h
          · rename_i hjson
            refine ⟨?_, _, _, (Option.some.inj h).symm, List.append_nil _⟩
            rw [isLiteral, hjson, Bool.true_and, Bool.and_eq_true, bne_iff_ne, bne_iff_ne]
            exact ⟨hquote, hslash⟩
          · cases h

/-- Only a quotation mark closes, and what it closes is what was there. -/
theorem quoteStep_closed (h : quoteStep value c q = some (.closed v)) :
    c = '"' ∧ v = value ++ q.pending := by
  have htext : ∀ {value blanks : List Char}, textStep value blanks c = some (.closed v) →
      c = '"' ∧ v = value ++ blanks := by
    intro value blanks h
    rcases textStep_cases h with ⟨hc, hx⟩ | ⟨-, hx⟩ | ⟨-, hx⟩ | ⟨-, _, _, hx, -⟩
    · exact ⟨hc, Quoted.closed.inj hx⟩
    all_goals cases hx
  cases q with
  | text blanks => exact htext h
  | escape =>
    rw [quoteStep] at h
    split at h
    · cases h
    · split at h
      · cases h
      · obtain ⟨d, -, hd⟩ := Option.map_eq_some_iff.mp h
        cases hd
  | hex left n =>
    rw [quoteStep] at h
    split at h
    · cases h
    · split at h
      · cases h
      · split at h <;> cases h
  | fold escaped empty cr =>
    rw [quoteStep] at h
    split at h
    · cases h
    · split at h
      · cases h
      · split at h
        · cases h
        · obtain ⟨hc, hv⟩ := htext h
          exact ⟨hc, hv.trans (List.append_nil _)⟩

private theorem weight_singleton_le : weight [c] ≤ 1 := List.countP_le_length

private theorem weight_singleton (hc : c ≠ ' ') : weight [c] = 1 := by
  rw [weight, List.countP_singleton, if_pos (bne_iff_ne.mpr hc)]

private theorem weight_break (hc : isBreak c = true) : weight [c] = 1 := by
  apply weight_singleton
  rintro rfl
  cases hc

private theorem weight_escapeChar {d : Char} (h : escapeChar c = some d) :
    weight [d] ≤ weight [c] := by
  by_cases hc : c = ' '
  · subst hc
    cases h
    exact le_rfl
  · rw [weight_singleton hc]
    exact weight_singleton_le

private theorem weight_hexValue {n : ℕ} (h : JsonText.hexValue c = some n) : weight [c] = 1 := by
  apply weight_singleton
  rintro rfl
  cases h

private theorem not_isText_escape : ¬Quote.escape.IsText := by
  rintro ⟨_, h⟩
  cases h

private theorem not_isText_hex {left n : ℕ} : ¬(Quote.hex left n).IsText := by
  rintro ⟨_, h⟩
  cases h

private theorem not_isText_fold {escaped cr : Bool} {empty : ℕ} :
    ¬(Quote.fold escaped empty cr).IsText := by
  rintro ⟨_, h⟩
  cases h

private theorem weight_foldText (escaped : Bool) (empty : ℕ) :
    weight (foldText escaped empty) = empty := by
  rw [foldText]
  split
  · rename_i h
    rw [h]
    cases escaped <;> rfl
  · rw [weight, List.countP_replicate, if_pos (by decide)]

/-- One character more in the text makes at most one more in the value, and when none of the other
is lost it stands for itself. -/
theorem quoteStep_more (h : quoteStep value c q = some (.more v q')) :
    weight (v ++ q'.pending) ≤ weight (value ++ q.pending) + weight [c] ∧
    (q.IsText → q'.IsText ∧ isLiteral c = true ∨
      weight (v ++ q'.pending) < weight (value ++ q.pending) + weight [c]) := by
  -- The state behind a line break goes on as the text does, so both use the same cases.
  have htext : ∀ {value blanks : List Char}, textStep value blanks c = some (.more v q') →
      weight (v ++ q'.pending) ≤ weight (value ++ blanks) + weight [c] ∧
      (q'.IsText ∧ isLiteral c = true ∨
        weight (v ++ q'.pending) < weight (value ++ blanks) + weight [c]) := by
    intro value blanks h
    rcases textStep_cases h with ⟨-, hx⟩ | ⟨rfl, hx⟩ | ⟨hc, hx⟩ | ⟨hc, v', blanks', hx, heq⟩
    · cases hx
    · obtain ⟨rfl, rfl⟩ := Quoted.more.inj hx
      have hone := weight_singleton (c := '\\') (by decide)
      simp only [Quote.pending, List.append_nil, weight_append] at *
      exact ⟨by omega, .inr (by omega)⟩
    · obtain ⟨rfl, rfl⟩ := Quoted.more.inj hx
      have hone := weight_break hc
      simp only [Quote.pending, weight_append, weight_foldText] at *
      exact ⟨by omega, .inr (by omega)⟩
    · obtain ⟨rfl, rfl⟩ := Quoted.more.inj hx
      rw [Quote.pending, heq, weight_append]
      exact ⟨le_rfl, .inl ⟨⟨_, rfl⟩, hc⟩⟩
  cases q with
  | text blanks => exact ⟨(htext h).1, fun _ ↦ (htext h).2⟩
  | escape =>
    refine ⟨?_, fun hq ↦ absurd hq not_isText_escape⟩
    rw [quoteStep] at h
    split at h
    · obtain ⟨rfl, rfl⟩ := Quoted.more.inj (Option.some.inj h)
      simp only [Quote.pending, weight_append, weight_foldText, weight_nil]
      omega
    · split at h
      · obtain ⟨rfl, rfl⟩ := Quoted.more.inj (Option.some.inj h)
        exact Nat.le_add_right _ _
      · obtain ⟨d, hd, hx⟩ := Option.map_eq_some_iff.mp h
        obtain ⟨rfl, rfl⟩ := Quoted.more.inj hx
        have := weight_escapeChar hd
        simp only [Quote.pending, weight_append, weight_nil]
        omega
  | hex left n =>
    refine ⟨?_, fun hq ↦ absurd hq not_isText_hex⟩
    rw [quoteStep] at h
    split at h
    · cases h
    · rename_i d hd
      have hone := weight_hexValue hd
      split at h
      · obtain ⟨rfl, rfl⟩ := Quoted.more.inj (Option.some.inj h)
        exact Nat.le_add_right _ _
      · split at h
        · obtain ⟨rfl, rfl⟩ := Quoted.more.inj (Option.some.inj h)
          have := weight_singleton_le (c := Char.ofNat (16 * n + d))
          simp only [Quote.pending, weight_append, weight_nil]
          omega
        · cases h
  | fold escaped empty cr =>
    refine ⟨?_, fun hq ↦ absurd hq not_isText_fold⟩
    rw [quoteStep] at h
    split at h
    · obtain ⟨rfl, rfl⟩ := Quoted.more.inj (Option.some.inj h)
      exact Nat.le_add_right _ _
    · split at h
      · rename_i hc
        obtain ⟨rfl, rfl⟩ := Quoted.more.inj (Option.some.inj h)
        have hone := weight_break hc
        simp only [Quote.pending, weight_append, weight_foldText]
        omega
      · split at h
        · obtain ⟨rfl, rfl⟩ := Quoted.more.inj (Option.some.inj h)
          exact Nat.le_add_right _ _
        · have hle := (htext h).1
          rwa [List.append_nil] at hle

end

theorem scanner_quoted {start col : ℕ} {value : List Char} {q : Quote} {c : Char} {s : Scanner}
    {h : List Token} (hstep : scanner.step ⟨.quoted start value q, col⟩ c = some (s, h)) :
    (∃ v, quoteStep value c q = some (.closed v) ∧ h = [⟨start, .scalar v⟩]) ∨
    ∃ v q' col', quoteStep value c q = some (.more v q') ∧ h = [] ∧
      s = ⟨.quoted start v q', col'⟩ := by
  obtain ⟨⟨m, ts⟩, hmode, heq⟩ := Option.map_eq_some_iff.mp hstep
  rw [Prod.mk.injEq] at heq
  obtain ⟨rfl, rfl⟩ := heq
  simp only [Mode.step] at hmode
  split at hmode
  · cases hmode
  · rename_i v hv
    rw [Option.some.injEq, Prod.mk.injEq] at hmode
    exact .inl ⟨v, hv, hmode.2.symm⟩
  · rename_i v q' hv
    rw [Option.some.injEq, Prod.mk.injEq] at hmode
    exact .inr ⟨v, q', _, hv, hmode.2.symm, by rw [← hmode.1]⟩

private theorem not_isBreak_of_isLiteral {c : Char} (hc : isLiteral c = true) :
    isBreak c = false := by
  rw [isBreak, Bool.or_eq_false_iff, beq_eq_false_iff_ne, beq_eq_false_iff_ne]
  constructor
  · rintro rfl
    cases hc
  · rintro rfl
    cases hc

theorem quoteStep_literal (value blanks : List Char) {c : Char} (hc : isLiteral c = true) :
    ∃ v blanks', quoteStep value c (.text blanks) = some (.more v (.text blanks')) ∧
      v ++ blanks' = value ++ blanks ++ [c] := by
  have hbreak := not_isBreak_of_isLiteral hc
  rw [isLiteral, Bool.and_eq_true, Bool.and_eq_true, bne_iff_ne, bne_iff_ne] at hc
  obtain ⟨⟨hjson, hquote⟩, hslash⟩ := hc
  rw [quoteStep, textStep, if_neg hquote, if_neg hslash, hbreak, if_neg Bool.false_ne_true]
  split
  · exact ⟨_, _, rfl, (List.append_assoc ..).symm⟩
  · exact ⟨_, _, rfl, List.append_nil _⟩

/-- Literal characters up to the closing mark are the value. -/
theorem run_literal (start col : ℕ) (value blanks : List Char) {cs : List Char}
    (hcs : ∀ c ∈ cs, isLiteral c = true) :
    scanner.run ⟨.quoted start value (.text blanks), col⟩ (cs ++ ['"']) =
      some (⟨.after false, col + cs.length + 1⟩, [⟨start, .scalar (value ++ blanks ++ cs)⟩]) := by
  induction cs generalizing value blanks col with
  | nil => rw [List.append_nil]; rfl
  | cons c cs ih =>
    have hc := hcs c List.mem_cons_self
    obtain ⟨v, blanks', hq, heq⟩ := quoteStep_literal value blanks hc
    have hstep : scanner.step ⟨.quoted start value (.text blanks), col⟩ c =
        some (⟨.quoted start v (.text blanks'), col + 1⟩, []) := by
      simp [scanner, Mode.step, hq, not_isBreak_of_isLiteral hc]
    have hrun := ih (col + 1) v blanks' fun c' hc' ↦ hcs c' (List.mem_cons_of_mem c hc')
    rw [heq, Nat.add_assoc col, Nat.add_comm 1, List.append_assoc] at hrun
    exact Machine.run_cons_eq_some.mpr ⟨_, [], _, hstep, hrun, rfl⟩

/-- **What is read between quotation marks.** Either the scalar is still open, or it has been closed
and its value has lost something. -/
theorem run_quoted {start col : ℕ} {cs value : List Char} {q : Quote} {s : Scanner}
    {h : List Token} (hrun : scanner.run ⟨.quoted start value q, col⟩ cs = some (s, h)) :
    (∃ v q' col', s = ⟨.quoted start v q', col'⟩ ∧ h = [] ∧
      weight (v ++ q'.pending) ≤ weight (value ++ q.pending) + weight cs ∧
      (q.IsText → (q'.IsText ∧ ∀ c ∈ cs, isLiteral c = true) ∨
        weight (v ++ q'.pending) < weight (value ++ q.pending) + weight cs)) ∨
    ∃ v more, h = ⟨start, .scalar v⟩ :: more ∧
      weight v < weight (value ++ q.pending) + weight cs := by
  induction cs generalizing value q col h with
  | nil =>
    rw [Machine.run_nil, Option.some.injEq, Prod.mk.injEq] at hrun
    obtain ⟨rfl, rfl⟩ := hrun
    exact .inl ⟨value, q, col, rfl, rfl, le_rfl, fun hq ↦ .inl ⟨hq, nofun⟩⟩
  | cons c cs ih =>
    obtain ⟨t, es, h', hstep, htail, rfl⟩ := Machine.run_cons_eq_some.mp hrun
    rw [weight_cons]
    rcases scanner_quoted hstep with ⟨v, hv, rfl⟩ | ⟨v, q', col', hv, rfl, rfl⟩
    · obtain ⟨rfl, rfl⟩ := quoteStep_closed hv
      have hone := weight_singleton (c := '"') (by decide)
      exact .inr ⟨_, h', rfl, by omega⟩
    · obtain ⟨hle, hkept⟩ := quoteStep_more hv
      rcases ih htail with ⟨v₂, q₂, col₂, rfl, rfl, hle₂, hkept₂⟩ | ⟨v₂, more, rfl, hlt⟩
      · refine .inl ⟨v₂, q₂, col₂, rfl, rfl, by omega, fun hq ↦ ?_⟩
        rcases hkept hq with ⟨hq', hc⟩ | hlt
        · rcases hkept₂ hq' with ⟨hq₂, hall⟩ | hlt
          · exact .inl ⟨hq₂, List.forall_mem_cons.mpr ⟨hc, hall⟩⟩
          · exact .inr (by omega)
        · exact .inr (by omega)
      · exact .inr ⟨v₂, more, rfl, by omega⟩

/-- A scalar that starts with `body` and a character `c` before a quotation mark, where `c` leads
back into the text from everywhere, ends at that mark or before it; if its value is what stands
before that mark, that is literal. -/
theorem run_scalar {start col : ℕ} {body rest : List Char} {c : Char} {s : Scanner}
    {h : List Token} (hc : ∀ value q x, quoteStep value c q = some x → ∃ v, x = .more v (.text []))
    (hrun : scanner.run ⟨.quoted start [] (.text []), col⟩ (body ++ [c] ++ '"' :: rest) =
      some (s, h)) :
    ∃ v more, h = ⟨start, .scalar v⟩ :: more ∧
      (v = body ++ [c] → ∀ c' ∈ body, isLiteral c' = true) := by
  obtain ⟨t, h₁, h₂, hbody, hrest, rfl⟩ := Machine.run_append_eq_some.mp hrun
  obtain ⟨t', h₃, h₄, hpre, hlast, rfl⟩ := Machine.run_append_eq_some.mp hbody
  rcases run_quoted hpre with ⟨v, q, col', rfl, rfl, hle, hkept⟩ | ⟨v, more, rfl, hlt⟩
  · obtain ⟨u, es, h₅, hstep, hnil, rfl⟩ := Machine.run_cons_eq_some.mp hlast
    rw [Machine.run_nil, Option.some.injEq, Prod.mk.injEq] at hnil
    obtain ⟨rfl, rfl⟩ := hnil
    obtain ⟨w, es', h₆, hclose, -, rfl⟩ := Machine.run_cons_eq_some.mp hrest
    rcases scanner_quoted hstep with ⟨v', hv, -⟩ | ⟨v', q', col'', hv, rfl, rfl⟩
    · obtain ⟨v'', hv''⟩ := hc _ _ _ hv
      cases hv''
    · obtain ⟨v'', hv''⟩ := hc _ _ _ hv
      obtain ⟨rfl, rfl⟩ := Quoted.more.inj hv''
      rcases scanner_quoted hclose with ⟨v₂, hv₂, rfl⟩ | ⟨v₂, q₂, col₂, hv₂, -⟩
      · obtain ⟨-, rfl⟩ := quoteStep_closed hv₂
        refine ⟨_, h₆, rfl, fun heq ↦ ?_⟩
        rcases hkept ⟨[], rfl⟩ with ⟨-, hall⟩ | hlt
        · exact hall
        · -- What is lost in the body does not come back with the last character.
          have hle₂ := (quoteStep_more hv).1
          have hsame := congrArg weight heq
          simp only [Quote.pending, List.append_nil, weight_append, weight_nil] at *
          omega
      · cases hv₂
  · refine ⟨v, more ++ h₄ ++ h₂, by simp, fun heq ↦ ?_⟩
    have hsame := congrArg weight heq
    simp only [Quote.pending, List.append_nil, weight_append, weight_nil] at *
    omega

/-! ## Paths

A document that begins with keys at growing columns and a scalar holds the scalar under these keys,
whatever comes after it. -/

/-- Follow some keys into a node. -/
def Node.at (n : Node) : List String → Option Node
  | [] => some n
  | k :: ks => (n.get k).bind (·.at ks)

theorem Node.at_append (n : Node) (ks ks' : List String) :
    n.at (ks ++ ks') = (n.at ks).bind (·.at ks') := by
  induction ks generalizing n with
  | nil => rfl
  | cons k ks ih =>
    rw [List.cons_append, Node.at, Node.at, Option.bind_assoc]
    exact congrArg _ (funext fun m ↦ ih m)

/-- The tokens of some keys. -/
def pathTokens (path : List (ℕ × List Char)) : List Token := path.map fun p ↦ ⟨p.1, .key p.2⟩

theorem collect_scalar {col : ℕ} {text : String} {rest : List (ℕ × Part)} {n : Node}
    (h : collect ((col, .scalar text) :: rest) = some n) : n = .scalar text := by
  rw [collect] at h
  split at h
  · exact (Option.some.inj h).symm
  · cases h

theorem collect_entry {col : ℕ} {k : String} {v n : Node} {rest : List (ℕ × Part)}
    (h : collect ((col, .entry k v) :: rest) = some n) : n.get k = some v := by
  rw [collect] at h
  obtain ⟨entries, -, h⟩ := Option.bind_eq_some_iff.mp h
  split at h
  · rw [← Option.some.inj h, Node.get, List.lookup_cons, beq_self_eq_true]
  · cases h

private theorem push_key {col : ℕ} {name : List Char} {p : ℕ × Part} {ps qs : List (ℕ × Part)}
    (hcol : col < p.1) (h : push ⟨col, .key name⟩ (p :: ps) = some qs) :
    ∃ rest v qs', collect (p :: rest) = some v ∧ qs = (col, .entry (.ofList name) v) :: qs' := by
  obtain ⟨v, hv, rfl⟩ := Option.map_eq_some_iff.mp h
  rw [List.takeWhile_cons, if_pos (decide_eq_true hcol)] at hv
  exact ⟨_, v, _, hv, rfl⟩

private theorem push_scalar {col : ℕ} {text : List Char} {ps qs : List (ℕ × Part)}
    (h : push ⟨col, .scalar text⟩ ps = some qs) :
    ∃ qs', qs = (col, .scalar (.ofList text)) :: qs' := by
  simp only [push] at h
  split at h
  · exact ⟨_, (Option.some.inj h).symm⟩
  · cases h

theorem parts_path {path : List (ℕ × List Char)} {col c : ℕ} {k text : List Char}
    {more : List Token} {ps : List (ℕ × Part)}
    (hcols : (col :: (path.map Prod.fst ++ [c])).IsChain (· < ·))
    (h : parts (pathTokens ((col, k) :: path) ++ ⟨c, .scalar text⟩ :: more) = some ps) :
    ∃ n ps', ps = (col, .entry (.ofList k) n) :: ps' ∧
      n.at (path.map fun p ↦ .ofList p.2) = some (.scalar (.ofList text)) := by
  induction path generalizing col k ps with
  | nil =>
    obtain ⟨qs, hqs, hpush⟩ := Option.bind_eq_some_iff.mp h
    obtain ⟨rs, -, hscalar⟩ := Option.bind_eq_some_iff.mp hqs
    obtain ⟨qs', rfl⟩ := push_scalar hscalar
    obtain ⟨rest, v, ps', hv, rfl⟩ := push_key (List.isChain_pair.mp hcols) hpush
    exact ⟨v, ps', rfl, by rw [collect_scalar hv]; rfl⟩
  | cons p path ih =>
    obtain ⟨hlt, htail⟩ := List.isChain_cons_cons.mp hcols
    obtain ⟨qs, hqs, hpush⟩ := Option.bind_eq_some_iff.mp h
    obtain ⟨n, qs', rfl, hn⟩ := ih htail hqs
    obtain ⟨rest, v, ps', hv, rfl⟩ := push_key hlt hpush
    refine ⟨v, ps', rfl, ?_⟩
    rw [List.map_cons, Node.at, collect_entry hv, Option.bind_some, hn]

/-- **The first path of a document**, and what stands at its end. -/
theorem at_of_path (path : List (ℕ × List Char)) {c : ℕ} {text : List Char} {more ts : List Token}
    {s : String} {doc : Node} (hpath : path ≠ [])
    (hcols : (path.map Prod.fst ++ [c]).IsChain (· < ·))
    (htokens : tokens s.toList = some ts) (hread : read s = some doc)
    (hts : ts = pathTokens path ++ ⟨c, .scalar text⟩ :: more) :
    doc.at (path.map fun p ↦ .ofList p.2) = some (.scalar (.ofList text)) := by
  rw [read, htokens, Option.bind_some, hts] at hread
  obtain ⟨ps, hps, hdoc⟩ := Option.bind_eq_some_iff.mp hread
  obtain ⟨p, path, rfl⟩ := List.exists_cons_of_ne_nil hpath
  obtain ⟨n, ps', rfl, hn⟩ := parts_path hcols hps
  rw [List.map_cons, Node.at, collect_entry hdoc, Option.bind_some, hn]

end Yaml
