import ZoTunnel.Server.Dashboard

/-!
# The session in the `Cookie` header

A browser sends back every cookie of the host, in one header and in an order of its own:
`name=value` pairs between semicolons. The session is the first pair whose name is the session
cookie's and whose value is not empty.

`extract_session_id` looks for a part that begins with the name and gives up when no `=` follows,
so a cookie whose name only begins like the session cookie's hides the session behind it. It also
gives up on a header with a byte that is no visible ASCII. `extractSessionId_iff` says exactly when
neither matters.
-/

namespace ZoTunnel

/-- The bytes of a header value, each as one character. -/
def HeaderValue.latin1 (v : HeaderValue) : String :=
  String.ofList (v.bytes.map fun b ↦ Char.ofNat b.toNat)

namespace Dashboard

/-! ## Pairs -/

/-- The parts of a header between its semicolons, without blanks at their ends. -/
def cookieParts (header : String) : List String :=
  ((header.toList.splitOn ';').map String.ofList).map trim

/-- A pair: what stands before the first `=`, and what stands behind it. -/
def cookiePair (part : String) : Option (String × String) :=
  if '=' ∈ part.toList then
    some (String.ofList (part.toList.takeWhile (· != '=')),
      String.ofList ((part.toList.dropWhile (· != '=')).drop 1))
  else none

/-- The value of a pair with exactly the name of the session cookie, if it is not empty. -/
def sessionValue (part : String) : Option String :=
  match cookiePair part with
  | none => none
  | some (name, value) => if name = cookieName ∧ value ≠ "" then some value else none

/-- The session that a header names. -/
def namedSession (header : String) : Option String :=
  (cookieParts header).findSome? sessionValue

/-- A part that begins with the name of the session cookie, with no `=` behind it. -/
def Blocks (part : String) : Prop :=
  ∃ rest, part = cookieName ++ rest ∧ stripPrefix rest "=" = none

section Parts

variable {part text start rest name value : String}

theorem stripPrefix_eq_some : stripPrefix text start = some rest ↔ text = start ++ rest := by
  rw [stripPrefix, Option.map_eq_some_iff]
  constructor
  · rintro ⟨l, hl, rfl⟩
    obtain ⟨l', htext, heq⟩ := List.dropPrefix?_eq_some_iff.mp hl
    rw [← String.toList_inj, String.toList_append, String.toList_ofList, htext, eq_of_beq heq]
  · rintro rfl
    exact ⟨rest.toList, List.dropPrefix?_eq_some_iff.mpr ⟨start.toList, String.toList_append,
      BEq.rfl⟩, String.ofList_toList⟩

/-- A pair is a name without `=`, the `=` and a value. -/
theorem cookiePair_eq_some :
    cookiePair part = some (name, value) ↔ part = name ++ "=" ++ value ∧ '=' ∉ name.toList := by
  rw [cookiePair]
  constructor
  · intro h
    split at h
    next hmem =>
      obtain ⟨rfl, rfl⟩ := Prod.mk.injEq .. ▸ Option.some.inj h
      refine ⟨?_, fun hin ↦ ?_⟩
      · have hne : part.toList.dropWhile (· != '=') ≠ [] := by
          rw [Ne, List.dropWhile_eq_nil_iff]
          exact fun hall ↦ absurd (hall '=' hmem) (by decide)
        obtain ⟨c, l, hl⟩ := List.exists_cons_of_ne_nil hne
        obtain rfl : c = '=' := by
          have hhead := List.head_dropWhile_not (· != '=') hne
          simp only [hl, List.head_cons, bne_eq_false_iff_eq] at hhead
          exact hhead
        rw [← String.toList_inj, String.toList_append, String.toList_append, String.toList_ofList,
          String.toList_ofList, hl, List.drop_succ_cons, List.drop_zero, List.append_assoc,
          String.toList_ofList]
        conv_lhs => rw [← List.takeWhile_append_dropWhile (p := (· != '=')) (l := part.toList), hl]
        rfl
      · rw [String.toList_ofList] at hin
        exact absurd (List.mem_takeWhile_imp hin) (by decide)
    next => cases h
  · rintro ⟨rfl, hname⟩
    have hlist : (name ++ "=" ++ value).toList = name.toList ++ '=' :: value.toList := by
      rw [String.toList_append, String.toList_append, List.append_assoc]
      rfl
    have hall : ∀ c ∈ name.toList, (c != '=') = true := by
      intro c hc
      rw [bne_iff_ne]
      rintro rfl
      exact hname hc
    rw [hlist, if_pos (List.mem_append_right _ List.mem_cons_self),
      List.takeWhile_append_of_pos hall, List.dropWhile_append_of_pos hall]
    simp

theorem notMem_cookieName : '=' ∉ cookieName.toList := by
  unfold cookieName
  decide +kernel

theorem sessionValue_eq_some : sessionValue part = some value ↔
    part = cookieName ++ "=" ++ value ∧ value ≠ "" := by
  rw [sessionValue]
  constructor
  · intro h
    split at h
    next => cases h
    next name value' hpair =>
      split at h
      next hcond =>
        obtain rfl := Option.some.inj h
        rw [cookiePair_eq_some, hcond.1] at hpair
        exact ⟨hpair.1, hcond.2⟩
      next => cases h
  · rintro ⟨hpart, hne⟩
    rw [cookiePair_eq_some.mpr ⟨hpart, notMem_cookieName⟩]
    exact if_pos ⟨rfl, hne⟩

theorem sessionValue_of_blocks (h : Blocks part) : sessionValue part = none := by
  rw [Option.eq_none_iff_forall_ne_some]
  intro value hvalue
  obtain ⟨rest, hpart, hnone⟩ := h
  rw [(sessionValue_eq_some.mp hvalue).1, String.append_assoc, String.append_right_inj] at hpart
  rw [stripPrefix_eq_some.mpr hpart.symm] at hnone
  cases hnone

end Parts

/-! ## The loop -/

theorem sessionValue_eq_none {part : String}
    (h : ∀ value, part = cookieName ++ "=" ++ value → value = "") : sessionValue part = none := by
  rw [Option.eq_none_iff_forall_ne_some]
  intro value hvalue
  obtain ⟨hpart, hne⟩ := sessionValue_eq_some.mp hvalue
  exact hne (h value hpart)

/-- One turn: a blocking part ends the loop, any other gives its session if it names one. -/
theorem sessionIdOf_cons (part : String) (parts : List String) :
    Blocks (trim part) ∧ sessionIdOf (part :: parts) = none ∨
      ¬Blocks (trim part) ∧
        sessionIdOf (part :: parts) = (sessionValue (trim part)).or (sessionIdOf parts) := by
  rw [sessionIdOf]
  cases hstart : stripPrefix (trim part) cookieName with
  | none =>
    have hno : ∀ rest, trim part ≠ cookieName ++ rest := fun rest hpart ↦ by
      rw [stripPrefix_eq_some.mpr hpart] at hstart
      cases hstart
    have hnone : sessionValue (trim part) = none :=
      sessionValue_eq_none fun value hpart ↦ absurd (hpart.trans String.append_assoc) (hno _)
    exact .inr ⟨fun ⟨rest, hpart, _⟩ ↦ hno rest hpart, by rw [hnone, Option.none_or]⟩
  | some rest =>
    have hpart := stripPrefix_eq_some.mp hstart
    simp only
    cases hequal : stripPrefix rest "=" with
    | none => exact .inl ⟨⟨rest, hpart, hequal⟩, rfl⟩
    | some value =>
      have hrest := stripPrefix_eq_some.mp hequal
      have hfree : ¬Blocks (trim part) := by
        rintro ⟨rest', hpart', hnone⟩
        rw [hpart, String.append_right_inj] at hpart'
        rw [← hpart', hequal] at hnone
        cases hnone
      refine .inr ⟨hfree, ?_⟩
      simp only
      split
      next hempty =>
        have hnone : sessionValue (trim part) = none := by
          refine sessionValue_eq_none fun value' hpart' ↦ ?_
          rw [hpart, hrest, hempty, String.append_assoc, String.append_right_inj,
            String.append_right_inj] at hpart'
          exact hpart'.symm
        rw [hnone, Option.none_or]
      next hne =>
        have hsome : sessionValue (trim part) = some value :=
          sessionValue_eq_some.mpr ⟨by rw [hpart, hrest, String.append_assoc], hne⟩
        rw [hsome, Option.some_or]

/-- **The loop.** It finds the first session unless a blocking part comes before that. -/
theorem sessionIdOf_iff (parts : List String) :
    sessionIdOf parts = (parts.map trim).findSome? sessionValue ↔
      (parts.map trim).findSome? sessionValue = none ∨
      ∀ part ∈ (parts.map trim).takeWhile (fun part ↦ (sessionValue part).isNone),
        ¬Blocks part := by
  induction parts with
  | nil => exact ⟨fun _ ↦ .inl rfl, fun _ ↦ rfl⟩
  | cons part parts ih =>
    rw [List.map_cons, List.findSome?_cons]
    rcases sessionIdOf_cons part parts with ⟨hblocks, hloop⟩ | ⟨hfree, hloop⟩
    · have hnone := sessionValue_of_blocks hblocks
      rw [List.takeWhile_cons_of_pos (by rw [hnone]; rfl), List.forall_mem_cons, hloop, hnone,
        iff_false_intro (not_not_intro hblocks), false_and, or_false]
      exact eq_comm
    · cases hvalue : sessionValue (trim part) with
      | none =>
        rw [List.takeWhile_cons_of_pos (by rw [hvalue]; rfl), List.forall_mem_cons, hloop, hvalue,
          Option.none_or, and_iff_right hfree]
        exact ih
      | some value =>
        rw [List.takeWhile_cons_of_neg (by rw [hvalue]; exact Bool.false_ne_true), hloop, hvalue,
          Option.some_or]
        exact ⟨fun _ ↦ .inr fun p hp ↦ absurd hp List.not_mem_nil, fun _ ↦ rfl⟩

/-! ## The header -/

/-- The session that the first `Cookie` header of a request names. -/
def cookieSession (headers : List (String × HeaderValue)) : Option String :=
  (headers.lookup "cookie").bind fun v ↦ namedSession v.latin1

/-- **When the session is found.** `extract_session_id` gives the first non-empty value of the pairs
named exactly like the session cookie, and none if there is none, iff no pair of the header is such
a pair, or its bytes are visible ASCII, blanks and tabs, and no part before the first such pair
begins with the name without an `=` behind it. -/
theorem extractSessionId_iff (headers : List (String × HeaderValue)) :
    extractSessionId headers = cookieSession headers ↔
      ∀ v, headers.lookup "cookie" = some v →
        namedSession v.latin1 = none ∨
        (∀ b ∈ v.bytes, isVisibleAscii b) ∧
        ∀ part ∈ (cookieParts v.latin1).takeWhile (fun part ↦ (sessionValue part).isNone),
          ¬Blocks part := by
  rw [extractSessionId, cookieSession]
  cases hv : headers.lookup "cookie" with
  | none => exact ⟨fun _ v hnone ↦ absurd hnone (Option.some_ne_none v).symm, fun _ ↦ rfl⟩
  | some v =>
    simp only [Option.bind_some, Option.some.injEq, forall_eq']
    by_cases hall : ∀ b ∈ v.bytes, isVisibleAscii b
    · have htext : v.toStr = some v.latin1 := if_pos (List.all_eq_true.mpr hall)
      rw [htext, and_iff_right hall]
      exact sessionIdOf_iff _
    · have hbytes : v.toStr = none := if_neg fun h ↦ hall (List.all_eq_true.mp h)
      rw [hbytes, iff_false_intro hall, false_and, or_false]
      exact eq_comm

/-- The header `Cookie: zo-session-theme=dark; zo-session=abc`. -/
def themeCookie : List (String × HeaderValue) :=
  [("cookie", ⟨[122, 111, 45, 115, 101, 115, 115, 105, 111, 110, 45, 116, 104, 101, 109, 101, 61,
    100, 97, 114, 107, 59, 32, 122, 111, 45, 115, 101, 115, 115, 105, 111, 110, 61, 97, 98, 99],
    by decide +kernel⟩)]

/-- A cookie that begins like the session cookie hides the session. -/
theorem extractSessionId_hidden :
    ¬ ∀ headers, extractSessionId headers = cookieSession headers := by
  intro h
  have hhidden : extractSessionId themeCookie = none := by decide +kernel
  have hnamed : cookieSession themeCookie = some "abc" := by decide +kernel
  rw [h, hnamed] at hhidden
  cases hhidden

/-- What a browser keeps of a `Set-Cookie` header and sends back: the pair before its attributes. -/
def sentPair (setCookie : String) : String :=
  String.ofList (setCookie.toList.takeWhile (· != ';'))

theorem sentPair_buildSessionCookie {sessionId : String} (hid : ';' ∉ sessionId.toList)
    (maxAgeSecs : UInt64) (tlsEnabled : Bool) :
    sentPair (buildSessionCookie sessionId maxAgeSecs tlsEnabled) =
      cookieName ++ "=" ++ sessionId := by
  have hall : ∀ c ∈ (cookieName ++ "=" ++ sessionId).toList, (c != ';') = true := by
    intro c hc
    rw [bne_iff_ne]
    rintro rfl
    rw [String.toList_append, List.mem_append] at hc
    rcases hc with hc | hc
    · exact absurd hc (by unfold cookieName; decide +kernel)
    · exact hid hc
  have hattributes : ∀ rest : String,
      ("; Path=/; HttpOnly; SameSite=Strict; Max-Age=" ++ rest).toList.takeWhile (· != ';') =
        [] := by
    intro rest
    rw [String.toList_append, Framing.toList_lit rfl]
    rfl
  rw [sentPair, ← String.toList_inj, String.toList_ofList, buildSessionCookie,
    String.append_assoc, String.append_assoc, String.toList_append,
    List.takeWhile_append_of_pos hall, hattributes, List.append_nil]

/-- The session id of a cookie that was set comes back among other cookies that name no session
before it, iff the header is visible ASCII and none of them blocks. -/
theorem extractSessionId_buildSessionCookie {headers : List (String × HeaderValue)}
    {v : HeaderValue} {sessionId : String} {before after : List String} {maxAgeSecs : UInt64}
    {tlsEnabled : Bool} (hv : headers.lookup "cookie" = some v) (hne : sessionId ≠ "")
    (hid : ';' ∉ sessionId.toList) (hbefore : ∀ part ∈ before, sessionValue part = none)
    (hparts : cookieParts v.latin1 =
      before ++ sentPair (buildSessionCookie sessionId maxAgeSecs tlsEnabled) :: after) :
    extractSessionId headers = some sessionId ↔
      (∀ b ∈ v.bytes, isVisibleAscii b) ∧ ∀ part ∈ before, ¬Blocks part := by
  rw [sentPair_buildSessionCookie hid] at hparts
  have hvalue : sessionValue (cookieName ++ "=" ++ sessionId) = some sessionId :=
    sessionValue_eq_some.mpr ⟨rfl, hne⟩
  have hfirst : namedSession v.latin1 = some sessionId := by
    rw [namedSession, hparts, List.findSome?_append, List.findSome?_eq_none_iff.mpr hbefore,
      Option.none_or, List.findSome?_cons, hvalue]
  have hsession : cookieSession headers = some sessionId := by
    rw [cookieSession, hv, Option.bind_some, hfirst]
  have htake : (cookieParts v.latin1).takeWhile (fun part ↦ (sessionValue part).isNone) =
      before := by
    rw [hparts, List.takeWhile_append_of_pos fun part hpart ↦ by rw [hbefore part hpart]; rfl,
      List.takeWhile_cons_of_neg (by rw [hvalue]; exact Bool.false_ne_true), List.append_nil]
  rw [← hsession, extractSessionId_iff]
  simp only [hv, Option.some.injEq, forall_eq', htake, hfirst, reduceCtorEq, false_or]

end Dashboard

end ZoTunnel
