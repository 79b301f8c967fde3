import ZoTunnel.Lib.Siblings
import ZoTunnel.Server.Dashboard
import ZoTunnel.Server.Registry

/-!
# The clients table

The dashboard page asks for the list of clients every two seconds and brings the table body in
line with it: rows of clients that are still there are updated in place and moved into order, rows
of new clients are built, the others are removed.

Rows are looked up by client id in a plain object. A plain object answers for the keys that it
inherits, and the row of the empty id is never entered into it. `refresh_reconciled_iff` says that
these are the only two ways in which the table can fail to become the list.

What the cells say is a function of the client that a row shows, so a row is given by that client;
the texts are left out, and so is what a refresh writes outside of the table and the badge.
-/

namespace ZoTunnel

namespace ClientsTable

open Dashboard (ClientInfo)

/-! ## The page -/

/-- A `tr` of a client: the element, and its `data-id`. -/
structure Row where
  node : ℕ
  id : String
  deriving DecidableEq, Repr

/-- A child of the table body. -/
inductive Child
  | text
  | empty
  | row (r : Row)
  deriving DecidableEq, Repr

structure Page where
  children : List Child
  /-- Elements from this one on are not built yet. -/
  nextNode : ℕ
  /-- The client whose numbers an element shows. -/
  shown : ℕ → Option ClientInfo
  online : Bool

/-- The page as it is delivered. -/
def Page.initial : Page := ⟨[.text, .empty, .text], 0, fun _ ↦ none, false⟩

/-- The rows of clients among the children. -/
def rowsOf (children : List Child) : List Row :=
  children.filterMap fun | .row r => some r | .text | .empty => none

/-! ## The object of existing rows -/

/-- The keys that every plain object has from `Object.prototype`. -/
def inheritedKeys : List String :=
  ["__defineGetter__", "__defineSetter__", "__lookupGetter__", "__lookupSetter__", "__proto__",
    "constructor", "hasOwnProperty", "isPrototypeOf", "propertyIsEnumerable", "toLocaleString",
    "toString", "valueOf"]

/-- What an object of rows has under a key. -/
inductive Value
  | row (r : Row)
  | inherited
  | undefined
  deriving DecidableEq, Repr

/-- `rows[key]`: a property of the object's own, or an inherited one. -/
def get (rows : List (String × Row)) (key : String) : Value :=
  match rows.lookup key with
  | some r => .row r
  | none => if key ∈ inheritedKeys then .inherited else .undefined

/-- `rows[key] = r`. The key `__proto__` does not make a property; no row has it as its id. -/
def assign (rows : List (String × Row)) (key : String) (r : Row) : List (String × Row) :=
  if key = "__proto__" then rows
  else if (rows.lookup key).isSome then rows.map fun p ↦ if p.1 = key then (key, r) else p
  else rows ++ [(key, r)]

/-- `delete rows[key]`. -/
def delete (rows : List (String × Row)) (key : String) : List (String × Row) :=
  rows.filter fun p ↦ p.1 ≠ key

/-- The rows of the table by their ids. An empty id is false and not entered. -/
def existingRows (children : List Child) : List (String × Row) :=
  (rowsOf children).foldl (fun rows r ↦ if r.id ≠ "" then assign rows r.id r else rows) []

/-! ## A refresh -/

def updateClientRow (page : Page) (tr : Row) (c : ClientInfo) : Page :=
  { page with shown := Function.update page.shown tr.node (some c) }

def buildClientRow (page : Page) (c : ClientInfo) : Row × Page :=
  let tr : Row := ⟨page.nextNode, c.clientId⟩
  (tr, updateClientRow { page with nextNode := page.nextNode + 1 } tr c)

/-- The variables of the loop over the clients. -/
structure Loop where
  page : Page
  existing : List (String × Row)
  lastRow : Option Row

/-- Put a row behind the last one. -/
def Loop.insert (l : Loop) (page : Page) (existing : List (String × Row)) (tr : Row) : Loop where
  page := { page with
    children := Siblings.place page.children (l.lastRow.map .row) (.row tr) }
  existing := existing
  lastRow := some tr

/-- The loop over the clients, and whether it came to its end. What is inherited has no
`querySelector`, so `updateClientRow` throws on it. -/
def forEach : List ClientInfo → Loop → Loop × Bool
  | [], l => (l, true)
  | c :: cs, l =>
    match get l.existing c.clientId with
    | .inherited => (l, false)
    | .row tr =>
      forEach cs (l.insert (updateClientRow l.page tr c) (delete l.existing c.clientId) tr)
    | .undefined =>
      forEach cs (l.insert (buildClientRow l.page c).2 l.existing (buildClientRow l.page c).1)

/-- The table body after the list of clients has come in, and whether nothing was thrown. -/
def updateTable (page : Page) (clients : List ClientInfo) : Page × Bool :=
  if clients = [] then ({ page with children := [.empty] }, true)
  else
    let page := if .empty ∈ page.children then { page with children := [] } else page
    let (l, completed) := forEach clients ⟨page, existingRows page.children, none⟩
    if completed then
      ({ l.page with
        children := l.existing.foldl (fun children p ↦ children.erase (.row p.2)) l.page.children },
        true)
    else (l.page, false)

/-- What the three requests of a refresh come to. -/
inductive Fetched
  | clients (clients : List ClientInfo)
  | unauthorized
  | failed

def refresh (page : Page) : Fetched → Page
  | .clients clients =>
    { (updateTable page clients).1 with online := (updateTable page clients).2 }
  | .unauthorized => page
  | .failed => { page with online := false }

/-! ## Lookups -/

@[simp] theorem rowsOf_map_row (rows : List Row) : rowsOf (rows.map .row) = rows := by
  rw [rowsOf, List.filterMap_map]
  exact List.filterMap_some

/-- The rows of a table: no element twice, all of them built, none with the id of an inherited key,
and no id but the empty one twice. -/
structure Tidy (nextNode : ℕ) (rows : List Row) : Prop where
  nodes : (rows.map Row.node).Nodup
  built : ∀ r ∈ rows, r.node < nextNode
  ids : ((rows.filter fun r ↦ r.id ≠ "").map Row.id).Nodup
  own : ∀ r ∈ rows, r.id ∉ inheritedKeys

namespace Tidy

variable {nextNode : ℕ} {rows rows' : List Row} {r r' : Row}

theorem nil : Tidy nextNode [] := ⟨.nil, by simp, .nil, by simp⟩

theorem sublist (h : Tidy nextNode rows) (hsub : rows'.Sublist rows) : Tidy nextNode rows' where
  nodes := h.nodes.sublist (hsub.map _)
  built r hr := h.built r (hsub.subset hr)
  ids := h.ids.sublist ((hsub.filter _).map _)
  own r hr := h.own r (hsub.subset hr)

theorem nodup (h : Tidy nextNode rows) : rows.Nodup := h.nodes.of_map _

theorem perm (h : Tidy nextNode rows) (hperm : rows'.Perm rows) : Tidy nextNode rows' where
  nodes := (hperm.map _).nodup_iff.mpr h.nodes
  built r hr := h.built r (hperm.subset hr)
  ids := ((hperm.filter _).map _).nodup_iff.mpr h.ids
  own r hr := h.own r (hperm.subset hr)

theorem cons (h : Tidy nextNode rows) {id : String} (hown : id ∉ inheritedKeys)
    (hnew : ∀ r ∈ rows, r.id = id → id = "") : Tidy (nextNode + 1) (⟨nextNode, id⟩ :: rows) where
  nodes := by
    rw [List.map_cons, List.nodup_cons]
    refine ⟨fun hmem ↦ ?_, h.nodes⟩
    obtain ⟨r, hr, hnode⟩ := List.mem_map.mp hmem
    exact absurd (h.built r hr) (by rw [hnode]; exact lt_irrefl _)
  built r hr := by
    rcases List.mem_cons.mp hr with rfl | hr
    · exact Nat.lt_succ_self nextNode
    · exact Nat.lt_succ_of_lt (h.built r hr)
  ids := by
    by_cases hne : id = ""
    · rw [List.filter_cons_of_neg (by simpa using hne)]
      exact h.ids
    · rw [List.filter_cons_of_pos (by simpa using hne), List.map_cons, List.nodup_cons]
      refine ⟨fun hmem ↦ ?_, h.ids⟩
      obtain ⟨r, hr, hid⟩ := List.mem_map.mp hmem
      exact hne (hnew r (List.mem_of_mem_filter hr) hid)
  own r hr := by
    rcases List.mem_cons.mp hr with rfl | hr
    · exact hown
    · exact h.own r hr

theorem eq_of_id (h : Tidy nextNode rows) (hr : r ∈ rows) (hr' : r' ∈ rows) (hid : r.id = r'.id)
    (hne : r.id ≠ "") : r = r' :=
  List.inj_on_of_nodup_map h.ids (List.mem_filter.mpr ⟨hr, by simpa using hne⟩)
    (List.mem_filter.mpr ⟨hr', by simpa using hid ▸ hne⟩) hid

end Tidy

/-- The object that has the rows of non-empty ids. -/
def entries (rows : List Row) : List (String × Row) :=
  (rows.filter fun r ↦ r.id ≠ "").map fun r ↦ (r.id, r)

theorem lookup_map_id (rows : List Row) (key : String) :
    (rows.map fun r ↦ (r.id, r)).lookup key = rows.find? fun r ↦ r.id = key := by
  induction rows with
  | nil => rfl
  | cons r rows ih =>
    rw [List.map_cons, List.lookup_cons, List.find?_cons, ih]
    by_cases hkey : r.id = key
    · rw [hkey, beq_self_eq_true, decide_eq_true rfl]
    · rw [beq_eq_false_iff_ne.mpr (Ne.symm hkey), decide_eq_false hkey]

theorem lookup_entries_eq_some {rows : List Row} {key : String} {r : Row}
    (h : (entries rows).lookup key = some r) : r ∈ rows ∧ r.id = key ∧ key ≠ "" := by
  rw [entries, lookup_map_id] at h
  have hmem := List.mem_of_find?_eq_some h
  have hid : r.id = key := by simpa using List.find?_some h
  rw [List.mem_filter, hid] at hmem
  exact ⟨hmem.1, hid, by simpa using hmem.2⟩

theorem lookup_entries_eq_none {rows : List Row} {key : String} :
    (entries rows).lookup key = none ↔ ∀ r ∈ rows, r.id = key → key = "" := by
  rw [entries, lookup_map_id, List.find?_eq_none]
  constructor
  · intro h r hr hid
    by_contra hne
    exact h r (List.mem_filter.mpr ⟨hr, by simpa [hid] using hne⟩) (by simpa using hid)
  · intro h r hr
    obtain ⟨hmem, hne⟩ := List.mem_filter.mp hr
    rw [decide_eq_true_eq] at hne ⊢
    exact fun hid ↦ hne (hid.trans (h r hmem hid))

/-- What a lookup of a client finds: a row of the table, an inherited key, or nothing. -/
theorem get_entries {nextNode : ℕ} {rows : List Row} (htidy : Tidy nextNode rows) (key : String) :
    (key ∈ inheritedKeys ∧ get (entries rows) key = .inherited) ∨
      key ∉ inheritedKeys ∧
        ((∃ r ∈ rows, r.id = key ∧ key ≠ "" ∧ get (entries rows) key = .row r) ∨
          (∀ r ∈ rows, r.id = key → key = "") ∧ get (entries rows) key = .undefined) := by
  rw [get]
  cases hlookup : (entries rows).lookup key with
  | some r =>
    obtain ⟨hr, hid, hne⟩ := lookup_entries_eq_some hlookup
    exact .inr ⟨hid ▸ htidy.own r hr, .inl ⟨r, hr, hid, hne, rfl⟩⟩
  | none =>
    by_cases hkey : key ∈ inheritedKeys
    · exact .inl ⟨hkey, if_pos hkey⟩
    · exact .inr ⟨hkey, .inr ⟨lookup_entries_eq_none.mp hlookup, if_neg hkey⟩⟩

/-- Deleting the id of a row leaves the entries of the other rows. -/
theorem delete_entries {nextNode : ℕ} {rows : List Row} (htidy : Tidy nextNode rows) {r : Row}
    (hr : r ∈ rows) (hne : r.id ≠ "") :
    delete (entries rows) r.id = entries (rows.erase r) := by
  rw [delete, entries, entries, List.filter_map, List.filter_filter, htidy.nodup.erase_eq_filter,
    List.filter_filter]
  refine congrArg (List.map _) (List.filter_congr fun r' hr' ↦ ?_)
  simp only [Function.comp_apply, ne_eq]
  by_cases heq : r' = r
  · simp [heq]
  · have hid : r'.id = r.id → r'.id = "" := fun hid ↦
      by_contra fun hne' ↦ heq (htidy.eq_of_id hr' hr hid hne')
    by_cases hid' : r'.id = r.id
    · exact absurd (hid'.symm.trans (hid hid')) hne
    · simp [heq, hid']

theorem foldl_assign (rows : List Row) : ∀ acc : List (String × Row),
    (acc.map Prod.fst ++ (rows.filter fun r ↦ r.id ≠ "").map Row.id).Nodup →
    (∀ r ∈ rows, r.id ∉ inheritedKeys) →
    rows.foldl (fun acc r ↦ if r.id ≠ "" then assign acc r.id r else acc) acc =
      acc ++ entries rows := by
  induction rows with
  | nil => exact fun acc _ _ ↦ (List.append_nil acc).symm
  | cons r rows ih =>
    intro acc hnodup hown
    obtain ⟨hr, hrows⟩ := List.forall_mem_cons.mp hown
    rw [List.foldl_cons]
    by_cases hne : r.id ≠ ""
    · rw [List.filter_cons_of_pos (by simpa using hne), List.map_cons] at hnodup
      have hnew : r.id ∉ acc.map Prod.fst := fun hmem ↦
        List.disjoint_of_nodup_append hnodup hmem List.mem_cons_self
      have hlookup : acc.lookup r.id = none := by
        rw [List.lookup_eq_none_iff]
        intro p hp
        rw [bne_iff_ne]
        exact fun heq ↦ hnew (List.mem_map.mpr ⟨p, hp, heq.symm⟩)
      have hproto : r.id ≠ "__proto__" := fun heq ↦ hr (heq ▸ by decide)
      rw [if_pos hne, assign, if_neg hproto, hlookup, Option.isSome_none,
        if_neg Bool.false_ne_true, ih _ ?_ hrows, entries, entries,
        List.filter_cons_of_pos (by simpa using hne), List.map_cons, List.append_assoc]
      · rfl
      · rwa [List.map_append, List.append_assoc]
    · rw [List.filter_cons_of_neg (by simpa using hne)] at hnodup
      rw [if_neg hne, ih acc hnodup hrows, entries, entries,
        List.filter_cons_of_neg (by simpa using hne)]

theorem existingRows_eq {nextNode : ℕ} {rows : List Row} (htidy : Tidy nextNode rows) :
    existingRows (rows.map .row) = entries rows := by
  rw [existingRows, rowsOf_map_row, foldl_assign rows [] htidy.ids htidy.own, List.nil_append]

/-! ## The loop -/

/-- Where the loop stands: the rows of the clients it has been through, `done`, then those that it
has not come to, `rest`, out of the rows that the table had before. -/
structure Placed (before : Page) (rows : List Row) (past : List ClientInfo) (l : Loop)
    (done rest : List Row) : Prop where
  children : l.page.children = (done ++ rest).map .row
  lastRow : l.lastRow = done.getLast?
  existing : l.existing = entries rest
  tidy : Tidy l.page.nextNode (done ++ rest)
  ids : done.map Row.id = past.map (·.clientId)
  split : ∀ r ∈ rows, r ∈ done ∨ r ∈ rest
  sublist : rest.Sublist rows
  origin : ∀ r ∈ done, (r ∈ rows ∧ r.id ≠ "") ∨ before.nextNode ≤ r.node
  shown : ∀ r ∈ done, ∃ c ∈ past, c.clientId = r.id ∧ l.page.shown r.node = some c
  nextNode : before.nextNode ≤ l.page.nextNode

namespace Placed

variable {before : Page} {rows : List Row} {past : List ClientInfo} {l : Loop}
  {done rest : List Row} {c : ClientInfo} {tr : Row}

theorem start {page : Page} (hchildren : page.children = rows.map .row)
    (htidy : Tidy page.nextNode rows) (hnext : before.nextNode = page.nextNode) :
    Placed before rows [] ⟨page, existingRows page.children, none⟩ [] rows where
  children := hchildren
  lastRow := rfl
  existing := by rw [hchildren]; exact existingRows_eq htidy
  tidy := htidy
  ids := rfl
  split r hr := .inr hr
  sublist := .refl _
  origin r hr := absurd hr List.not_mem_nil
  shown r hr := absurd hr List.not_mem_nil
  nextNode := hnext.le

/-- The children after a row has been put in its place. -/
theorem place_row (h : Placed before rows past l done rest) (htr : tr ∉ done) :
    Siblings.place l.page.children (l.lastRow.map .row) (.row tr) =
      (done ++ [tr] ++ rest.erase tr).map .row := by
  have hinj : Function.Injective Child.row := fun _ _ heq ↦ Child.row.inj heq
  have hnodup : (done.map Child.row ++ rest.map Child.row).Nodup := by
    rw [← List.map_append]
    exact h.tidy.nodup.map hinj
  have hnot : Child.row tr ∉ done.map Child.row := by
    rwa [List.mem_map_of_injective hinj]
  rw [h.children, h.lastRow, ← List.getLast?_map, List.map_append,
    Siblings.place_eq hnodup hnot, ← List.map_erase hinj]
  simp

/-- The rows that are done show their clients still when another element is updated. -/
theorem shown_update (h : Placed before rows past l done rest) (hne : ∀ r ∈ done, r.node ≠ tr.node)
    (hid : c.clientId = tr.id) :
    ∀ r ∈ done ++ [tr], ∃ c' ∈ past ++ [c], c'.clientId = r.id ∧
      Function.update l.page.shown tr.node (some c) r.node = some c' := by
  intro r hr
  rcases List.mem_append.mp hr with hr | hr
  · obtain ⟨c', hc', hid', hshown⟩ := h.shown r hr
    exact ⟨c', List.mem_append_left _ hc', hid', by rw [Function.update_of_ne (hne r hr), hshown]⟩
  · obtain rfl := List.mem_singleton.mp hr
    exact ⟨c, List.mem_append_right _ List.mem_cons_self, hid, Function.update_self _ _ _⟩

/-- A client whose row exists: the row is updated and comes next. -/
theorem reuse (h : Placed before rows past l done rest) (htr : tr ∈ rest) (hid : tr.id = c.clientId)
    (hne : tr.id ≠ "") :
    Placed before rows (past ++ [c])
      (l.insert (updateClientRow l.page tr c) (delete l.existing c.clientId) tr)
      (done ++ [tr]) (rest.erase tr) := by
  have hnot : tr ∉ done := fun hmem ↦ List.disjoint_of_nodup_append h.tidy.nodup hmem htr
  have hperm : (done ++ [tr] ++ rest.erase tr).Perm (done ++ rest) := by
    rw [List.append_assoc, List.singleton_append]
    exact (List.perm_cons_erase htr).symm.append_left done
  have htidy := h.tidy.perm hperm
  exact {
    children := h.place_row hnot
    lastRow := (List.getLast?_concat).symm
    existing := by
      have hrest := h.tidy.sublist (List.sublist_append_right done rest)
      rw [Loop.insert, h.existing, ← hid, delete_entries hrest htr hne]
    tidy := htidy
    ids := by
      rw [List.map_append, List.map_append, h.ids, List.map_singleton, List.map_singleton, hid]
    split := fun r hr ↦ by
      by_cases heq : r = tr
      · exact .inl (heq ▸ List.mem_append_right _ List.mem_cons_self)
      · rcases h.split r hr with hdone | hrest
        · exact .inl (List.mem_append_left _ hdone)
        · exact .inr ((List.mem_erase_of_ne heq).mpr hrest)
    sublist := List.erase_sublist.trans h.sublist
    origin := fun r hr ↦ by
      rcases List.mem_append.mp hr with hr | hr
      · exact h.origin r hr
      · obtain rfl := List.mem_singleton.mp hr
        exact .inl ⟨h.sublist.subset htr, hne⟩
    shown := h.shown_update (fun r hr hnode ↦ hnot
      (List.inj_on_of_nodup_map h.tidy.nodes (List.mem_append_left _ hr)
        (List.mem_append_right _ htr) hnode ▸ hr)) hid.symm
    nextNode := h.nextNode }

/-- A client without a row: a new element comes next. -/
theorem build (h : Placed before rows past l done rest) (hown : c.clientId ∉ inheritedKeys)
    (hnew : ∀ r ∈ done ++ rest, r.id = c.clientId → c.clientId = "") :
    Placed before rows (past ++ [c])
      (l.insert (buildClientRow l.page c).2 l.existing (buildClientRow l.page c).1)
      (done ++ [⟨l.page.nextNode, c.clientId⟩]) rest := by
  have hfresh : ∀ r ∈ done ++ rest, r ≠ ⟨l.page.nextNode, c.clientId⟩ := by
    rintro r hr rfl
    exact lt_irrefl _ (h.tidy.built _ hr)
  have hrest : rest.erase ⟨l.page.nextNode, c.clientId⟩ = rest :=
    List.erase_of_not_mem fun hmem ↦ hfresh _ (List.mem_append_right _ hmem) rfl
  exact {
    children := by
      have hplace := h.place_row fun hmem ↦ hfresh _ (List.mem_append_left _ hmem) rfl
      rwa [hrest] at hplace
    lastRow := (List.getLast?_concat).symm
    existing := h.existing
    tidy := by
      refine (h.tidy.cons hown hnew).perm ?_
      rw [List.append_assoc, List.singleton_append]
      exact List.perm_middle
    ids := by
      rw [List.map_append, List.map_append, h.ids, List.map_singleton, List.map_singleton]
    split := fun r hr ↦ (h.split r hr).imp_left (List.mem_append_left _)
    sublist := h.sublist
    origin := fun r hr ↦ by
      rcases List.mem_append.mp hr with hr | hr
      · exact h.origin r hr
      · obtain rfl := List.mem_singleton.mp hr
        exact .inr h.nextNode
    shown := h.shown_update
      (fun r hr hnode ↦ (h.tidy.built r (List.mem_append_left _ hr)).ne hnode) rfl
    nextNode := h.nextNode.trans (Nat.le_succ _) }

end Placed

/-- **The loop.** It goes through the clients up to the first one with an inherited key, and comes
to its end iff there is none. -/
theorem forEach_placed {before : Page} {rows : List Row} (cs : List ClientInfo) :
    ∀ {past : List ClientInfo} {l : Loop} {done rest : List Row},
    Placed before rows past l done rest → ((past ++ cs).map (·.clientId)).Nodup →
    ∃ past' done' rest', Placed before rows past' (forEach cs l).1 done' rest' ∧
      ((forEach cs l).2 = true ↔ ∀ c ∈ cs, c.clientId ∉ inheritedKeys) ∧
      ((forEach cs l).2 = true → past' = past ++ cs) := by
  induction cs with
  | nil =>
    intro past l done rest h _
    exact ⟨past, done, rest, h, iff_of_true rfl (by simp), fun _ ↦ (List.append_nil past).symm⟩
  | cons c cs ih =>
    intro past l done rest h hnodup
    have hrest := h.tidy.sublist (List.sublist_append_right done rest)
    have hassoc : past ++ c :: cs = past ++ [c] ++ cs := by rw [List.append_assoc]; rfl
    rw [forEach, h.existing, List.forall_mem_cons]
    rcases get_entries hrest c.clientId with
      ⟨hkey, hget⟩ | ⟨hown, ⟨tr, htr, hid, hne, hget⟩ | ⟨hnone, hget⟩⟩
    · rw [hget]
      exact ⟨past, done, rest, h, iff_of_false Bool.false_ne_true fun hall ↦ hall.1 hkey,
        fun hfalse ↦ absurd hfalse Bool.false_ne_true⟩
    · rw [hget, and_iff_right hown, hassoc, ← h.existing]
      exact ih (h.reuse htr hid (hid ▸ hne)) (hassoc ▸ hnodup)
    · rw [hget, and_iff_right hown, hassoc, ← h.existing]
      refine ih (h.build hown fun r hr hid ↦ ?_) (hassoc ▸ hnodup)
      rcases List.mem_append.mp hr with hr | hr
      · -- the clients before this one have other ids
        have hmem : c.clientId ∈ past.map (·.clientId) := by
          rw [← h.ids, ← hid]
          exact List.mem_map_of_mem hr
        rw [List.map_append] at hnodup
        exact absurd List.mem_cons_self (List.disjoint_of_nodup_append hnodup hmem)
      · exact hnone r hr hid

/-! ## Refreshes -/

/-- What the table is between refreshes: rows of clients alone, or none of them. -/
def Page.Valid (page : Page) : Prop :=
  (.empty ∈ page.children ∧ rowsOf page.children = []) ∨
    ∃ rows, page.children = rows.map .row ∧ Tidy page.nextNode rows

theorem empty_notMem_map_row (rows : List Row) : Child.empty ∉ rows.map .row := by
  rw [List.mem_map]
  rintro ⟨r, -, hr⟩
  cases hr

/-- The removal of the rows that are left takes away all but those of the empty id. -/
theorem remove_entries {nextNode : ℕ} {done rest : List Row}
    (htidy : Tidy nextNode (done ++ rest)) :
    (entries rest).foldl (fun children p ↦ children.erase (.row p.2))
        ((done ++ rest).map Child.row) =
      (done ++ rest.filter fun r ↦ r.id = "").map Child.row := by
  have hinj : Function.Injective Child.row := fun _ _ heq ↦ Child.row.inj heq
  have hfold : (entries rest).foldl (fun children p ↦ children.erase (.row p.2))
        ((done ++ rest).map Child.row) =
      ((done ++ rest).map Child.row).diff ((rest.filter fun r ↦ r.id ≠ "").map .row) := by
    rw [List.diff_eq_foldl, entries, List.foldl_map, List.foldl_map]
  rw [hfold, (htidy.nodup.map hinj).sdiff_eq_filter, List.filter_map, List.filter_append]
  refine congrArg (List.map _) (congrArg₂ (· ++ ·) ?_ ?_)
  · refine List.filter_eq_self.mpr fun r hr ↦ ?_
    rw [Function.comp_apply, decide_eq_true_eq, List.mem_map_of_injective hinj]
    exact fun hmem ↦
      List.disjoint_of_nodup_append htidy.nodup hr (List.mem_of_mem_filter hmem)
  · refine List.filter_congr fun r hr ↦ ?_
    rw [Function.comp_apply, decide_eq_decide, List.mem_map_of_injective hinj, List.mem_filter]
    simp [hr]

/-- The outcome of a refresh with a list that is not empty: the rows of the clients that the loop
has been through, and some of the rows that were there before. -/
theorem updateTable_placed {page : Page} (hvalid : page.Valid) {clients : List ClientInfo}
    (hne : clients ≠ []) (hdistinct : (clients.map (·.clientId)).Nodup) :
    ∃ past l done rest, Placed page (rowsOf page.children) past l done rest ∧
      ((updateTable page clients).2 = true ↔ ∀ c ∈ clients, c.clientId ∉ inheritedKeys) ∧
      ((updateTable page clients).2 = true → past = clients) ∧
      (updateTable page clients).1 = { l.page with
        children := (if (updateTable page clients).2
          then done ++ rest.filter (fun r ↦ r.id = "") else done ++ rest).map .row } := by
  rw [updateTable, if_neg hne]
  set page' := if .empty ∈ page.children then { page with children := [] } else page with hpage'
  have hrows : page'.children = (rowsOf page.children).map .row ∧
      Tidy page'.nextNode (rowsOf page.children) ∧ page.nextNode = page'.nextNode := by
    rcases hvalid with ⟨hempty, hnone⟩ | ⟨rows, hrows, htidy⟩
    · rw [hpage', if_pos hempty, hnone]
      exact ⟨rfl, .nil, rfl⟩
    · have hnot : Child.empty ∉ page.children := hrows ▸ empty_notMem_map_row rows
      rw [hpage', if_neg hnot, hrows, rowsOf_map_row]
      exact ⟨rfl, htidy, rfl⟩
  obtain ⟨hchildren, htidy, hnext⟩ := hrows
  obtain ⟨past, done, rest, hplaced, hiff, hall⟩ :=
    forEach_placed clients (Placed.start hchildren htidy hnext) hdistinct
  refine ⟨past, _, done, rest, hplaced, ?_⟩
  simp only
  cases hcompleted : (forEach clients ⟨page', existingRows page'.children, none⟩).2 with
  | true =>
    rw [hcompleted] at hiff hall
    refine ⟨hiff, hall, ?_⟩
    rw [if_pos rfl, if_pos rfl, ← remove_entries hplaced.tidy, ← hplaced.children,
      ← hplaced.existing]
  | false =>
    rw [hcompleted] at hiff hall
    refine ⟨hiff, hall, ?_⟩
    rw [if_neg Bool.false_ne_true, if_neg Bool.false_ne_true, ← hplaced.children]

/-- The table body is the list of clients: a row for each, in order, with the client's numbers; the
rows that were there are used again, and the others are new elements. -/
structure Reconciled (before after : Page) (clients : List ClientInfo) : Prop where
  ids : (rowsOf after.children).map Row.id = clients.map (·.clientId)
  only : clients ≠ [] → after.children = (rowsOf after.children).map .row
  reused : ∀ r ∈ rowsOf before.children, r.id ∈ clients.map (·.clientId) →
    r ∈ rowsOf after.children
  built : ∀ r ∈ rowsOf after.children, r ∈ rowsOf before.children ∨ before.nextNode ≤ r.node
  shown : ∀ r ∈ rowsOf after.children, ∃ c ∈ clients, c.clientId = r.id ∧
    after.shown r.node = some c

theorem valid_initial : Page.initial.Valid := .inl ⟨by decide, rfl⟩

/-- A refresh leaves a table as it should be between refreshes, also one that is cut short. -/
theorem valid_updateTable {page : Page} (hvalid : page.Valid) {clients : List ClientInfo}
    (hdistinct : (clients.map (·.clientId)).Nodup) : (updateTable page clients).1.Valid := by
  by_cases hne : clients = []
  · rw [updateTable, if_pos hne]
    exact .inl ⟨List.mem_cons_self, rfl⟩
  · obtain ⟨past, l, done, rest, hplaced, -, -, heq⟩ := updateTable_placed hvalid hne hdistinct
    rw [heq]
    refine .inr ⟨_, rfl, hplaced.tidy.sublist ?_⟩
    split
    · exact List.filter_sublist.append_left done
    · exact .refl _

theorem valid_refresh {page : Page} (hvalid : page.Valid) (fetched : Fetched)
    (hdistinct : ∀ clients, fetched = .clients clients → (clients.map (·.clientId)).Nodup) :
    (refresh page fetched).Valid := by
  cases fetched with
  | clients clients => exact valid_updateTable hvalid (hdistinct clients rfl)
  | unauthorized => exact hvalid
  | failed => exact hvalid

/-- Every page that earlier refreshes have left is valid. -/
theorem valid_foldl (fetches : List Fetched) : ∀ {page : Page}, page.Valid →
    (∀ clients, .clients clients ∈ fetches → (clients.map (·.clientId)).Nodup) →
    (fetches.foldl refresh page).Valid := by
  induction fetches with
  | nil => exact fun hvalid _ ↦ hvalid
  | cons fetched fetches ih =>
    intro page hvalid hdistinct
    rw [List.foldl_cons]
    refine ih (valid_refresh hvalid fetched fun clients heq ↦ hdistinct clients ?_)
      fun clients hmem ↦ hdistinct clients (List.mem_cons_of_mem _ hmem)
    exact heq ▸ List.mem_cons_self

/-- A table without rows of the empty id, and clients without inherited keys: the refresh is
right. -/
theorem reconciled_of_own {page : Page} (hvalid : page.Valid) {clients : List ClientInfo}
    (hne : clients ≠ []) (hdistinct : (clients.map (·.clientId)).Nodup)
    (hown : ∀ c ∈ clients, c.clientId ∉ inheritedKeys)
    (hnamed : ∀ r ∈ rowsOf page.children, r.id ≠ "") :
    Reconciled page (refresh page (.clients clients)) clients := by
  obtain ⟨past, l, done, rest, hplaced, hiff, hall, heq⟩ :=
    updateTable_placed hvalid hne hdistinct
  have hcompleted := hiff.mpr hown
  obtain rfl := hall hcompleted
  have hnone : rest.filter (fun r ↦ r.id = "") = [] := by
    rw [List.filter_eq_nil_iff]
    intro r hr
    rw [decide_eq_true_eq]
    exact hnamed r (hplaced.sublist.subset hr)
  rw [hcompleted, if_pos rfl, hnone, List.append_nil] at heq
  rw [refresh, heq]
  exact {
    ids := by rw [rowsOf_map_row, hplaced.ids]
    only := fun _ ↦ by rw [rowsOf_map_row]
    reused := fun r hr hid ↦ by
      rw [rowsOf_map_row]
      rcases hplaced.split r hr with hdone | hrest
      · exact hdone
      · -- a row that is left would share its id with the row of its client
        rw [← hplaced.ids] at hid
        obtain ⟨r', hr', hid'⟩ := List.mem_map.mp hid
        have hsame := hplaced.tidy.eq_of_id (List.mem_append_left _ hr')
          (List.mem_append_right _ hrest) hid' (hid' ▸ hnamed r hr)
        exact hsame ▸ hr'
    built := fun r hr ↦ by
      rw [rowsOf_map_row] at hr
      exact (hplaced.origin r hr).imp_left And.left
    shown := fun r hr ↦ by
      rw [rowsOf_map_row] at hr
      exact hplaced.shown r hr }

/-- A refresh that leaves the right ids has met no inherited key, and no row of the empty id. -/
theorem own_of_ids {page : Page} (hvalid : page.Valid) {clients : List ClientInfo}
    (hne : clients ≠ []) (hdistinct : (clients.map (·.clientId)).Nodup)
    (hids : (rowsOf (refresh page (.clients clients)).children).map Row.id =
      clients.map (·.clientId)) :
    (∀ c ∈ clients, c.clientId ∉ inheritedKeys) ∧ ∀ r ∈ rowsOf page.children, r.id ≠ "" := by
  obtain ⟨past, l, done, rest, hplaced, hiff, hall, heq⟩ :=
    updateTable_placed hvalid hne hdistinct
  rw [refresh, heq, rowsOf_map_row] at hids
  have hown : ∀ c ∈ clients, c.clientId ∉ inheritedKeys := by
    intro c hc
    have hmem : c.clientId ∈ clients.map (·.clientId) := List.mem_map_of_mem hc
    rw [← hids] at hmem
    obtain ⟨r, hr, hid⟩ := List.mem_map.mp hmem
    rw [← hid]
    refine hplaced.tidy.own r ?_
    split at hr
    · exact (List.filter_sublist.append_left done).subset hr
    · exact hr
  have hcompleted := hiff.mpr hown
  obtain rfl := hall hcompleted
  rw [hcompleted, if_pos rfl, List.map_append, hplaced.ids, List.append_right_eq_self,
    List.map_eq_nil_iff, List.filter_eq_nil_iff] at hids
  refine ⟨hown, fun r hr hempty ↦ ?_⟩
  rcases hplaced.split r hr with hdone | hrest
  · rcases hplaced.origin r hdone with ⟨-, hne⟩ | hnew
    · exact hne hempty
    · -- an element of the old table is not a new one
      rcases hvalid with ⟨-, hnone⟩ | ⟨rows, hrows, htidy⟩
      · exact absurd (hnone ▸ hr) List.not_mem_nil
      · rw [hrows, rowsOf_map_row] at hr
        exact absurd (htidy.built r hr) (Nat.not_lt.mpr hnew)
  · exact hids r hrest (by simpa using hempty)

/-- **When a refresh is right.** On every page that earlier refreshes have left, a refresh with a
list of clients of distinct ids brings the table in line with it iff the list is empty, or no id of
it is a key that every object inherits and no row of the table has the empty id. -/
theorem refresh_reconciled_iff (fetches : List Fetched)
    (hfetches : ∀ clients, .clients clients ∈ fetches → (clients.map (·.clientId)).Nodup)
    (clients : List ClientInfo) (hdistinct : (clients.map (·.clientId)).Nodup) :
    Reconciled (fetches.foldl refresh .initial)
        (refresh (fetches.foldl refresh .initial) (.clients clients)) clients ↔
      clients = [] ∨ (∀ c ∈ clients, c.clientId ∉ inheritedKeys) ∧
        ∀ r ∈ rowsOf (fetches.foldl refresh .initial).children, r.id ≠ "" := by
  have hvalid := valid_foldl fetches valid_initial hfetches
  by_cases hne : clients = []
  · subst hne
    refine iff_of_true ⟨rfl, fun h ↦ absurd rfl h, ?_, ?_, ?_⟩ (.inl rfl)
    · exact fun r _ hid ↦ absurd hid List.not_mem_nil
    · exact fun r hr ↦ absurd hr List.not_mem_nil
    · exact fun r hr ↦ absurd hr List.not_mem_nil
  · rw [or_iff_right hne]
    exact ⟨fun h ↦ own_of_ids hvalid hne hdistinct h.ids,
      fun h ↦ reconciled_of_own hvalid hne hdistinct h.1 h.2⟩

/-- A healthy client without traffic. -/
def idle (clientId : String) : ClientInfo := ⟨clientId, 0, 0, 0, 0, 0, true⟩

theorem refresh_reconciled_iff_moved :
    Reconciled (refresh .initial (.clients [idle "a", idle "b"]))
      (refresh (refresh .initial (.clients [idle "a", idle "b"]))
        (.clients [idle "c", idle "b"])) [idle "c", idle "b"] := by
  refine (refresh_reconciled_iff [.clients [idle "a", idle "b"]] (fun clients hmem ↦ ?_)
    [idle "c", idle "b"] (by decide)).mpr (.inr ⟨by decide, by decide +kernel⟩)
  obtain rfl := Fetched.clients.inj (List.mem_singleton.mp hmem)
  decide

/-- A client named `constructor` gets no row, although the registry takes it. -/
theorem refresh_not_reconciled :
    ¬ ∀ fetches : List Fetched,
      (∀ clients, .clients clients ∈ fetches → (clients.map (·.clientId)).Nodup) →
      ∀ clients : List ClientInfo, (clients.map (·.clientId)).Nodup →
        (∀ c ∈ clients, Registry.checkId c.clientId = .ok ()) →
        Reconciled (fetches.foldl refresh .initial)
          (refresh (fetches.foldl refresh .initial) (.clients clients)) clients := by
  intro h
  have hids := (h [] (fun _ hmem ↦ absurd hmem List.not_mem_nil) [idle "constructor"] (by decide)
    (by decide)).ids
  exact absurd hids (by decide +kernel)

end ClientsTable

end ZoTunnel
