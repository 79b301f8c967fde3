import Mathlib.Data.List.AList
import ZoTunnel.Server.Config
import ZoTunnel.Server.Driver

/-!
# The client registry

A map from client ids to sessions, and the counter that numbers them. `register` is not one atomic
step: the id check, the `fetch_add` on the counter and the map operation can be interleaved with
other tasks. The three parts are therefore definitions of their own, and `register` composes them.

The map operation is one step. Its entry guard is held while the handle of the replaced session is
aborted, so the operation hands that handle out as its result.
-/

namespace ZoTunnel

/-- A control connection, and with it the driver that its handle controls. -/
abbrev ConnId := ℕ

/-- Handle to a connected client's yamux session. The time of the last activity and the count of
missed heartbeats are shared with the driver and live there. -/
structure ClientEntry where
  clientId : String
  sessionId : UInt64
  handle : ConnId
  supportsHeartbeat : Bool
  deriving DecidableEq, Repr

/-- Whether a session still looks healthy. `driver` is the one that the entry's handle controls;
`lastActivity` is what the lock gives, `none` when it is poisoned. -/
def ClientEntry.isAlive (e : ClientEntry) (driver : Driver) (lastActivity : Option ℕ) (now : ℕ) :
    Bool :=
  if driver.isClosed then false
  else if e.supportsHeartbeat && decide (takeoverAfterMissedHeartbeats ≤ driver.missedHeartbeats)
  then false
  else
    match lastActivity with
    | some ts => decide (now - ts < sessionStaleSecs)
    | none => false

/-- The registry. -/
structure Registry where
  clients : AList fun _ : String ↦ ClientEntry
  nextSession : UInt64

namespace Registry

def new : Registry where
  clients := ∅
  nextSession := 1

/-- `register` refuses a reserved id, with this text. -/
def checkId (clientId : String) : Except String Unit :=
  if clientId ∈ reservedSubdomains then
    .error ("Client ID '" ++ clientId ++ "' is reserved (conflicts with system subdomain)")
  else .ok ()

/-- `next_session.fetch_add(1)`. -/
def fetchSession (r : Registry) : UInt64 × Registry :=
  (r.nextSession, { r with nextSession := r.nextSession + 1 })

/-- The map operation of `register`: the new entry always takes the slot. The result is the handle
of the session it replaced, which is aborted under the same guard. -/
def insertEntry (r : Registry) (e : ClientEntry) : Registry × Option ConnId :=
  match r.clients.lookup e.clientId with
  | some old => ({ r with clients := r.clients.insert e.clientId e }, some old.handle)
  | none => ({ r with clients := r.clients.insert e.clientId e }, none)

/-- Register a client. The same id always replaces the previous session. The result is the entry
and the handle to abort; the call says `replaced` when there is one. -/
def register (r : Registry) (clientId : String) (handle : ConnId) (supportsHeartbeat : Bool) :
    Except String (Registry × ClientEntry × Option ConnId) :=
  match checkId clientId with
  | .error e => .error e
  | .ok () =>
    let (sessionId, r) := r.fetchSession
    let entry : ClientEntry := { clientId, sessionId, handle, supportsHeartbeat }
    let (r, replaced) := r.insertEntry entry
    .ok (r, entry, replaced)

/-- Unregister a session; nothing happens when a newer one has the slot. -/
def unregister (r : Registry) (clientId : String) (sessionId : UInt64) : Registry × Bool :=
  match r.clients.lookup clientId with
  | some e =>
    if e.sessionId = sessionId then ({ r with clients := r.clients.erase clientId }, true)
    else (r, false)
  | none => (r, false)

def get (r : Registry) (clientId : String) : Option ClientEntry := r.clients.lookup clientId

/-- The ids that `list` reports. -/
def ids (r : Registry) : List String := r.clients.keys

variable (r : Registry) (e : ClientEntry) (k : String) (sessionId : UInt64)

@[simp] theorem get_new : new.get k = none := rfl

@[simp] theorem get_fetchSession : r.fetchSession.2.get k = r.get k := rfl

theorem checkId_eq_ok : checkId k = .ok () ↔ k ∉ reservedSubdomains := by
  rw [checkId]
  split <;> simp [*]

theorem insertEntry_fst :
    (r.insertEntry e).1 = { r with clients := r.clients.insert e.clientId e } := by
  rw [insertEntry]
  split <;> rfl

theorem insertEntry_snd : (r.insertEntry e).2 = (r.get e.clientId).map (·.handle) := by
  rw [insertEntry, get]
  split <;> simp [*]

@[simp] theorem get_insertEntry :
    (r.insertEntry e).1.get k = if k = e.clientId then some e else r.get k := by
  rw [insertEntry_fst, get]
  split
  · rename_i hk
    rw [hk]
    exact AList.lookup_insert _
  · rename_i hk
    exact AList.lookup_insert_ne hk

theorem unregister_snd :
    (r.unregister k sessionId).2 = true ↔ ∃ e, r.get k = some e ∧ e.sessionId = sessionId := by
  rw [unregister, get]
  split
  · rename_i e he
    by_cases hs : e.sessionId = sessionId <;> simp [he, hs]
  · rename_i he
    simp [he]

/-- Unregistering empties the slot of the session, and touches no other slot. -/
theorem get_unregister (k' : String) :
    (r.unregister k sessionId).1.get k' =
      if k' = k ∧ (r.unregister k sessionId).2 = true then none else r.get k' := by
  have hcases : (r.unregister k sessionId) =
      ({ r with clients := r.clients.erase k }, true) ∨ r.unregister k sessionId = (r, false) := by
    rw [unregister]
    split
    · split
      · exact .inl rfl
      · exact .inr rfl
    · exact .inr rfl
  rcases hcases with h | h <;> rw [h]
  · by_cases hk : k' = k
    · subst hk
      simp [get]
    · simp [get, hk, AList.lookup_erase_ne hk]
  · simp

@[simp] theorem nextSession_insertEntry : (r.insertEntry e).1.nextSession = r.nextSession := by
  rw [insertEntry_fst]

@[simp] theorem nextSession_unregister :
    (r.unregister k sessionId).1.nextSession = r.nextSession := by
  rw [unregister]
  split
  · split <;> rfl
  · rfl

end Registry

end ZoTunnel
