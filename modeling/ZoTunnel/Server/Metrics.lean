import Mathlib.Logic.Function.Basic
import Mathlib.Data.Nat.Notation

/-!
# Metrics and rate limiting

The server's counters are 64-bit and wrap. The rate limiter keeps, for each key, the start of a
window and the number of requests in it; a check is one operation on the key's entry.
-/

namespace ZoTunnel

/-- Server-wide metrics. -/
structure Metrics where
  totalRequests : UInt64 := 0
  totalBytesIn : UInt64 := 0
  totalBytesOut : UInt64 := 0
  activeConnections : UInt64 := 0
  totalConnections : UInt64 := 0
  failedAuth : UInt64 := 0
  rateLimited : UInt64 := 0
  deriving DecidableEq, Repr

/-- Per-key rate limiter. Times are in nanoseconds. -/
structure RateLimiter where
  maxPerSecond : UInt32
  counters : String → Option (ℕ × UInt32) := fun _ ↦ none

namespace RateLimiter

/-- One second. -/
def window : ℕ := 1000000000

/-- Whether the request is allowed, and the limiter after the check. -/
def check (rl : RateLimiter) (key : String) (now : ℕ) : Bool × RateLimiter :=
  if rl.maxPerSecond = 0 then (true, rl)
  else
    let (windowStart, count) := (rl.counters key).getD (now, 0)
    let entry (v : ℕ × UInt32) : RateLimiter :=
      { rl with counters := Function.update rl.counters key (some v) }
    if now - windowStart ≥ window then (true, entry (now, 1))
    else if count < rl.maxPerSecond then (true, entry (windowStart, count + 1))
    else (false, entry (windowStart, count))

end RateLimiter

end ZoTunnel
