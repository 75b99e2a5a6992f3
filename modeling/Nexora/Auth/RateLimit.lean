import Nexora.Std.Table
import Nexora.Data.Members

/-!
# The identity rate limit

Checks of identities by any number of API processes, each of them one atomic script on a shared
counter that Redis drops when its time to live ends. Times are milliseconds. How `TTL` rounds
what is left to seconds is the server's, and an arbitrary function here.
-/

namespace Nexora.Auth

open Nexora.Std Json

/-- A counter in Redis, and when it is dropped. -/
structure Counter where
  count : Nat
  expiresAt : Option Nat
  deriving DecidableEq

/-- The counter is still there. -/
def Counter.isLive (counter : Counter) (now : Nat) : Bool := counter.expiresAt.all (now < ·)

/-- What the limiter uses of its libraries: the digest of a text, and the seconds `TTL` reports
for the milliseconds a key has left. -/
structure LimitLibrary where
  sha256Hex : PyStr → PyStr
  ttlSeconds : Nat → Nat

/-- `IdentityRateLimiter`. -/
structure IdentityRateLimiter where
  limit : Nat
  windowSeconds : Nat

/-- `RateLimitDecision`. -/
structure RateLimitDecision where
  allowed : Bool
  remaining : Nat
  retryAfterSeconds : Nat
  deriving DecidableEq

/-- How a call of Redis goes: it is answered, it takes effect but its answer is lost, or it does
not reach the server. -/
inductive Connection where
  | answers
  | losesAnswer
  | fails
  deriving DecidableEq

/-- A check of an identity at a time. -/
structure Check where
  time : Nat
  issuer : PyStr
  subject : PyStr
  connection : Connection
  deriving DecidableEq

/-- What a check comes to. -/
inductive Outcome where
  | decided (decision : RateLimitDecision)
  | unavailable
  | raised
  deriving DecidableEq

/-- `EXPIRE`. -/
def Counter.expire (counter : Counter) (windowSeconds now : Nat) : Counter :=
  { counter with expiresAt := some (now + windowSeconds * 1000) }

/-- `INCR`; a key that has been dropped starts again without a time to live. -/
def increment (now : Nat) (stored : Option Counter) : Counter :=
  match stored.filter (·.isLive now) with
  | none => ⟨1, none⟩
  | some counter => { counter with count := counter.count + 1 }

/-- `_RATE_LIMIT_SCRIPT`: the counter afterwards, and the count and time to live it returns. -/
def rateLimitScript (library : LimitLibrary) (windowSeconds now : Nat) (stored : Option Counter) :
    Counter × Nat × Nat :=
  let incremented := increment now stored
  let started :=
    if incremented.count = 1 then incremented.expire windowSeconds now else incremented
  match started.expiresAt with
  | some expiresAt => (started, started.count, library.ttlSeconds (expiresAt - now))
  | none => (started.expire windowSeconds now, started.count, windowSeconds)

/-- `identity_key`; a text with an unpaired surrogate cannot be encoded. -/
def identityKey (library : LimitLibrary) (issuer subject : PyStr) : Option PyStr :=
  let identity := issuer ++ 0 :: subject
  if identity.any isSurrogate then none
  else some (py "nexora:rate-limit:identity:v1:" ++ library.sha256Hex identity)

namespace IdentityRateLimiter

variable (limiter : IdentityRateLimiter) (library : LimitLibrary)

/-- The decision on what the script returned. -/
def decision (count ttl : Nat) : RateLimitDecision where
  allowed := count ≤ limiter.limit
  remaining := limiter.limit - count
  retryAfterSeconds := max 1 ttl

/-- `check`. -/
def check (keys : Table PyStr Counter) (check : Check) : Table PyStr Counter × Outcome :=
  if limiter.limit = 0 then (keys, .decided ⟨true, 0, 0⟩)
  else
    match identityKey library check.issuer check.subject with
    | none => (keys, .raised)
    | some key =>
      let script := rateLimitScript library limiter.windowSeconds check.time (keys.find? key)
      match check.connection with
      | .answers => (keys.put key script.1, .decided (limiter.decision script.2.1 script.2.2))
      | .losesAnswer => (keys.put key script.1, .unavailable)
      | .fails => (keys, .unavailable)

/-- A check with the keys it found and left. -/
structure Turn where
  before : Table PyStr Counter
  check : Check
  after : Table PyStr Counter
  outcome : Outcome

end IdentityRateLimiter

end Nexora.Auth
