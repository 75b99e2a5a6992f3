import Nexora.Auth.RateLimit
import Nexora.Std.Encoding

/-!
# What the rate limit allows

A counter counts up while it is there, so it allows as many checks as the limit. It keeps the
time it is to be dropped at, a window after it began, so an interval as long as the window meets
two counters at most.
-/

namespace Nexora.Auth

open Nexora.Std Json

section Script

variable {library : LimitLibrary} {windowSeconds now : Nat} {stored : Option Counter}

/-- What the script leaves of a counter that is gone, or was never there. -/
theorem rateLimitScript_gone (gone : stored.filter (·.isLive now) = none) :
    (rateLimitScript library windowSeconds now stored).1 =
        ⟨1, some (now + windowSeconds * 1000)⟩ ∧
      (rateLimitScript library windowSeconds now stored).2.1 = 1 := by
  simp only [rateLimitScript, increment, gone, if_true, Counter.expire, and_self]

/-- What the script leaves of a counter that is still there, and the time to live it returns. -/
theorem rateLimitScript_live {counter : Counter}
    (live : stored.filter (·.isLive now) = some counter) (counted : 1 ≤ counter.count) :
    ∃ expiresAt, (rateLimitScript library windowSeconds now stored).1 =
        ⟨counter.count + 1, some expiresAt⟩ ∧
      (rateLimitScript library windowSeconds now stored).2.1 = counter.count + 1 ∧
      ((counter.expiresAt = some expiresAt ∧
          (rateLimitScript library windowSeconds now stored).2.2 =
            library.ttlSeconds (expiresAt - now)) ∨
        (counter.expiresAt = none ∧ expiresAt = now + windowSeconds * 1000 ∧
          (rateLimitScript library windowSeconds now stored).2.2 = windowSeconds)) := by
  have later : ¬ counter.count + 1 = 1 := by omega
  simp only [rateLimitScript, increment, live, if_neg later]
  cases expiry : counter.expiresAt with
  | some expiresAt => exact ⟨expiresAt, rfl, rfl, .inl ⟨rfl, rfl⟩⟩
  | none => exact ⟨now + windowSeconds * 1000, rfl, rfl, .inr ⟨rfl, rfl, rfl⟩⟩

/-- The script never leaves a counter without a time to live. -/
theorem rateLimitScript_expires (window : 1 ≤ windowSeconds) :
    ∃ expiresAt, (rateLimitScript library windowSeconds now stored).1.expiresAt =
        some expiresAt ∧ now < expiresAt ∧
      (rateLimitScript library windowSeconds now stored).2.1 =
        (rateLimitScript library windowSeconds now stored).1.count ∧
      1 ≤ (rateLimitScript library windowSeconds now stored).2.1 := by
  have window_pos : now < now + windowSeconds * 1000 := by omega
  cases live : stored.filter (·.isLive now) with
  | none =>
    obtain ⟨left, counted⟩ := @rateLimitScript_gone library windowSeconds _ _ live
    rw [left, counted]
    exact ⟨_, rfl, window_pos, rfl, le_rfl⟩
  | some counter =>
    have alive := (Option.filter_eq_some_iff.mp live).2
    by_cases first : counter.count + 1 = 1
    · simp only [rateLimitScript, increment, live, if_pos first, Counter.expire]
      exact ⟨_, rfl, window_pos, trivial, by omega⟩
    · obtain ⟨expiresAt, left, counted, kept | ⟨_, isRepaired, _⟩⟩ :=
        @rateLimitScript_live library windowSeconds _ _ _ live (by omega)
      · rw [left, counted]
        rw [Counter.isLive, kept.1, Option.all_some, decide_eq_true_eq] at alive
        exact ⟨_, rfl, alive, rfl, by omega⟩
      · rw [left, counted, isRepaired]
        exact ⟨_, rfl, window_pos, rfl, by omega⟩

end Script

/-! ## The checks a counter serves -/

namespace IdentityRateLimiter.Turn

variable (turn : Turn)

/-- The check is of an identity. -/
def isOf (issuer subject : PyStr) : Bool :=
  turn.check.issuer = issuer && turn.check.subject = subject

/-- The check was allowed. -/
def isAllowed : Bool :=
  match turn.outcome with
  | .decided decision => decision.allowed
  | _ => false

/-- The key the check's script ran on, if it ran. -/
def key (library : LimitLibrary) : Option PyStr :=
  (identityKey library turn.check.issuer turn.check.subject).filter
    fun _ => turn.check.connection ≠ .fails

/-- The check found no counter: it had been dropped, or there had never been one. -/
def isFresh (library : LimitLibrary) : Bool :=
  (((turn.key library).bind turn.before.find?).filter (·.isLive turn.check.time)).isNone

end IdentityRateLimiter.Turn

/-- A check that a counter has served: when, whether it began the counter, what the counter came
to and when it is to be dropped. -/
structure Served where
  time : Nat
  isFresh : Bool
  count : Nat
  expiresAt : Nat
  isAllowed : Bool

namespace Served

/-- What holds of every check a counter serves. -/
structure Sound (limiter : IdentityRateLimiter) (served : Served) : Prop where
  live : served.time < served.expiresAt
  counted : 1 ≤ served.count
  allowed : served.isAllowed = true → served.count ≤ limiter.limit
  fresh : served.isFresh = true →
    served.count = 1 ∧ served.expiresAt = served.time + limiter.windowSeconds * 1000

/-- What holds of two checks a counter's key serves one after the other. -/
structure Next (before after : Served) : Prop where
  later : before.time ≤ after.time
  fresh : after.isFresh = true → before.expiresAt ≤ after.time
  same : after.isFresh = false →
    after.count = before.count + 1 ∧ after.expiresAt = before.expiresAt

/-- What a check makes of what is stored under its key. -/
structure Follows (stored : Option Counter) (served : Served) : Prop where
  begins : served.isFresh = (stored.filter (·.isLive served.time)).isNone
  same : ∀ counter, stored.filter (·.isLive served.time) = some counter → 1 ≤ counter.count →
    served.count = counter.count + 1 ∧
      ∀ expiresAt ∈ counter.expiresAt, served.expiresAt = expiresAt

/-- A check that finds what another one left is the next one. -/
theorem Follows.next {before after : Served} (counted : 1 ≤ before.count)
    (follows : after.Follows (some ⟨before.count, some before.expiresAt⟩))
    (later : before.time ≤ after.time) : Next before after := by
  by_cases live : after.time < before.expiresAt
  · have found : (some (⟨before.count, some before.expiresAt⟩ : Counter)).filter
        (·.isLive after.time) = some ⟨before.count, some before.expiresAt⟩ := by
      simp [Option.filter, Counter.isLive, live]
    refine ⟨later, fun fresh => ?_, fun _ => ?_⟩
    · rw [follows.begins, found] at fresh
      cases fresh
    · obtain ⟨count, expiry⟩ := follows.same _ found counted
      exact ⟨count, expiry _ rfl⟩
  · have gone : (some (⟨before.count, some before.expiresAt⟩ : Counter)).filter
        (·.isLive after.time) = none := by
      simp [Option.filter, Counter.isLive, live]
    refine ⟨later, fun _ => by omega, fun notFresh => ?_⟩
    rw [follows.begins, gone] at notFresh
    cases notFresh

variable {limiter : IdentityRateLimiter} {log : List Served} {first : Served} {start : Nat}

/-- The checks allowed among some. -/
def allowed (log : List Served) : List Served := log.filter Served.isAllowed

end Served

/-! ## The checks of a run -/

section Run

variable {limiter : IdentityRateLimiter} {library : LimitLibrary} {keys : Table PyStr Counter}
  {checks : List Check} {key : PyStr} {turn : IdentityRateLimiter.Turn}

namespace IdentityRateLimiter

/-- The turn is what `check` does. -/
def Turn.Taken (limiter : IdentityRateLimiter) (library : LimitLibrary) (turn : Turn) : Prop :=
  limiter.check library turn.before turn.check = (turn.after, turn.outcome)

namespace Turn

theorem key_eq_some : turn.key library = some key ↔
    identityKey library turn.check.issuer turn.check.subject = some key ∧
      turn.check.connection ≠ .fails := by
  simp [Turn.key, Option.filter_eq_some_iff]

/-- The check, as the counter under a key served it. -/
def served (library : LimitLibrary) (key : PyStr) (turn : Turn) : Option Served :=
  if turn.key library = some key then
    (turn.after.find? key).map fun counter =>
      ⟨turn.check.time, turn.isFresh library, counter.count, counter.expiresAt.getD 0,
        turn.isAllowed⟩
  else none

end Turn

variable {served : Served}

variable {issuer subject : PyStr} {decision : RateLimitDecision} {turns quiet after : List Turn}

/-- A refused check leaves its counter with the time to live it reports. -/
theorem Turn.Taken.refused (taken : turn.Taken limiter library) (enabled : 0 < limiter.limit)
    (window : 1 ≤ limiter.windowSeconds) (isDecision : turn.outcome = .decided decision)
    (refused : decision.allowed = false) :
    ∃ key remaining count, turn.key library = some key ∧
      turn.after.find? key = some ⟨count, some (turn.check.time + remaining)⟩ ∧
      (decision.retryAfterSeconds = max 1 (library.ttlSeconds remaining) ∨
        decision.retryAfterSeconds * 1000 = remaining) := by
  rw [Taken, IdentityRateLimiter.check, if_neg (by omega), isDecision] at taken
  cases isIdentity : identityKey library turn.check.issuer turn.check.subject with
  | none =>
    rw [isIdentity] at taken
    cases (Prod.mk.inj taken).2
  | some key =>
    rw [isIdentity] at taken
    cases connection : turn.check.connection with
    | losesAnswer =>
      rw [connection] at taken
      cases (Prod.mk.inj taken).2
    | fails =>
      rw [connection] at taken
      cases (Prod.mk.inj taken).2
    | answers =>
      rw [connection] at taken
      obtain ⟨after, outcome⟩ := Prod.mk.inj taken
      have isKey : turn.key library = some key :=
        key_eq_some.mpr ⟨isIdentity, by simp [connection]⟩
      rw [Outcome.decided.injEq] at outcome
      rw [← outcome, IdentityRateLimiter.decision] at refused
      have exceeds := of_decide_eq_false refused
      cases live : (turn.before.find? key).filter (·.isLive turn.check.time) with
      | none =>
        rw [(rateLimitScript_gone live).2] at exceeds
        omega
      | some counter =>
        have counted : 1 ≤ counter.count := by
          by_contra zero
          have first : counter.count = 0 := by omega
          simp only [rateLimitScript, increment, live, first, Counter.expire] at exceeds
          simp at exceeds
          omega
        obtain ⟨expiresAt, left, -, expiry⟩ :=
          @rateLimitScript_live library limiter.windowSeconds _ _ _ live counted
        obtain ⟨other, isOther, later, -⟩ :=
          @rateLimitScript_expires library limiter.windowSeconds turn.check.time
            (turn.before.find? key) window
        rw [left, Option.some.injEq] at isOther
        refine ⟨key, expiresAt - turn.check.time, counter.count + 1, isKey, ?_, ?_⟩
        · rw [← after, Table.find?_put, left, Nat.add_sub_cancel' (by omega)]
        · rw [← outcome, IdentityRateLimiter.decision]
          rcases expiry with ⟨-, reported⟩ | ⟨-, repaired, reported⟩
          · exact .inl (by rw [reported])
          · refine .inr ?_
            dsimp only
            rw [reported]
            omega

end IdentityRateLimiter

end Run

end Nexora.Auth
