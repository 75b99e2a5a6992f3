import Nexora.Auth.OidcKeys

/-!
# What a resolver returns, and how often it asks

A key that is returned is of the latest set that was accepted, and that set is not old. A set is
replaced by another one and by nothing else. Requests for a set, while the earlier one can still be
served, keep a distance from every request before them, as long as each of them is answered with a
set that is accepted.
-/

namespace Nexora.Auth

open Nexora.Std

variable {Key : Type} {next : KeySystem Key} {step : KeyStep} {now : ℚ}

/-- The set that was accepted last, and when. -/
def latest : List (KeyEvent Key) → Option (Table PyStr Key × ℚ)
  | [] => none
  | .accepted keys now :: _ => some (keys, now)
  | _ :: earlier => latest earlier

/-- Every key that was returned is of the set accepted last, which is not older than allowed. -/
def ServesFresh (cacheSeconds : Nat) (log : List (KeyEvent Key)) : Prop :=
  ∀ kid key now earlier, (.returned kid key now :: earlier) <:+ log →
    ∃ keys since, latest earlier = some (keys, since) ∧ keys.find? kid = some key ∧
      now - since < cacheSeconds

/-- A set that is requested while the earlier one can be served is requested a while after every
request before. -/
def Spaced (minRefreshSeconds : Nat) (log : List (KeyEvent Key)) : Prop :=
  ∀ (now : ℚ) (earlier : List (KeyEvent Key)), (.requested now true :: earlier) <:+ log →
    ∀ before served, .requested before served ∈ earlier → minRefreshSeconds ≤ now - before

/-- The set a step accepts. -/
def acceptedSet (library : KeyLibrary Key) : KeyStep → Option (Table PyStr Key)
  | .fetched answer _ => (jwks library answer).toOption
  | _ => none

/-- A refresh that began while the earlier set could be served ends with a set that is accepted. -/
def ForcedAccepted (library : KeyLibrary Key) (transition : Transition (KeySystem Key) KeyStep) :
    Prop :=
  transition.before.refreshing.any Refreshing.served = true →
    transition.after.refreshing.isNone = true → (acceptedSet library transition.label).isSome = true

/-- The resolver holds the set accepted last. -/
structure Held (settings : OidcSettings) (system : KeySystem Key) : Prop where
  set : ∀ keys since, latest system.log = some (keys, since) →
    system.resolver.keys = keys ∧ system.resolver.fetchedAt = since ∧
      system.resolver.expiresAt = since + settings.authJwksCacheSeconds
  empty : latest system.log = none → system.resolver.keys = .empty
  fresh : ServesFresh settings.authJwksCacheSeconds system.log

/-- What happened adds up to the distances between requests. -/
structure Paced (settings : OidcSettings) (system : KeySystem Key) : Prop where
  past : ∀ before served, .requested before served ∈ system.log → before ≤ system.clock
  /-- A request is settled by the set that came of it or by the end of the earlier set, or it is
  being answered. -/
  settled : ∀ before served, .requested before served ∈ system.log →
    before ≤ system.resolver.fetchedAt ∨ system.resolver.expiresAt ≤ before ∨
      system.resolver.keys.entries = [] ∨ system.refreshing.any Refreshing.served = true
  unserved : ∀ kid awaiting, system.refreshing = some ⟨kid, false, awaiting⟩ →
    system.resolver.keys.entries = [] ∨ system.resolver.expiresAt ≤ system.clock
  forced : ∀ kid issuer, system.refreshing = some ⟨kid, true, .discovery issuer⟩ →
    ∀ before served, .requested before served ∈ system.log →
      settings.authJwksMinRefreshSeconds ≤ system.clock - before
  spaced : Spaced settings.authJwksMinRefreshSeconds system.log

section Events

variable {cacheSeconds minRefreshSeconds : Nat} {log : List (KeyEvent Key)} {event : KeyEvent Key}

theorem ServesFresh.cons (fresh : ServesFresh cacheSeconds log)
    (own : ∀ kid key now, event = .returned kid key now →
      ∃ keys since, latest log = some (keys, since) ∧ keys.find? kid = some key ∧
        now - since < cacheSeconds) : ServesFresh cacheSeconds (event :: log) := by
  intro kid key now earlier suffix
  rcases List.suffix_cons_iff.mp suffix with same | inside
  · obtain ⟨isEvent, rfl⟩ := List.cons.inj same
    exact own kid key now isEvent.symm
  · exact fresh kid key now earlier inside

theorem Spaced.cons (spaced : Spaced minRefreshSeconds log)
    (own : ∀ now, event = .requested now true →
      ∀ before served, .requested before served ∈ log → minRefreshSeconds ≤ now - before) :
    Spaced minRefreshSeconds (event :: log) := by
  intro now earlier suffix
  rcases List.suffix_cons_iff.mp suffix with same | inside
  · obtain ⟨isEvent, rfl⟩ := List.cons.inj same
    exact own now isEvent.symm
  · exact spaced now earlier inside

end Events

section Held

variable {library : KeyLibrary Key} {settings : OidcSettings} {system : KeySystem Key}

/-- What is returned is the key of a set that is not expired. -/
theorem Held.answered (held : Held settings system) (kid : PyStr) {key : Option Key}
    (current : ∀ found, key = some found → system.resolver.keys.find? kid = some found ∧
      now < system.resolver.expiresAt) : Held settings (system.answered kid key now) := by
  cases key with
  | none => exact held
  | some key =>
    obtain ⟨found, before⟩ := current key rfl
    refine ⟨held.set, held.empty, held.fresh.cons fun _ _ _ same => ?_⟩
    obtain ⟨rfl, rfl, rfl⟩ := KeyEvent.returned.inj same
    cases isLatest : latest system.log with
    | none =>
      rw [held.empty isLatest, Table.find?_empty] at found
      cases found
    | some accepted =>
      obtain ⟨keys, since⟩ := accepted
      obtain ⟨isSet, -, expires⟩ := held.set keys since isLatest
      refine ⟨keys, since, rfl, isSet ▸ found, ?_⟩
      rw [expires] at before
      linarith

theorem current_eq_some {resolver : OidcKeyResolver Key} {kid : PyStr} {key : Key}
    (current : resolver.current kid now = some key) :
    resolver.keys.find? kid = some key ∧ now < resolver.expiresAt := by
  unfold OidcKeyResolver.current at current
  rw [Option.filter_eq_some_iff] at current
  exact ⟨current.1, by simpa using current.2⟩

theorem Held.awaits (held : Held settings system) (kid : PyStr) (served : Bool) (now : ℚ)
    (awaiting : Except KeyFault Awaiting) : Held settings (system.awaits kid served now awaiting) := by
  cases awaiting with
  | error fault => exact held
  | ok awaiting =>
    cases awaiting with
    | discovery issuer => exact ⟨held.set, held.empty, held.fresh⟩
    | jwks url =>
      refine ⟨held.set, held.empty, held.fresh.cons ?_⟩
      intro _ _ _ other
      cases other

theorem Held.enter (held : Held settings system) (kid : PyStr) (now : ℚ) :
    Held settings (system.enter library settings kid now) := by
  unfold KeySystem.enter
  split
  case h_1 key isCurrent =>
    apply held.answered
    intro found same
    exact current_eq_some (isCurrent.trans same)
  case h_2 notCurrent =>
    split
    · exact held.awaits _ _ _ _
    case isFalse fine =>
      apply held.answered
      intro found isKey
      refine ⟨isKey, ?_⟩
      by_contra expired
      exact fine (.inl (not_lt.mp expired))

/-- A set that is accepted is held, and its key is returned at once. -/
theorem Held.accepted (held : Held settings system) (keys : Table PyStr Key) (kid : PyStr)
    (now : ℚ) :
    Held settings ({ system with
      resolver := system.resolver.accept settings keys now
      refreshing := none
      log := .accepted keys now :: system.log }.answered kid (keys.find? kid) now) := by
  apply Held.answered
  · refine ⟨?_, ?_, ?_⟩
    · rintro _ _ ⟨⟩
      exact ⟨rfl, rfl, rfl⟩
    · intro absent
      cases absent
    · apply held.fresh.cons
      intro _ _ _ other
      cases other
  · intro found isKey
    refine ⟨isKey, ?_⟩
    have positive := settings.authJwksCacheSeconds_range.1
    have later : (0 : ℚ) < settings.authJwksCacheSeconds := by
      exact_mod_cast (by omega : 0 < settings.authJwksCacheSeconds)
    change now < now + settings.authJwksCacheSeconds
    linarith

theorem Held.move (held : Held settings system)
    (ok : system.move library settings step = .ok next) : Held settings next := by
  cases step with
  | call token now =>
    simp only [KeySystem.move] at ok
    split at ok
    · cases ok
      exact held
    · cases ok
      exact held.answered _ fun found isCurrent => current_eq_some isCurrent
  | enter token now =>
    simp only [KeySystem.move] at ok
    split at ok
    · cases ok
      exact held.enter _ now
    · cases ok
  | discovered answer now =>
    simp only [KeySystem.move] at ok
    split at ok
    · cases ok
      unfold KeySystem.discover
      split
      · exact ⟨held.set, held.empty, held.fresh⟩
      · apply Held.awaits
        exact ⟨held.set, held.empty, held.fresh⟩
    · cases ok
  | fetched answer now =>
    simp only [KeySystem.move] at ok
    split at ok
    · cases ok
      unfold KeySystem.fetch
      split
      · exact ⟨held.set, held.empty, held.fresh⟩
      · exact held.accepted _ _ now
    · cases ok
  | cancelled now =>
    simp only [KeySystem.move] at ok
    split at ok
    · cases ok
      exact ⟨held.set, held.empty, held.fresh⟩
    · cases ok

theorem run_eq_ok :
    system.run library settings step = .ok next ↔
      system.clock ≤ step.now ∧
        { system with clock := step.now }.move library settings step = .ok next := by
  unfold KeySystem.run
  simp only [bind_eq_ok, raiseIf_eq_ok, not_lt]
  constructor
  · rintro ⟨_, later, moved⟩
    exact ⟨later, moved⟩
  · rintro ⟨later, moved⟩
    exact ⟨⟨⟩, later, moved⟩

theorem held_of_runs {history : List (Transition (KeySystem Key) KeyStep)}
    (runs : (keyMachine library settings).Runs history system) : Held settings system := by
  apply runs.invariant (Held settings)
  · rintro _ ⟨clock, rfl⟩
    refine ⟨?_, fun _ => rfl, ?_⟩
    · intro keys since absent
      cases absent
    · intro kid key now earlier suffix
      exact absurd (List.suffix_nil.mp suffix) (List.cons_ne_nil _ _)
  · intro before step after held transition
    have moved := (run_eq_ok.mp transition).2
    have waits : Held settings { before with clock := step.now } :=
      ⟨held.set, held.empty, held.fresh⟩
    exact waits.move moved

end Held

section Paced

variable {library : KeyLibrary Key} {settings : OidcSettings} {system : KeySystem Key}

theorem Paced.waited (paced : Paced settings system) (later : system.clock ≤ now) :
    Paced settings { system with clock := now } where
  past before served member := (paced.past before served member).trans later
  settled := paced.settled
  unserved kid awaiting waits := (paced.unserved kid awaiting waits).imp_right fun expired =>
    expired.trans later
  forced kid issuer waits before served member := by
    have far := paced.forced kid issuer waits before served member
    change _ ≤ now - before
    linarith
  spaced := paced.spaced

theorem Paced.answered (paced : Paced settings system) (kid : PyStr) (key : Option Key) (now : ℚ) :
    Paced settings (system.answered kid key now) := by
  cases key with
  | none => exact paced
  | some key =>
    have inside : ∀ {before : ℚ} {served : Bool},
        .requested before served ∈ KeyEvent.returned kid key now :: system.log →
          .requested before served ∈ system.log := by
      intro before served member
      rcases List.mem_cons.mp member with same | earlier
      · cases same
      · exact earlier
    refine ⟨fun before served member => paced.past before served (inside member),
      fun before served member => paced.settled before served (inside member), paced.unserved,
      fun kid issuer waits before served member =>
        paced.forced kid issuer waits before served (inside member), paced.spaced.cons ?_⟩
    intro _ other
    cases other

/-- Every request so far is settled. -/
def Settled (system : KeySystem Key) : Prop :=
  ∀ before served, .requested before served ∈ system.log →
    before ≤ system.resolver.fetchedAt ∨ system.resolver.expiresAt ≤ before ∨
      system.resolver.keys.entries = []

theorem Paced.settled_of_unserved (paced : Paced settings system)
    (idle : ¬ system.refreshing.any Refreshing.served = true) : Settled system := by
  intro before served member
  rcases paced.settled before served member with fetched | expired | none_ | busy
  · exact .inl fetched
  · exact .inr (.inl expired)
  · exact .inr (.inr none_)
  · exact absurd busy idle

/-- The lock is given back. -/
theorem Paced.released (paced : Paced settings system) (settled : Settled system) :
    Paced settings { system with refreshing := none } where
  past := paced.past
  settled before served member := by
    rcases settled before served member with fetched | expired | none_
    · exact .inl fetched
    · exact .inr (.inl expired)
    · exact .inr (.inr (.inl none_))
  unserved _ _ waits := by cases waits
  forced _ _ waits := by cases waits
  spaced := paced.spaced

/-- A call that took the lock waits for the provider. -/
theorem Paced.awaits (paced : Paced settings system) (kid : PyStr) {served : Bool}
    (settled : served = false → Settled system)
    (forced : served = true → ∀ before earlier, .requested before earlier ∈ system.log →
      settings.authJwksMinRefreshSeconds ≤ system.clock - before)
    (unserved : served = false →
      system.resolver.keys.entries = [] ∨ system.resolver.expiresAt ≤ system.clock)
    (awaiting : Except KeyFault Awaiting) :
    Paced settings (system.awaits kid served system.clock awaiting) := by
  have open_ : ∀ before earlier, .requested before earlier ∈ system.log →
      before ≤ system.resolver.fetchedAt ∨ system.resolver.expiresAt ≤ before ∨
        system.resolver.keys.entries = [] ∨ served = true := by
    intro before earlier member
    cases served with
    | true => exact .inr (.inr (.inr rfl))
    | false =>
      rcases settled rfl before earlier member with fetched | expired | none_
      · exact .inl fetched
      · exact .inr (.inl expired)
      · exact .inr (.inr (.inl none_))
  cases awaiting with
  | error fault => exact paced
  | ok awaiting =>
    cases awaiting with
    | discovery issuer =>
      refine ⟨paced.past, open_, ?_, ?_, paced.spaced⟩
      · rintro _ _ ⟨⟩
        exact unserved rfl
      · rintro _ _ ⟨⟩
        exact forced rfl
    | jwks url =>
      refine ⟨?_, ?_, ?_, ?_, paced.spaced.cons ?_⟩
      · intro before earlier member
        rcases List.mem_cons.mp member with same | inside
        · cases same
          exact le_refl _
        · exact paced.past before earlier inside
      · intro before earlier member
        rcases List.mem_cons.mp member with same | inside
        · cases same
          cases served with
          | true => exact .inr (.inr (.inr rfl))
          | false =>
            rcases unserved rfl with none_ | expired
            · exact .inr (.inr (.inl none_))
            · exact .inr (.inl expired)
        · exact open_ before earlier inside
      · rintro _ _ ⟨⟩
        exact unserved rfl
      · rintro _ _ ⟨⟩
      · rintro _ ⟨⟩
        exact forced rfl

theorem Paced.enter (paced : Paced settings system) (idle : system.refreshing = none)
    (kid : PyStr) : Paced settings (system.enter library settings kid system.clock) := by
  have settled : Settled system := paced.settled_of_unserved (by rw [idle]; decide)
  unfold KeySystem.enter
  split
  · exact paced.answered _ _ _
  · split
    case isFalse => exact paced.answered _ _ _
    case isTrue decides =>
      apply paced.awaits kid fun _ => settled
      · intro serves before earlier member
        obtain ⟨some_, unexpired⟩ := of_decide_eq_true serves
        have past := paced.past before earlier member
        rcases decides with expired | none_ | apart
        · exact absurd unexpired (not_lt.mpr expired)
        · exact absurd none_ some_
        · rcases settled before earlier member with fetched | expired | none_
          · linarith
          · linarith
          · exact absurd none_ some_
      · intro stale
        have notServes := of_decide_eq_false stale
        unfold OidcKeyResolver.Serves at notServes
        by_cases none_ : system.resolver.keys.entries = []
        · exact .inl none_
        · exact .inr (not_lt.mp fun unexpired => notServes ⟨none_, unexpired⟩)

theorem Paced.accepted (paced : Paced settings system) (keys : Table PyStr Key) :
    Paced settings { system with
      resolver := system.resolver.accept settings keys system.clock
      refreshing := none
      log := .accepted keys system.clock :: system.log } := by
  have inside : ∀ {before : ℚ} {served : Bool},
      .requested before served ∈ KeyEvent.accepted keys system.clock :: system.log →
        .requested before served ∈ system.log := by
    intro before served member
    rcases List.mem_cons.mp member with same | earlier
    · cases same
    · exact earlier
  refine ⟨fun before served member => paced.past before served (inside member),
    fun before served member => .inl (paced.past before served (inside member)), ?_, ?_,
    paced.spaced.cons ?_⟩
  · intro _ _ waits
    cases waits
  · intro _ _ waits
    cases waits
  · intro _ other
    cases other

theorem Paced.move (paced : Paced settings system) (time : step.now = system.clock)
    (ok : system.move library settings step = .ok next)
    (forced : ForcedAccepted library ⟨system, step, next⟩) : Paced settings next := by
  have givesBack (refused : acceptedSet library step = none) (released : next.refreshing = none) :
      Settled system := by
    apply paced.settled_of_unserved
    intro busy
    have accepts := forced busy (by rw [released]; rfl)
    rw [refused] at accepts
    cases accepts
  cases step with
  | call token now =>
    simp only [KeySystem.move] at ok
    split at ok
    · cases ok
      exact paced
    · cases ok
      exact paced.answered _ _ _
  | enter token now =>
    cases time
    simp only [KeySystem.move] at ok
    split at ok
    case h_1 idle =>
      cases ok
      exact paced.enter idle _
    case h_2 => cases ok
  | discovered answer now =>
    cases time
    simp only [KeySystem.move] at ok
    split at ok
    case h_2 => cases ok
    case h_1 kid served issuer waits =>
      cases ok
      unfold KeySystem.discover at givesBack ⊢
      split
      case h_1 fault refused =>
        rw [refused] at givesBack
        exact paced.released (givesBack rfl rfl)
      case h_2 url isUrl =>
        have same : Paced settings { system with
            resolver := { system.resolver with discoveredJwksUrl := some url } } :=
          ⟨paced.past, paced.settled, paced.unserved, paced.forced, paced.spaced⟩
        apply same.awaits kid
        · rintro rfl
          apply paced.settled_of_unserved
          rw [waits]
          exact Bool.false_ne_true
        · rintro rfl
          exact paced.forced kid issuer waits
        · rintro rfl
          exact paced.unserved kid (.discovery issuer) waits
  | fetched answer now =>
    cases time
    simp only [KeySystem.move] at ok
    split at ok
    case h_2 => cases ok
    case h_1 kid served url waits =>
      cases ok
      unfold KeySystem.fetch at givesBack ⊢
      split
      case h_1 fault refused =>
        rw [refused] at givesBack
        have notAccepted : acceptedSet library (.fetched answer system.clock) = none := by
          rw [acceptedSet, refused]
          rfl
        exact paced.released (givesBack notAccepted rfl)
      case h_2 keys isSet => exact (paced.accepted keys).answered _ _ _
  | cancelled now =>
    simp only [KeySystem.move] at ok
    split at ok
    · cases ok
      exact paced.released (givesBack rfl rfl)
    · cases ok

end Paced

/-- A step keeps the set and its expiry. -/
def KeepsSet (transition : Transition (KeySystem Key) KeyStep) : Prop :=
  transition.after.resolver.keys = transition.before.resolver.keys ∧
    transition.after.resolver.expiresAt = transition.before.resolver.expiresAt

section Runs

variable {library : KeyLibrary Key} {settings : OidcSettings} {system : KeySystem Key}
  {history : List (Transition (KeySystem Key) KeyStep)}

theorem answered_resolver (kid : PyStr) (key : Option Key) (now : ℚ) :
    (system.answered kid key now).resolver = system.resolver := by
  cases key <;> rfl

theorem awaits_keeps (kid : PyStr) (served : Bool) (now : ℚ)
    (awaiting : Except KeyFault Awaiting) :
    (system.awaits kid served now awaiting).resolver = system.resolver := by
  cases awaiting with
  | error fault => rfl
  | ok awaiting => cases awaiting <;> rfl

/-- A step that accepts no set keeps the earlier one. -/
theorem keepsSet_of_move (ok : system.move library settings step = .ok next)
    (refused : acceptedSet library step = none) : KeepsSet ⟨system, step, next⟩ := by
  have same (kept : next.resolver = system.resolver) : KeepsSet ⟨system, step, next⟩ := by
    constructor
    · change next.resolver.keys = _
      rw [kept]
    · change next.resolver.expiresAt = _
      rw [kept]
  cases step with
  | call token now =>
    simp only [KeySystem.move] at ok
    split at ok
    · cases ok
      exact ⟨rfl, rfl⟩
    · cases ok
      exact same (answered_resolver _ _ _)
  | enter token now =>
    simp only [KeySystem.move] at ok
    split at ok
    · cases ok
      apply same
      unfold KeySystem.enter
      split
      · exact answered_resolver _ _ _
      · split
        · exact awaits_keeps _ _ _ _
        · exact answered_resolver _ _ _
    · cases ok
  | discovered answer now =>
    simp only [KeySystem.move] at ok
    split at ok
    · cases ok
      unfold KeepsSet KeySystem.discover
      split
      · exact ⟨rfl, rfl⟩
      · rw [awaits_keeps]
        exact ⟨rfl, rfl⟩
    · cases ok
  | fetched answer now =>
    simp only [KeySystem.move] at ok
    split at ok
    · cases ok
      unfold KeepsSet KeySystem.fetch
      split
      · exact ⟨rfl, rfl⟩
      · rename_i keys accepted
        rw [acceptedSet, accepted] at refused
        cases refused
    · cases ok
  | cancelled now =>
    simp only [KeySystem.move] at ok
    split at ok
    · cases ok
      exact ⟨rfl, rfl⟩
    · cases ok

theorem paced_of_runs (runs : (keyMachine library settings).Runs history system)
    (forced : ∀ transition ∈ history, ForcedAccepted library transition) :
    Paced settings system := by
  refine runs.invariantWhile (Paced settings) (ForcedAccepted library) ?_ ?_ forced
  · rintro _ ⟨clock, rfl⟩
    refine ⟨?_, ?_, ?_, ?_, ?_⟩
    · intro _ _ absent
      cases absent
    · intro _ _ absent
      cases absent
    · intro _ _ absent
      cases absent
    · intro _ _ absent
      cases absent
    · intro now earlier suffix
      exact absurd (List.suffix_nil.mp suffix) (List.cons_ne_nil _ _)
  · intro before step after paced transition admitted
    obtain ⟨later, moved⟩ := run_eq_ok.mp transition
    exact (paced.waited later).move rfl moved admitted

/-- A resolver returns keys of the set it accepted last, which is not older than allowed, and keeps
that set until it accepts another one. It asks for a set that it could still do without at most
once in a while, if each of these requests is answered with a set that it accepts. -/
theorem oidc_keys_resolved (runs : (keyMachine library settings).Runs history system) :
    ServesFresh settings.authJwksCacheSeconds system.log ∧
      (∀ transition ∈ history, acceptedSet library transition.label = none → KeepsSet transition) ∧
        ((∀ transition ∈ history, ForcedAccepted library transition) →
          Spaced settings.authJwksMinRefreshSeconds system.log) := by
  refine ⟨(held_of_runs runs).fresh, ?_, fun forced => (paced_of_runs runs forced).spaced⟩
  intro transition member refused
  have step := runs.step_of_mem member
  have kept : KeepsSet ⟨{ transition.before with clock := transition.label.now },
      transition.label, transition.after⟩ := keepsSet_of_move (run_eq_ok.mp step).2 refused
  exact kept

end Runs

/-! ## A provider with one key -/

/-- A key set with one key. -/
def oneKey : Json :=
  .object [(py "keys", .array [.object [(py "kty", .str (py "RSA")), (py "kid", .str (py "a"))]])]

/-- The library where tokens are key ids, and one body is a key set. -/
def tokenLibrary : KeyLibrary Nat where
  netlocFault _ := none
  lowered := id
  loads body := if body.size = 1 then .value oneKey else .decodeError
  header token := some [(py "alg", .str (py "RS256")), (py "kid", .str token)]
  jwk _ := .key 7

def keySettings : OidcSettings where
  authIssuer := none
  authJwksUrl := some (py "https://id.example/jwks")
  authJwksCacheSeconds := 300
  authJwksMinRefreshSeconds := 10
  authJwksUrl_filled := by decide
  authJwksCacheSeconds_range := by decide
  authJwksMinRefreshSeconds_range := by decide

/-- The answer with the key set. -/
def keySetAnswer : HttpAnswer := .response 200 ⟨#[0]⟩

theorem oidc_keys_resolved_rotating :
    ∃ history system, (keyMachine tokenLibrary keySettings).Runs history system ∧
      system.log.length = 5 ∧ ServesFresh 300 system.log ∧ Spaced 10 system.log := by
  obtain ⟨history, system, runs, checked⟩ := Machine.exists_run_of_trace
    (fun system : KeySystem Nat => ∃ clock, system = .opening clock)
    (KeySystem.run tokenLibrary keySettings)
    [.enter (py "a") 1, .fetched keySetAnswer 2, .enter (py "b") 20, .fetched keySetAnswer 21]
    (.opening 0)
    (fun history system => system.log.length = 5 && history.all fun transition =>
      !(transition.before.refreshing.any Refreshing.served && transition.after.refreshing.isNone) ||
        (acceptedSet tokenLibrary transition.label).isSome)
    ⟨0, rfl⟩ (by decide +kernel)
  rw [Bool.and_eq_true, decide_eq_true_eq, List.all_eq_true] at checked
  have forced : ∀ transition ∈ history, ForcedAccepted tokenLibrary transition := by
    intro transition member busy released
    have passes := checked.2 transition member
    rw [busy, released] at passes
    simpa using passes
  obtain ⟨fresh, -, spaced⟩ := oidc_keys_resolved runs
  exact ⟨history, system, runs, checked.1, fresh, spaced forced⟩

/-- The latest two events are forced requests of the twentieth second. -/
def forcedTwice : List (KeyEvent Nat) → Bool
  | .requested later true :: .requested before true :: _ => later = 20 && before = 20
  | _ => false

/-- While the provider fails, every token with an unknown key asks for another set. -/
theorem outage_requests_unspaced :
    ∃ history system, (keyMachine tokenLibrary keySettings).Runs history system ∧
      ¬ Spaced 10 system.log := by
  obtain ⟨history, system, runs, checked⟩ := Machine.exists_run_of_trace
    (fun system : KeySystem Nat => ∃ clock, system = .opening clock)
    (KeySystem.run tokenLibrary keySettings)
    [.enter (py "a") 1, .fetched keySetAnswer 2, .enter (py "b") 20, .fetched .failed 20,
      .enter (py "c") 20] (.opening 0)
    (fun _ system => forcedTwice system.log) ⟨0, rfl⟩ (by decide +kernel)
  refine ⟨history, system, runs, fun spaced => ?_⟩
  unfold forcedTwice at checked
  split at checked
  case h_1 later before rest isLog =>
    rw [Bool.and_eq_true, decide_eq_true_eq, decide_eq_true_eq] at checked
    have all : (.requested later true :: .requested before true :: rest) <:+ system.log := by
      rw [isLog]
    have far := spaced later _ all before true List.mem_cons_self
    rw [checked.1, checked.2] at far
    norm_num at far
  case h_2 => cases checked

end Nexora.Auth
