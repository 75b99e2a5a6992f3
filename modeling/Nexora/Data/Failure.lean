import Mathlib
import Nexora.Std.Fallible

/-!
# Identifiers, instants and failures

The values every repository module shares: database identifiers, transaction
timestamps and the ways a request handler ends without a result. A handler runs
in one transaction and an exception leaving it rolls the transaction back, so a
failure carries no state.
-/

namespace Nexora

/-- A database identifier. Fresh identifiers are inputs of the operations that
draw them. -/
abbrev Uuid := Nat

/-- A timestamp, in microseconds since the epoch. -/
abbrev Instant := Nat

/-- How a request handler fails. -/
inductive Failure where
  /-- `HTTPException` with its status code and, when given, its detail text. -/
  | http (status : Nat) (detail : Option String)
  /-- A `ValueError` raised before any statement ran. -/
  | valueError (text : String)
  /-- A statement the database refused because it breaks a declared constraint. -/
  | constraint
  deriving DecidableEq, Repr

/-- A statement's optional result, where its absence is a missing resource. -/
def found {α : Type} (option : Option α) : Except Failure α :=
  Std.orRaise option (.http 404 none)

/-- An insertion's result, where a key already taken is refused by the database. -/
def inserted {α : Type} (option : Option α) : Except Failure α :=
  Std.orRaise option .constraint

@[simp]
theorem found_eq_ok {α : Type} (option : Option α) (value : α) :
    found option = .ok value ↔ option = some value :=
  Std.orRaise_eq_ok option _ value

@[simp]
theorem inserted_eq_ok {α : Type} (option : Option α) (value : α) :
    inserted option = .ok value ↔ option = some value :=
  Std.orRaise_eq_ok option _ value

/-- The canonical 8-4-4-4-12 text of an identifier, as `str(uuid)` writes it. -/
def Uuid.text (id : Uuid) : String :=
  let digits := Nat.toDigits 16 id
  let padded := List.replicate (32 - digits.length) '0' ++ digits
  let group := fun first count => String.ofList ((padded.drop first).take count)
  group 0 8 ++ "-" ++ group 8 4 ++ "-" ++ group 12 4 ++ "-" ++ group 16 4 ++ "-" ++ group 20 12

end Nexora
