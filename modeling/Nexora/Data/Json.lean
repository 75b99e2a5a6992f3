import Mathlib

/-!
# JSON values as Python holds them

What `json.loads` can produce: integers of any size kept apart from floats, the
non-finite floats its default grammar admits, and strings of code points that may
contain U+0000 or an unpaired surrogate. Python's own notions are defined beside the
type: key lookup, the equality of `==`, nesting depth and the defects that keep a
value from being encoded or stored.
-/

namespace Nexora

/-- There is a code point, so that numbers below the bound denote code points. -/
instance codePointsNonzero : NeZero 0x110000 := ⟨by decide⟩

/-- Code points are compared for what they are. -/
instance codePointsLawful : LawfulBEq (Fin 0x110000) := inferInstance

/-- A Python string: a sequence of code points, surrogates included. -/
abbrev PyStr := List (Fin 0x110000)

/-- Strings are compared for what they are. -/
instance textsLawful : LawfulBEq PyStr := inferInstance

/-- A text literal as a Python string. -/
def py (text : String) : PyStr :=
  text.toList.map fun character =>
    ⟨character.val.toNat, by
      rcases character.valid with low | high
      · exact lt_trans low (by decide)
      · exact high.2⟩

/-- A finite `binary64` value in lowest terms: the significand is odd, or the value
is a zero, which keeps its sign. -/
structure Binary64 where
  negative : Bool
  significand : Nat
  exponent : Int
  lowest : significand % 2 = 1 ∨ significand = 0 ∧ exponent = 0
  range : significand < 2 ^ 53 ∧ -1074 ≤ exponent ∧ exponent < 1024
  deriving DecidableEq

/-- A Python float. -/
inductive PyFloat where
  | nan
  | infinite (negative : Bool)
  | finite (value : Binary64)
  deriving DecidableEq

/-- A JSON value. The members of an object stand in insertion order under distinct
keys, as in a `dict`. -/
inductive Json where
  | null
  | bool (value : Bool)
  | int (value : Int)
  | float (value : PyFloat)
  | str (value : PyStr)
  | array (items : List Json)
  | object (members : List (PyStr × Json))

namespace Json

mutual

/-- Structural equality, member order included. -/
protected def decEq : (left right : Json) → Decidable (left = right)
  | .null, .null => .isTrue rfl
  | .bool left, .bool right => decidable_of_iff (left = right) (by simp)
  | .int left, .int right => decidable_of_iff (left = right) (by simp)
  | .float left, .float right => decidable_of_iff (left = right) (by simp)
  | .str left, .str right => decidable_of_iff (left = right) (by simp)
  | .array left, .array right =>
    match Json.decEqItems left right with
    | .isTrue same => .isTrue (by rw [same])
    | .isFalse distinct => .isFalse (by simpa using distinct)
  | .object left, .object right =>
    match Json.decEqMembers left right with
    | .isTrue same => .isTrue (by rw [same])
    | .isFalse distinct => .isFalse (by simpa using distinct)
  | .null, .bool _ | .null, .int _ | .null, .float _ | .null, .str _ | .null, .array _
  | .null, .object _ | .bool _, .null | .bool _, .int _ | .bool _, .float _ | .bool _, .str _
  | .bool _, .array _ | .bool _, .object _ | .int _, .null | .int _, .bool _ | .int _, .float _
  | .int _, .str _ | .int _, .array _ | .int _, .object _ | .float _, .null | .float _, .bool _
  | .float _, .int _ | .float _, .str _ | .float _, .array _ | .float _, .object _
  | .str _, .null | .str _, .bool _ | .str _, .int _ | .str _, .float _ | .str _, .array _
  | .str _, .object _ | .array _, .null | .array _, .bool _ | .array _, .int _
  | .array _, .float _ | .array _, .str _ | .array _, .object _ | .object _, .null
  | .object _, .bool _ | .object _, .int _ | .object _, .float _ | .object _, .str _
  | .object _, .array _ => .isFalse (by simp)

/-- Structural equality of array items. -/
protected def decEqItems : (left right : List Json) → Decidable (left = right)
  | [], [] => .isTrue rfl
  | [], _ :: _ => .isFalse (by simp)
  | _ :: _, [] => .isFalse (by simp)
  | left :: leftRest, right :: rightRest =>
    match Json.decEq left right, Json.decEqItems leftRest rightRest with
    | .isTrue same, .isTrue sameRest => .isTrue (by rw [same, sameRest])
    | .isFalse distinct, _ => .isFalse (by simp [distinct])
    | _, .isFalse distinct => .isFalse (by simp [distinct])

/-- Structural equality of object members. -/
protected def decEqMembers : (left right : List (PyStr × Json)) → Decidable (left = right)
  | [], [] => .isTrue rfl
  | [], _ :: _ => .isFalse (by simp)
  | _ :: _, [] => .isFalse (by simp)
  | (leftKey, left) :: leftRest, (rightKey, right) :: rightRest =>
    match decEq leftKey rightKey, Json.decEq left right,
      Json.decEqMembers leftRest rightRest with
    | .isTrue sameKey, .isTrue same, .isTrue sameRest =>
      .isTrue (by rw [sameKey, same, sameRest])
    | .isFalse distinct, _, _ => .isFalse (by simp [distinct])
    | _, .isFalse distinct, _ => .isFalse (by simp [distinct])
    | _, _, .isFalse distinct => .isFalse (by simp [distinct])

end

instance : DecidableEq Json := Json.decEq

/-- The value stored under a key of a `dict`. -/
def lookup (key : PyStr) : List (PyStr × Json) → Option Json
  | [] => none
  | (name, value) :: rest => if name = key then some value else lookup key rest

/-- `value.get(key)` for an object, and nothing for any other value. -/
def get? : Json → PyStr → Option Json
  | .object members, key => lookup key members
  | _, _ => none

/-- A number as a dyadic fraction `digits * 2 ^ exponent`; booleans count as 0 and 1. -/
def dyadic? : Json → Option (Int × Int)
  | .bool value => some (if value then 1 else 0, 0)
  | .int value => some (value, 0)
  | .float (.finite value) =>
    some (if value.negative then -(value.significand : Int) else value.significand,
      value.exponent)
  | _ => none

/-- The two numbers over the smaller of their exponents. -/
def aligned (left right : Int × Int) : Int × Int :=
  let exponent := min left.2 right.2
  (left.1 * 2 ^ (left.2 - exponent).toNat, right.1 * 2 ^ (right.2 - exponent).toNat)

/-- `left < right` for two Python numbers; no comparison with a NaN holds. -/
def numberLt : Json → Json → Bool
  | .float .nan, _ => false
  | _, .float .nan => false
  | .float (.infinite leftNegative), .float (.infinite rightNegative) =>
    leftNegative && !rightNegative
  | .float (.infinite negative), _ => negative
  | _, .float (.infinite negative) => !negative
  | left, right =>
    match left.dyadic?, right.dyadic? with
    | some leftValue, some rightValue =>
      decide ((aligned leftValue rightValue).1 < (aligned leftValue rightValue).2)
    | _, _ => false

/-- `left == right` for two Python numbers. -/
def numberEq : Json → Json → Bool
  | .float (.infinite leftNegative), .float (.infinite rightNegative) =>
    leftNegative == rightNegative
  | left, right =>
    match left.dyadic?, right.dyadic? with
    | some leftValue, some rightValue =>
      decide ((aligned leftValue rightValue).1 = (aligned leftValue rightValue).2)
    | _, _ => false

mutual

/-- Python's `==`: numbers and booleans compare by value, objects without regard to
the order of their members. -/
def pyEq : Json → Json → Bool
  | .null, right => right = .null
  | .str left, right => right = .str left
  | .array left, .array right => pyEqItems left right
  | .array _, _ => false
  | .object left, .object right => left.length == right.length && pyEqMembers left right
  | .object _, _ => false
  | .bool left, right => numberEq (.bool left) right
  | .int left, right => numberEq (.int left) right
  | .float left, right => numberEq (.float left) right

/-- Item by item equality of two lists. -/
def pyEqItems : List Json → List Json → Bool
  | [], [] => true
  | left :: leftRest, right :: rightRest => pyEq left right && pyEqItems leftRest rightRest
  | _, _ => false

/-- Every member of the first object has an equal member in the second. -/
def pyEqMembers : List (PyStr × Json) → List (PyStr × Json) → Bool
  | [], _ => true
  | (key, left) :: rest, right =>
    (match lookup key right with
    | some value => pyEq left value
    | none => false) && pyEqMembers rest right

end

mutual

/-- How deep containers nest; a scalar has depth 0. -/
def depth : Json → Nat
  | .array items => depthItems items + 1
  | .object members => depthMembers members + 1
  | _ => 0

/-- The largest depth of an item. -/
def depthItems : List Json → Nat
  | [] => 0
  | item :: rest => max (depth item) (depthItems rest)

/-- The largest depth of a member's value. -/
def depthMembers : List (PyStr × Json) → Nat
  | [] => 0
  | (_, value) :: rest => max (depth value) (depthMembers rest)

end

/-- A code point that is half of a UTF-16 pair. -/
def isSurrogate (point : Fin 0x110000) : Bool := 0xd800 ≤ point.val && point.val ≤ 0xdfff

mutual

/-- Some string of the value, a key included, satisfies a condition, or some scalar
satisfies another. -/
def anyPart (string : PyStr → Bool) (scalar : Json → Bool) : Json → Bool
  | .str value => string value
  | .array items => anyItem string scalar items
  | .object members => anyMember string scalar members
  | value => scalar value

/-- Some part of an item satisfies a condition. -/
def anyItem (string : PyStr → Bool) (scalar : Json → Bool) : List Json → Bool
  | [] => false
  | item :: rest => anyPart string scalar item || anyItem string scalar rest

/-- Some part of a member satisfies a condition. -/
def anyMember (string : PyStr → Bool) (scalar : Json → Bool) : List (PyStr × Json) → Bool
  | [] => false
  | (key, value) :: rest =>
    string key || anyPart string scalar value || anyMember string scalar rest

end

/-- Some string holds an unpaired surrogate, which UTF-8 cannot encode. -/
def hasSurrogate : Json → Bool := anyPart (·.any isSurrogate) fun _ => false

/-- Some string holds U+0000. -/
def hasNul : Json → Bool := anyPart (·.any (· = 0)) fun _ => false

/-- A scalar `json.dumps(allow_nan=False)` refuses: a non-finite float, or an integer
longer than the interpreter's limit on decimal conversion. -/
def unencodable : Json → Bool
  | .float .nan => true
  | .float (.infinite _) => true
  | .int value => 4300 < (Nat.toDigits 10 value.natAbs).length
  | _ => false

/-- Some number of the value cannot be encoded. -/
def hasUnencodable : Json → Bool := anyPart (fun _ => false) unencodable

end Json

end Nexora
