import Nexora.Tools.Printing

/-!
# What the canonical encoding identifies

Two values have one canonical encoding exactly if they are the same up to the order of the members
of objects. Numbers end where a comma or a bracket follows, strings at their closing quote, and
the members of an object are written in the order of their keys, which are distinct.
-/

namespace Nexora.Tools

open Nexora.Std Json

/-- Values that are the same up to the order of the members of objects. An integer is no float,
and the two zeros of floats are two values. -/
inductive SameValue : Json → Json → Prop where
  | scalar {value : Json} (single : isContainer value = false) : SameValue value value
  | array {items others : List Json} (length : items.length = others.length)
      (each : ∀ (index : Nat) (value other : Json), items[index]? = some value →
        others[index]? = some other → SameValue value other) :
      SameValue (.array items) (.array others)
  | object {members others : List (PyStr × Json)}
      (keys : ∀ key, key ∈ members.map Prod.fst ↔ key ∈ others.map Prod.fst)
      (each : ∀ key value other, lookup key members = some value →
        lookup key others = some other → SameValue value other) :
      SameValue (.object members) (.object others)

/-- A value whose objects have distinct keys, as every `dict` has. -/
inductive WellFormed : Json → Prop where
  | scalar {value : Json} (single : isContainer value = false) : WellFormed value
  | array {items : List Json} (each : ∀ item ∈ items, WellFormed item) : WellFormed (.array items)
  | object {members : List (PyStr × Json)} (distinct : (members.map Prod.fst).Nodup)
      (each : ∀ member ∈ members, WellFormed member.2) : WellFormed (.object members)

/-- A point of a number's text. -/
def IsNumberPoint (point : Fin 0x110000) : Prop :=
  48 ≤ point.val ∧ point.val ≤ 57 ∨ point = 0x2d ∨ point = 0x2b ∨ point = 0x2e ∨ point = 0x65

/-- A point that marks a number's text as a float's. -/
def IsFloatMark (point : Fin 0x110000) : Prop := point = 0x2e ∨ point = 0x65

/-- What `repr` writes for finite floats: different texts of digits, signs, dots and exponents, in
each of which there is a dot or an exponent. -/
structure FloatForms (runtime : Runtime) : Prop where
  injective : Function.Injective runtime.floatRepr
  points : ∀ value, ∀ point ∈ py (runtime.floatRepr value), IsNumberPoint point
  marked : ∀ value, ∃ point ∈ py (runtime.floatRepr value), IsFloatMark point

/-- Where the text of a value ends inside an array or an object. -/
def EndsValue (point : Fin 0x110000) : Prop := point = 0x2c ∨ point = 0x5d ∨ point = 0x7d

/-! ## Numbers -/

variable {point : Fin 0x110000} {rest other : PyStr}

theorem not_numberPoint_of_ends (ends : EndsValue point) :
    ¬ IsNumberPoint point := by
  rcases ends with rfl | rfl | rfl <;> simp [IsNumberPoint]

/-- A digit is a point of a number's text, and marks no float. -/
theorem digit_point {character : Char} (digit : character.isDigit = true)
    (isPoint : point.val = character.val.toNat) : IsNumberPoint point ∧ ¬ IsFloatMark point := by
  simp only [Char.isDigit, Bool.and_eq_true, decide_eq_true_eq, ge_iff_le] at digit
  have low : 48 ≤ character.val.toNat := digit.1
  have high : character.val.toNat ≤ 57 := digit.2
  refine ⟨.inl ⟨by omega, by omega⟩, ?_⟩
  rintro (rfl | rfl)
  · have value : 46 = character.val.toNat := isPoint
    omega
  · have value : 101 = character.val.toNat := isPoint
    omega

/-- The text of an integer is of digits, with a sign in front if it is negative. -/
theorem int_points {number : Int} (member : point ∈ py (toString number)) :
    IsNumberPoint point ∧ ¬ IsFloatMark point := by
  obtain ⟨character, inText, rfl⟩ := List.mem_map.mp member
  have digits : ∀ (value : Nat), character ∈ value.repr.toList → character.isDigit = true := by
    intro value inDigits
    rw [Nat.toList_repr] at inDigits
    exact Nat.isDigit_of_mem_toDigits (by decide) (by decide) inDigits
  have shape : character.isDigit = true ∨ character = '-' := by
    rw [Int.toString_eq_repr, Int.repr_eq_if] at inText
    split at inText
    · exact .inl (digits _ inText)
    · rw [String.toList_append, List.mem_append] at inText
      rcases inText with sign | inDigits
      · exact .inr (by simpa using sign)
      · exact .inl (digits _ inDigits)
  rcases shape with digit | rfl
  · exact digit_point digit rfl
  · refine ⟨.inr (.inl rfl), ?_⟩
    rintro (dot | exponent)
    · cases dot
    · cases exponent

theorem nat_repr_injective : Function.Injective Nat.repr := by
  intro first second same
  have digits := congrArg String.toList same
  rw [Nat.toList_repr, Nat.toList_repr] at digits
  have values := congrArg (fun digits => Nat.ofDigitChars 10 digits 0) digits
  simpa [Nat.ofDigitChars_ten_toDigits] using values

/-- No text of a natural number starts with a sign. -/
theorem nat_repr_ne_negative (value other : Nat) : value.repr ≠ "-" ++ other.repr := by
  intro same
  have letters := congrArg String.toList same
  rw [Nat.toList_repr, String.toList_append] at letters
  have digit := Nat.isDigit_of_mem_toDigits (b := 10) (n := value) (c := '-') (by decide)
    (by decide) (by rw [letters]; simp)
  cases digit

theorem int_repr_injective : Function.Injective (toString : Int → String) := by
  intro first second same
  rw [Int.toString_eq_repr, Int.toString_eq_repr, Int.repr_eq_if, Int.repr_eq_if] at same
  split at same <;> split at same
  · have sizes := nat_repr_injective same
    omega
  · exact absurd same (nat_repr_ne_negative _ _)
  · exact absurd same.symm (nat_repr_ne_negative _ _)
  · have letters := congrArg String.toList same
    rw [String.toList_append, String.toList_append, List.append_cancel_left_eq] at letters
    have sizes := nat_repr_injective (String.toList_inj.mp letters)
    omega

/-- The texts of two numbers that something else follows. -/
theorem number_texts {first second : String} (firstPoints : ∀ point ∈ py first, IsNumberPoint point)
    (secondPoints : ∀ point ∈ py second, IsNumberPoint point) (restStops : Stops EndsValue rest)
    (otherStops : Stops EndsValue other) (same : py first ++ rest = py second ++ other) :
    first = second ∧ rest = other := by
  have stops : ∀ {rest : PyStr}, Stops EndsValue rest →
      Stops (fun point => ¬ IsNumberPoint point) rest := by
    intro rest stops point member
    exact not_numberPoint_of_ends (stops point member)
  obtain ⟨texts, sameRest⟩ := run_unique firstPoints secondPoints (stops restStops)
    (stops otherStops) same
  exact ⟨py_injective texts, sameRest⟩

/-! ## Lists -/

theorem commaSeparated_related {α : Type} {encode : α → PyStr} {related : α → α → Prop}
    {closing : Fin 0x110000} (closes : EndsValue closing)
    (distinct : (0x2c : Fin 0x110000) ≠ closing) {first second : List α}
    (opens : ∀ value, value ∈ first ∨ value ∈ second → ∀ rest other,
      encode value ++ rest ≠ closing :: other)
    (each : ∀ value ∈ first, ∀ next ∈ second, ∀ rest other, Stops EndsValue rest →
      Stops EndsValue other → encode value ++ rest = encode next ++ other →
      related value next ∧ rest = other)
    (same : commaSeparated (first.map encode) ++ closing :: rest =
      commaSeparated (second.map encode) ++ closing :: other) :
    List.Forall₂ related first second ∧ rest = other := by
  have starts : ∀ (values : List α) (value : α) (rest : PyStr), ∃ tail,
      commaSeparated ((value :: values).map encode) ++ rest = encode value ++ tail := by
    intro values value rest
    cases values with
    | nil => exact ⟨rest, by simp [commaSeparated]⟩
    | cons next others =>
      exact ⟨py "," ++ (commaSeparated ((next :: others).map encode) ++ rest), by
        simp [commaSeparated, List.intersperse_cons_cons]⟩
  cases first with
  | nil =>
    cases second with
    | nil => exact ⟨.nil, (List.cons.inj same).2⟩
    | cons next others =>
      obtain ⟨tail, begins⟩ := starts others next (closing :: other)
      rw [begins] at same
      exact absurd same.symm (opens next (.inr List.mem_cons_self) tail rest)
  | cons value values =>
    cases second with
    | nil =>
      obtain ⟨tail, begins⟩ := starts values value (closing :: rest)
      rw [begins] at same
      exact absurd same (opens value (.inl List.mem_cons_self) tail other)
    | cons next others =>
      have prefixed := congrArg (fun text => [0x2c] ++ text) same
      simp only [← List.append_assoc] at prefixed
      rw [comma_commaSeparated _ (by simp), comma_commaSeparated _ (by simp),
        List.flatMap_map, List.flatMap_map] at prefixed
      exact separated_related (.inl rfl) closes distinct each prefixed

/-! ## Values -/

/-- What the first point of a value's text tells of the value. -/
inductive Kind where
  | null
  | truth
  | falsity
  | number
  | text
  | array
  | object
  deriving DecidableEq

/-- The kind of a value. -/
def kindOf : Json → Kind
  | .null => .null
  | .bool true => .truth
  | .bool false => .falsity
  | .int _ | .float _ => .number
  | .str _ => .text
  | .array _ => .array
  | .object _ => .object

/-- The kind of the values whose text starts with a point. -/
def kindOfPoint (point : Fin 0x110000) : Kind :=
  if point = 0x6e then .null
  else if point = 0x74 then .truth
  else if point = 0x66 then .falsity
  else if point = 0x22 then .text
  else if point = 0x5b then .array
  else if point = 0x7b then .object
  else .number

theorem kindOfPoint_number (number : IsNumberPoint point) :
    kindOfPoint point = .number := by
  have other : ∀ letter : Fin 0x110000, ¬ IsNumberPoint letter → point ≠ letter := by
    intro letter isOther same
    exact isOther (same ▸ number)
  unfold kindOfPoint
  rw [if_neg (other _ _), if_neg (other _ _), if_neg (other _ _), if_neg (other _ _),
    if_neg (other _ _), if_neg (other _ _)]
  all_goals simp [IsNumberPoint]

variable {runtime : Runtime} {value next inputSchema : Json} {items : List Json}
  {remoteName : String} {outputSchema : Option Json} {sideEffect : SideEffect}

/-- The first point of a value's text tells its kind. -/
theorem dumps_starts (forms : FloatForms runtime) (encodable : value.hasUnencodable = false) :
    ∃ point tail, dumps runtime value = point :: tail ∧ kindOfPoint point = kindOf value := by
  cases value with
  | null => exact ⟨0x6e, _, rfl, rfl⟩
  | bool truth =>
    cases truth with
    | true => exact ⟨0x74, _, rfl, rfl⟩
    | false => exact ⟨0x66, _, rfl, rfl⟩
  | int number =>
    have points : ∀ point ∈ py (toString number), IsNumberPoint point :=
      fun point member => (int_points member).1
    rw [dumps]
    cases text : py (toString number) with
    | nil =>
      have empty : py "" = [] := rfl
      refine absurd (py_injective (text.trans empty.symm)) ?_
      rw [Int.toString_eq_repr, Int.repr_eq_if]
      split
      · exact Nat.repr_ne_empty
      · intro empty
        have letters := congrArg String.toList empty
        simp at letters
    | cons point tail =>
      rw [text] at points
      exact ⟨point, tail, rfl, kindOfPoint_number (points point List.mem_cons_self)⟩
  | float number =>
    cases number with
    | nan => cases encodable
    | infinite negative => cases encodable
    | finite number =>
      obtain ⟨mark, member, _⟩ := forms.marked number
      have points := forms.points number
      rw [dumps]
      cases text : py (runtime.floatRepr number) with
      | nil =>
        rw [text] at member
        cases member
      | cons point tail =>
        rw [text] at points
        exact ⟨point, tail, rfl, kindOfPoint_number (points point List.mem_cons_self)⟩
  | str text => exact ⟨0x22, _, rfl, rfl⟩
  | array items => exact ⟨0x5b, _, rfl, rfl⟩
  | object members => exact ⟨0x7b, _, rfl, rfl⟩

/-- The members of an object in the order of their keys. -/
def sortedMembers (members : List (PyStr × Json)) : List (PyStr × Json) :=
  members.insertionSort fun left right => left.1 ≤ right.1

/-- The text of a member. -/
def memberText (runtime : Runtime) (member : PyStr × Json) : PyStr :=
  quoted member.1 ++ 0x3a :: dumps runtime member.2

theorem dumps_array (runtime : Runtime) (items : List Json) :
    dumps runtime (.array items) =
      0x5b :: (commaSeparated (items.map (dumps runtime)) ++ [0x5d]) := by
  rw [dumps, dumpsItems_eq]
  rfl

theorem dumps_object (runtime : Runtime) (members : List (PyStr × Json)) :
    dumps runtime (.object members) =
      0x7b :: (commaSeparated ((sortedMembers members).map (memberText runtime)) ++ [0x7d]) := by
  have sorted : (dumpsMembers runtime members).insertionSort
        (fun left right => left.1 ≤ right.1) =
      (sortedMembers members).map fun member => (member.1, dumps runtime member.2) := by
    rw [dumpsMembers_eq]
    symm
    apply List.map_insertionSort
    intros
    rfl
  have colon : py ":" = [0x3a] := rfl
  rw [dumps, sorted, List.map_map]
  simp only [Function.comp_def, colon, List.append_assoc, List.singleton_append]
  rfl

theorem mem_sortedMembers {members : List (PyStr × Json)} {member : PyStr × Json} :
    member ∈ sortedMembers members ↔ member ∈ members :=
  List.mem_insertionSort _

/-- Elements at one place of lists that are related one by one. -/
theorem related_of_getElem? {α β : Type} {related : α → β → Prop} {first : List α} {second : List β}
    (each : List.Forall₂ related first second) {index : Nat} {value : α} {other : β}
    (isFirst : first[index]? = some value) (isSecond : second[index]? = some other) :
    related value other := by
  induction each generalizing index with
  | nil => cases isFirst
  | cons head _ ih =>
    cases index with
    | zero =>
      cases isFirst
      cases isSecond
      exact head
    | succ index => exact ih isFirst isSecond

/-- An element of the first of two lists that are related one by one. -/
theorem related_of_mem {α β : Type} {related : α → β → Prop} {first : List α} {second : List β}
    (each : List.Forall₂ related first second) {value : α} (member : value ∈ first) :
    ∃ other ∈ second, related value other := by
  induction each with
  | nil => cases member
  | cons head _ ih =>
    rcases List.mem_cons.mp member with rfl | later
    · exact ⟨_, List.mem_cons_self, head⟩
    · obtain ⟨other, present, isRelated⟩ := ih later
      exact ⟨other, List.mem_cons_of_mem _ present, isRelated⟩

/-- What the items and members of an encodable value are. -/
theorem encodable_item (encodable : (Json.array items).hasUnencodable = false) {item : Json}
    (present : item ∈ items) : item.hasUnencodable = false := by
  rw [hasUnencodable, anyPart, anyItem_eq, List.any_eq_false] at encodable
  exact (Bool.not_eq_true _).mp (encodable item present)

theorem encodable_member {members : List (PyStr × Json)}
    (encodable : (Json.object members).hasUnencodable = false) {member : PyStr × Json}
    (present : member ∈ members) : member.2.hasUnencodable = false := by
  rw [hasUnencodable, anyPart, anyMember_eq, List.any_eq_false] at encodable
  exact (Bool.not_eq_true _).mp (encodable member present)

/-- Members with the same keys and the same values, in the order of the keys, make the same
object. -/
theorem sameValue_of_sorted {members others : List (PyStr × Json)}
    (distinct : (others.map Prod.fst).Nodup)
    (each : List.Forall₂ (fun member other => member.1 = other.1 ∧ SameValue member.2 other.2)
      (sortedMembers members) (sortedMembers others)) :
    SameValue (.object members) (.object others) := by
  have forward : ∀ member ∈ members, ∃ other ∈ others,
      member.1 = other.1 ∧ SameValue member.2 other.2 := by
    intro member present
    obtain ⟨other, isOther, same⟩ := related_of_mem each (mem_sortedMembers.mpr present)
    exact ⟨other, mem_sortedMembers.mp isOther, same⟩
  have backward : ∀ other ∈ others, ∃ member ∈ members, member.1 = other.1 := by
    intro other present
    obtain ⟨member, isMember, same⟩ := related_of_mem each.flip (mem_sortedMembers.mpr present)
    exact ⟨member, mem_sortedMembers.mp isMember, same.1⟩
  constructor
  · intro key
    constructor
    · intro isKey
      obtain ⟨member, present, rfl⟩ := List.mem_map.mp isKey
      obtain ⟨other, isOther, same, _⟩ := forward member present
      exact List.mem_map.mpr ⟨other, isOther, same.symm⟩
    · intro isKey
      obtain ⟨other, present, rfl⟩ := List.mem_map.mp isKey
      obtain ⟨member, isMember, same⟩ := backward other present
      exact List.mem_map.mpr ⟨member, isMember, same⟩
  · intro key value other isValue isOther
    obtain ⟨member, present, same, isSame⟩ := forward (key, value) (mem_of_lookup isValue)
    have found := lookup_of_mem distinct present
    rw [← same, isOther, Option.some.injEq] at found
    rw [found]
    exact isSame

/-- The text of a number. -/
theorem dumps_number (forms : FloatForms runtime) (isNumber : kindOf value = .number)
    (encodable : value.hasUnencodable = false) :
    ∃ text, dumps runtime value = py text ∧ ∀ point ∈ py text, IsNumberPoint point := by
  cases value with
  | int number => exact ⟨_, rfl, fun point member => (int_points member).1⟩
  | float number =>
    cases number with
    | nan => cases encodable
    | infinite negative => cases encodable
    | finite number => exact ⟨_, rfl, forms.points number⟩
  | bool truth => cases truth <;> cases isNumber
  | null | str | array | object => cases isNumber

/-- No text is that of an integer and that of a float. -/
theorem int_ne_float (forms : FloatForms runtime) (number : Int) (value : Binary64) :
    py (toString number) ≠ py (runtime.floatRepr value) := by
  intro same
  obtain ⟨mark, member, isMark⟩ := forms.marked value
  rw [← same] at member
  exact (int_points member).2 isMark

/-- Numbers with one text are the same. -/
theorem number_unique (forms : FloatForms runtime) (isNumber : kindOf value = .number)
    (isNextNumber : kindOf next = .number) (encodable : value.hasUnencodable = false)
    (nextEncodable : next.hasUnencodable = false)
    (same : dumps runtime value = dumps runtime next) : SameValue value next := by
  cases value with
  | int number =>
    cases next with
    | int nextNumber =>
      obtain rfl := int_repr_injective (py_injective same)
      exact .scalar rfl
    | float nextNumber =>
      cases nextNumber with
      | nan => cases nextEncodable
      | infinite negative => cases nextEncodable
      | finite nextNumber => exact absurd same (int_ne_float forms number nextNumber)
    | bool truth => cases truth <;> cases isNextNumber
    | null | str | array | object => cases isNextNumber
  | float number =>
    cases number with
    | nan => cases encodable
    | infinite negative => cases encodable
    | finite number =>
      cases next with
      | int nextNumber => exact absurd same.symm (int_ne_float forms nextNumber number)
      | float nextNumber =>
        cases nextNumber with
        | nan => cases nextEncodable
        | infinite negative => cases nextEncodable
        | finite nextNumber =>
          obtain rfl := forms.injective (py_injective same)
          exact .scalar rfl
      | bool truth => cases truth <;> cases isNextNumber
      | null | str | array | object => cases isNextNumber
  | bool truth => cases truth <;> cases isNumber
  | null | str | array | object => cases isNumber

/-- No item starts with the bracket that closes the array. -/
theorem opens_item (forms : FloatForms runtime) {others : List Json}
    (encodable : (Json.array items).hasUnencodable = false)
    (otherEncodable : (Json.array others).hasUnencodable = false) :
    ∀ value, value ∈ items ∨ value ∈ others → ∀ rest other,
      dumps runtime value ++ rest ≠ 0x5d :: other := by
  intro value present rest other same
  have isEncodable : value.hasUnencodable = false := by
    rcases present with inFirst | inSecond
    · exact encodable_item encodable inFirst
    · exact encodable_item otherEncodable inSecond
  obtain ⟨point, tail, starts, isKind⟩ := dumps_starts forms isEncodable
  rw [starts, List.cons_append, List.cons.injEq] at same
  rw [same.1] at isKind starts
  have isNumber : kindOf value = .number := by
    rw [← isKind]
    decide
  obtain ⟨text, isText, points⟩ := dumps_number forms isNumber isEncodable
  rw [isText] at starts
  have bracket := points 0x5d (by rw [starts]; exact List.mem_cons_self)
  simp [IsNumberPoint] at bracket

/-- No member starts with the bracket that closes the object. -/
theorem opens_member {members others : List (PyStr × Json)} :
    ∀ member, member ∈ members ∨ member ∈ others → ∀ rest other,
      memberText runtime member ++ rest ≠ 0x7d :: other := by
  intro member _ rest other same
  have quote : py "\"" = [0x22] := rfl
  rw [memberText, quoted, quote, List.append_assoc, List.append_assoc, List.append_assoc,
    List.singleton_append, List.cons.injEq] at same
  cases same.1

/-- What the items and members of a value with distinct keys are. -/
theorem WellFormed.item (wellFormed : WellFormed (.array items)) {item : Json}
    (present : item ∈ items) : WellFormed item := by
  cases wellFormed with
  | scalar single => cases single
  | array each => exact each item present

theorem WellFormed.members {members : List (PyStr × Json)}
    (wellFormed : WellFormed (.object members)) :
    (members.map Prod.fst).Nodup ∧ ∀ member ∈ members, WellFormed member.2 := by
  cases wellFormed with
  | scalar single => cases single
  | object distinct each => exact ⟨distinct, each⟩

/-- **The text of a value, with what ends it behind, tells the value.** -/
theorem dumps_unique (forms : FloatForms runtime) (isDict : WellFormed value)
    (nextDict : WellFormed next) (encodable : value.hasUnencodable = false)
    (nextEncodable : next.hasUnencodable = false) (restStops : Stops EndsValue rest)
    (otherStops : Stops EndsValue other)
    (same : dumps runtime value ++ rest = dumps runtime next ++ other) :
    SameValue value next ∧ rest = other := by
  induction value using smallerInduction generalizing next rest other with
  | each value ih =>
    have kinds : kindOf value = kindOf next := by
      obtain ⟨point, tail, starts, isKind⟩ := dumps_starts forms encodable
      obtain ⟨nextPoint, nextTail, nextStarts, isNextKind⟩ := dumps_starts forms nextEncodable
      rw [starts, nextStarts, List.cons_append, List.cons_append, List.cons.injEq] at same
      rw [← isKind, ← isNextKind, same.1]
    by_cases isNumber : kindOf value = .number
    · obtain ⟨text, isText, points⟩ := dumps_number forms isNumber encodable
      obtain ⟨nextText, isNextText, nextPoints⟩ :=
        dumps_number forms (kinds ▸ isNumber) nextEncodable
      rw [isText, isNextText] at same
      obtain ⟨texts, sameRest⟩ := number_texts points nextPoints restStops otherStops same
      refine ⟨number_unique forms isNumber (kinds ▸ isNumber) encodable nextEncodable ?_,
        sameRest⟩
      rw [isText, isNextText, texts]
    cases value with
    | null =>
      cases next with
      | null => exact ⟨.scalar rfl, List.append_cancel_left same⟩
      | bool truth => cases truth <;> cases kinds
      | int | float | str | array | object => cases kinds
    | bool truth =>
      cases next with
      | bool nextTruth =>
        cases truth <;> cases nextTruth
        · exact ⟨.scalar rfl, List.append_cancel_left same⟩
        · cases kinds
        · cases kinds
        · exact ⟨.scalar rfl, List.append_cancel_left same⟩
      | null | int | float | str | array | object => cases truth <;> cases kinds
    | int | float => exact absurd rfl isNumber
    | str text =>
      cases next with
      | str nextText =>
        obtain ⟨rfl, sameRest⟩ := quoted_selfDelimiting text nextText rest other same
        exact ⟨.scalar rfl, sameRest⟩
      | null | int | float | array | object => cases kinds
      | bool truth => cases truth <;> cases kinds
    | array items =>
      cases next with
      | array others =>
        rw [dumps_array, dumps_array, List.cons_append, List.cons_append, List.cons.injEq,
          List.append_assoc, List.append_assoc] at same
        obtain ⟨related, sameRest⟩ := commaSeparated_related (.inr (.inl rfl)) (by decide)
          (opens_item forms encodable nextEncodable)
          (fun item present nextItem isNext rest other restStops otherStops same =>
            ih item (sizeOf_item present) (isDict.item present)
              (nextDict.item isNext) (encodable_item encodable present)
              (encodable_item nextEncodable isNext) restStops otherStops same) same.2
        refine ⟨.array related.length_eq ?_, sameRest⟩
        intro index item nextItem isItem isNext
        exact related_of_getElem? related isItem isNext
      | null | int | float | str | object => cases kinds
      | bool truth => cases truth <;> cases kinds
    | object members =>
      cases next with
      | object others =>
        rw [dumps_object, dumps_object, List.cons_append, List.cons_append, List.cons.injEq,
          List.append_assoc, List.append_assoc] at same
        have each : ∀ member ∈ sortedMembers members, ∀ nextMember ∈ sortedMembers others,
            ∀ rest other, Stops EndsValue rest → Stops EndsValue other →
            memberText runtime member ++ rest = memberText runtime nextMember ++ other →
            (member.1 = nextMember.1 ∧ SameValue member.2 nextMember.2) ∧ rest = other := by
          intro member present nextMember isNext rest other restStops otherStops same
          rw [mem_sortedMembers] at present isNext
          rw [memberText, memberText, List.append_assoc, List.append_assoc] at same
          obtain ⟨sameKey, same⟩ := quoted_selfDelimiting _ _ _ _ same
          rw [List.cons_append, List.cons_append, List.cons.injEq] at same
          obtain ⟨sameValue, sameRest⟩ := ih member.2
            (sizeOf_member present) (isDict.members.2 member present)
            (nextDict.members.2 nextMember isNext) (encodable_member encodable present)
            (encodable_member nextEncodable isNext) restStops otherStops same.2
          exact ⟨⟨sameKey, sameValue⟩, sameRest⟩
        obtain ⟨related, sameRest⟩ := commaSeparated_related (.inr (.inr rfl)) (by decide)
          opens_member each same.2
        exact ⟨sameValue_of_sorted nextDict.members.1 related, sameRest⟩
      | null | int | float | str | array => cases kinds
      | bool truth => cases truth <;> cases kinds

/-! ## The same value has one text -/

theorem sortedMembers_keys (members : List (PyStr × Json)) :
    (sortedMembers members).map Prod.fst = (members.map Prod.fst).insertionSort (· ≤ ·) := by
  apply List.map_insertionSort
  intros
  rfl

/-- Objects with the same distinct keys have them in the same order. -/
theorem sortedMembers_same_keys {members others : List (PyStr × Json)}
    (distinct : (members.map Prod.fst).Nodup) (otherDistinct : (others.map Prod.fst).Nodup)
    (keys : ∀ key, key ∈ members.map Prod.fst ↔ key ∈ others.map Prod.fst) :
    (sortedMembers members).map Prod.fst = (sortedMembers others).map Prod.fst := by
  have perm := (List.perm_ext_iff_of_nodup distinct otherDistinct).mpr keys
  rw [sortedMembers_keys, sortedMembers_keys]
  apply List.Perm.eq_of_sortedLE List.sortedLE_insertionSort List.sortedLE_insertionSort
  exact (List.perm_insertionSort _ _).trans (perm.trans (List.perm_insertionSort _ _).symm)

/-- Lists of members with the same keys have the same texts if the members have. -/
theorem texts_eq {first second : List (PyStr × Json)}
    (keys : first.map Prod.fst = second.map Prod.fst)
    (each : ∀ key value other, (key, value) ∈ first → (key, other) ∈ second →
      dumps runtime value = dumps runtime other) :
    first.map (memberText runtime) = second.map (memberText runtime) := by
  induction first generalizing second with
  | nil =>
    rw [List.map_nil, eq_comm, List.map_eq_nil_iff] at keys
    rw [keys]
  | cons member rest ih =>
    cases second with
    | nil => cases keys
    | cons other others =>
      rw [List.map_cons, List.map_cons, List.cons.injEq] at keys
      obtain ⟨key, value⟩ := member
      obtain ⟨otherKey, otherValue⟩ := other
      obtain ⟨rfl, others'⟩ := keys
      rw [List.map_cons, List.map_cons, memberText, memberText,
        each key value otherValue List.mem_cons_self List.mem_cons_self,
        ih others' fun name first second isFirst isSecond =>
          each name first second (List.mem_cons_of_mem _ isFirst)
            (List.mem_cons_of_mem _ isSecond)]

/-- The same value has one text, whatever the order of its members. -/
theorem dumps_congr (runtime : Runtime) {other : Json} (same : SameValue value other)
    (isDict : WellFormed value) (otherDict : WellFormed other) :
    dumps runtime value = dumps runtime other := by
  induction same with
  | scalar => rfl
  | @array items others length each ih =>
    have texts : items.map (dumps runtime) = others.map (dumps runtime) := by
      apply List.ext_getElem?
      intro index
      rw [List.getElem?_map, List.getElem?_map]
      cases isItem : items[index]? with
      | none =>
        rw [List.getElem?_eq_none_iff] at isItem
        rw [List.getElem?_eq_none_iff.mpr (by omega)]
      | some item =>
        have inside := (List.getElem?_eq_some_iff.mp isItem).1
        have isOther : others[index]? = some others[index] := List.getElem?_eq_getElem _
        rw [isOther, Option.map_some, Option.map_some,
          ih index item _ isItem isOther
            (isDict.item (List.mem_of_getElem? isItem))
            (otherDict.item (List.mem_of_getElem? isOther))]
    rw [dumps_array, dumps_array, texts]
  | @object members others keys each ih =>
    obtain ⟨distinct, below⟩ := isDict.members
    obtain ⟨otherDistinct, otherBelow⟩ := otherDict.members
    rw [dumps_object, dumps_object,
      texts_eq (sortedMembers_same_keys distinct otherDistinct keys)]
    intro key value other isValue isOther
    rw [mem_sortedMembers] at isValue isOther
    exact ih key value other (lookup_of_mem distinct isValue)
      (lookup_of_mem otherDistinct isOther) (below _ isValue) (otherBelow _ isOther)

/-- Values with a canonical encoding have the same one exactly if they are the same. -/
theorem canonicalJson_eq_iff (forms : FloatForms runtime) {first second : Json}
    (firstDict : WellFormed first) (secondDict : WellFormed second) {firstBytes secondBytes : Nat}
    {firstText secondText : PyStr}
    (isFirst : canonicalJson runtime first firstBytes = .ok firstText)
    (isSecond : canonicalJson runtime second secondBytes = .ok secondText) :
    firstText = secondText ↔ SameValue first second := by
  obtain ⟨⟨_, encodable⟩, _, _, rfl⟩ := (canonicalJson_eq_ok _ _ _ _).mp isFirst
  obtain ⟨⟨_, otherEncodable⟩, _, _, rfl⟩ := (canonicalJson_eq_ok _ _ _ _).mp isSecond
  constructor
  · intro same
    exact (dumps_unique forms firstDict secondDict encodable otherEncodable (.nil _) (.nil _)
      (by rw [same])).1
  · intro same
    exact dumps_congr runtime same firstDict secondDict

/-! ## Digests -/

theorem contractDocument_wellFormed {serverKey : String} (input : WellFormed inputSchema)
    (output : WellFormed (outputSchema.getD .null)) :
    WellFormed (contractDocument serverKey remoteName inputSchema outputSchema sideEffect) := by
  have distinct : [py "server_key", py "remote_name", py "input_schema", py "output_schema",
      py "side_effect"].Nodup := by
    decide
  refine .object distinct ?_
  intro member present
  simp only [List.mem_cons, List.not_mem_nil, or_false] at present
  rcases present with rfl | rfl | rfl | rfl | rfl
  · exact .scalar rfl
  · exact .scalar rfl
  · exact input
  · exact output
  · exact .scalar rfl

theorem sideEffect_text_injective : Function.Injective fun effect : SideEffect => py effect.text := by
  intro first second same
  have texts := py_injective same
  cases first <;> cases second <;> first | rfl | simp [SideEffect.text] at texts

theorem sameValue_str {first second : PyStr} (same : SameValue (.str first) (.str second)) :
    first = second := by
  cases same
  rfl

/-- Members of objects that are the same. -/
theorem SameValue.member {members others : List (PyStr × Json)}
    (same : SameValue (.object members) (.object others)) (key : PyStr) {other : Json}
    (isValue : lookup key members = some value) (isOther : lookup key others = some other) :
    SameValue value other := by
  cases same with
  | scalar single => cases single
  | object _ each => exact each key value other isValue isOther

/-- Contracts with one document are the same. -/
theorem contract_of_document {serverKey otherKey otherName : String} {otherInput : Json}
    {otherOutput : Option Json} {otherEffect : SideEffect}
    (same : SameValue (contractDocument serverKey remoteName inputSchema outputSchema sideEffect)
      (contractDocument otherKey otherName otherInput otherOutput otherEffect)) :
    serverKey = otherKey ∧ remoteName = otherName ∧ SameValue inputSchema otherInput ∧
      SameValue (outputSchema.getD .null) (otherOutput.getD .null) ∧ sideEffect = otherEffect := by
  unfold contractDocument at same
  refine ⟨?_, ?_, ?_, ?_, ?_⟩
  · exact py_injective (sameValue_str (same.member (py "server_key") rfl rfl))
  · exact py_injective (sameValue_str (same.member (py "remote_name") rfl rfl))
  · exact same.member (py "input_schema") rfl rfl
  · exact same.member (py "output_schema") rfl rfl
  · exact sideEffect_text_injective (sameValue_str (same.member (py "side_effect") rfl rfl))

/-- **The canonical encoding identifies arguments and contracts**, and so do their digests where
SHA-256 tells texts apart. -/
theorem canonical_json_identifies (runtime : Runtime) (forms : FloatForms runtime) :
    (∀ first second maxBytes firstText secondText, WellFormed first → WellFormed second →
      canonicalJson runtime first maxBytes = .ok firstText →
      canonicalJson runtime second maxBytes = .ok secondText →
      (firstText = secondText ↔ SameValue first second)) ∧
    (Function.Injective runtime.sha256 →
      (∀ first second firstText secondText digest, WellFormed first → WellFormed second →
        hashArguments runtime first = .ok (firstText, digest) →
        hashArguments runtime second = .ok (secondText, digest) → SameValue first second) ∧
      ∀ serverKey otherKey remoteName otherName inputSchema otherInput outputSchema otherOutput
        sideEffect otherEffect digest, WellFormed inputSchema → WellFormed otherInput →
        WellFormed (Option.getD outputSchema .null) → WellFormed (Option.getD otherOutput .null) →
        hashToolContract runtime serverKey remoteName inputSchema outputSchema sideEffect =
          .ok digest →
        hashToolContract runtime otherKey otherName otherInput otherOutput otherEffect =
          .ok digest →
        serverKey = otherKey ∧ remoteName = otherName ∧ SameValue inputSchema otherInput ∧
          SameValue (outputSchema.getD .null) (otherOutput.getD .null) ∧
          sideEffect = otherEffect) := by
  refine ⟨?_, fun injective => ⟨?_, ?_⟩⟩
  · intro first second maxBytes firstText secondText firstDict secondDict isFirst isSecond
    exact canonicalJson_eq_iff forms firstDict secondDict isFirst isSecond
  · intro first second firstText secondText digest firstDict secondDict isFirst isSecond
    simp only [hashArguments, bind_eq_ok, pure_eq_ok, Prod.mk.injEq] at isFirst isSecond
    obtain ⟨_, isFirst, rfl, rfl⟩ := isFirst
    obtain ⟨_, isSecond, rfl, sameDigest⟩ := isSecond
    exact (canonicalJson_eq_iff forms firstDict secondDict isFirst isSecond).mp
      (injective sameDigest.symm)
  · intro serverKey otherKey remoteName otherName inputSchema otherInput outputSchema otherOutput
      sideEffect otherEffect digest input nextInput output nextOutput isFirst isSecond
    simp only [hashToolContract, bind_eq_ok, pure_eq_ok] at isFirst isSecond
    obtain ⟨_, isFirst, rfl⟩ := isFirst
    obtain ⟨_, isSecond, sameDigest⟩ := isSecond
    exact contract_of_document ((canonicalJson_eq_iff forms
      (contractDocument_wellFormed input output) (contractDocument_wellFormed nextInput nextOutput)
      isFirst isSecond).mp (injective sameDigest.symm))

/-- An interpreter that writes a float as a number of its own, and digests a text to its own
number; the values below have no float. -/
def numberingRuntime : Runtime where
  floatRepr := fun value => "0e" ++ (Nat.pair (if value.negative then 1 else 0)
    (Nat.pair value.significand (value.exponent + 1074).toNat)).repr
  recursionLimit := 1000
  sha256 := Encodable.encode

theorem numberingRuntime_forms : FloatForms numberingRuntime where
  injective first second same := by
    have letters := congrArg String.toList same
    simp only [numberingRuntime, String.toList_append, List.append_cancel_left_eq] at letters
    have numbers := nat_repr_injective (String.toList_inj.mp letters)
    simp only [Nat.pair_eq_pair] at numbers
    obtain ⟨signs, significands, exponents⟩ := numbers
    have firstRange := first.range.2.1
    have secondRange := second.range.2.1
    obtain ⟨negative, significand, exponent, _, _⟩ := first
    obtain ⟨otherNegative, otherSignificand, otherExponent, _, _⟩ := second
    simp only at signs significands exponents firstRange secondRange
    have sameExponent : exponent = otherExponent := by omega
    have sameSign : negative = otherNegative := by
      cases negative <;> cases otherNegative <;> simp_all
    simp only [Binary64.mk.injEq]
    exact ⟨sameSign, significands, sameExponent⟩
  points value point member := by
    obtain ⟨character, inText, rfl⟩ := List.mem_map.mp member
    simp only [numberingRuntime, String.toList_append, List.mem_append, Nat.toList_repr] at inText
    rcases inText with front | digits
    · have letters : character = '0' ∨ character = 'e' := by simpa using front
      rcases letters with rfl | rfl
      · exact .inl (by decide)
      · exact .inr (.inr (.inr (.inr rfl)))
    · have digit := Nat.isDigit_of_mem_toDigits (by decide) (by decide) digits
      exact (digit_point digit rfl).1
  marked value := by
    refine ⟨0x65, ?_, .inr rfl⟩
    simp only [numberingRuntime, py, String.toList_append, List.map_append, List.mem_append]
    exact .inl (by decide)

/-- `canonical_json_identifies` applies to arguments in two orders. -/
theorem canonical_json_identifies_orders :
    SameValue (.object [(py "name", .str (py "a")), (py "size", .int 1)])
      (.object [(py "size", .int 1), (py "name", .str (py "a"))]) := by
  have wellFormed : ∀ members : List (PyStr × Json), (members.map Prod.fst).Nodup →
      (∀ member ∈ members, isContainer member.2 = false) → WellFormed (.object members) := by
    intro members distinct each
    exact .object distinct fun member present => .scalar (each member present)
  exact ((canonical_json_identifies numberingRuntime numberingRuntime_forms).1 _ _ 100
    (py "\x7b\"name\":\"a\",\"size\":1\x7d") _ (wellFormed _ (by decide) (by decide))
    (wellFormed _ (by decide) (by decide)) (by decide +kernel) (by decide +kernel)).mp rfl

end Nexora.Tools
