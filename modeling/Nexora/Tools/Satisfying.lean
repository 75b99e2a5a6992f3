import Nexora.Tools.Raising

/-!
# What it means to satisfy a schema

The declared subset of JSON Schema, node by node, with the equality that enum membership is
judged by left open. JSON keeps booleans and numbers apart; Python's `==` takes `True` for 1 and
`False` for 0, alone and inside arrays and objects.
-/

namespace Nexora.Tools

open Nexora.Std Json

mutual

/-- JSON equality: numbers compare by value, objects without regard to the order of their
members, and a boolean equals itself alone. -/
def jsonEq : Json → Json → Bool
  | .null, right => right = .null
  | .bool left, right => right = .bool left
  | .str left, right => right = .str left
  | .array left, .array right => jsonEqItems left right
  | .array _, _ => false
  | .object left, .object right => left.length == right.length && jsonEqMembers left right
  | .object _, _ => false
  | .int left, right => isNumber right && numberEq (.int left) right
  | .float left, right => isNumber right && numberEq (.float left) right

/-- Item by item equality of two arrays. -/
def jsonEqItems : List Json → List Json → Bool
  | [], [] => true
  | left :: leftRest, right :: rightRest => jsonEq left right && jsonEqItems leftRest rightRest
  | _, _ => false

/-- Every member of the first object has an equal member in the second. -/
def jsonEqMembers : List (PyStr × Json) → List (PyStr × Json) → Bool
  | [], _ => true
  | (key, left) :: rest, right =>
    (match lookup key right with
    | some value => jsonEq left value
    | none => false) && jsonEqMembers rest right

end

/-- A number is not below the bound a node declares under one key, nor above the one it declares
under another. -/
structure WithinBounds (members : List (PyStr × Json)) (minimumKey maximumKey : PyStr)
    (number : Json) : Prop where
  least : ∀ low ∈ bound? members minimumKey, numberLt number low = false
  most : ∀ high ∈ bound? members maximumKey, numberLt high number = false

/-- The options of a node, if it declares any, are a list one of which is the value. -/
def IsOption (same : Json → Json → Bool) (members : List (PyStr × Json)) (value : Json) : Prop :=
  ∀ declared, lookup (py "enum") members = some declared →
    ∃ options, declared = .array options ∧ ∃ choice ∈ options, same value choice = true

/-- The properties a node declares. -/
def propertiesOf (members : List (PyStr × Json)) : List (PyStr × Json) :=
  match lookup (py "properties") members with
  | some (.object properties) => properties
  | _ => []

/-- The keys a node requires. -/
def requiredOf (members : List (PyStr × Json)) : List Json :=
  match lookup (py "required") members with
  | some (.array names) => names
  | _ => []

/-- A node declares a type. -/
def HasType (members : List (PyStr × Json)) (name : String) : Prop :=
  lookup (py "type") members = some (.str (py name))

/-- A value satisfies a schema. -/
inductive Satisfies (same : Json → Json → Bool) : Json → Json → Prop where
  | object {members given : List (PyStr × Json)} (type : HasType members "object")
      (required : ∀ key, .str key ∈ requiredOf members → key ∈ given.map Prod.fst)
      (known : lookup (py "additionalProperties") members = some (.bool true) ∨
        ∀ key ∈ given.map Prod.fst, key ∈ (propertiesOf members).map Prod.fst)
      (each : ∀ property ∈ propertiesOf members, ∀ part,
        lookup property.1 given = some part → Satisfies same property.2 part)
      (options : IsOption same members (.object given)) :
      Satisfies same (.object members) (.object given)
  | array {members : List (PyStr × Json)} {items : List Json} {child : Json}
      (type : HasType members "array")
      (length : WithinBounds members (py "minItems") (py "maxItems") (.int items.length))
      (declared : lookup (py "items") members = some child)
      (each : ∀ item ∈ items, Satisfies same child item)
      (options : IsOption same members (.array items)) :
      Satisfies same (.object members) (.array items)
  | string {members : List (PyStr × Json)} {text : PyStr} (type : HasType members "string")
      (length : WithinBounds members (py "minLength") (py "maxLength") (.int text.length))
      (options : IsOption same members (.str text)) : Satisfies same (.object members) (.str text)
  | integer {members : List (PyStr × Json)} {number : Int} (type : HasType members "integer")
      (size : WithinBounds members (py "minimum") (py "maximum") (.int number))
      (options : IsOption same members (.int number)) :
      Satisfies same (.object members) (.int number)
  | number {members : List (PyStr × Json)} {value : Json} (type : HasType members "number")
      (isNumber : isNumber value = true)
      (size : WithinBounds members (py "minimum") (py "maximum") value)
      (options : IsOption same members value) : Satisfies same (.object members) value
  | boolean {members : List (PyStr × Json)} {truth : Bool} (type : HasType members "boolean")
      (options : IsOption same members (.bool truth)) :
      Satisfies same (.object members) (.bool truth)
  | null {members : List (PyStr × Json)} (type : HasType members "null")
      (options : IsOption same members .null) : Satisfies same (.object members) .null

/-- Every part of a value that is compared with options is JSON-equal to one of them. -/
def OptionsMatch (schema value : Json) : Prop :=
  ∀ node part, Check.leave (.object node) part ∈ checks schema value → IsOption jsonEq node part

/-! ## The checks of one node -/

section Entry

variable {members : List (PyStr × Json)} {value : Json}

theorem exists_eq_ok {outcome : Except PyError Unit} :
    (∃ value, outcome = .ok value) ↔ outcome = .ok () :=
  ⟨fun passes => passes.elim fun _ same => same, fun same => ⟨(), same⟩⟩

theorem validateLength_eq_ok {length : Nat} {minimumKey maximumKey : PyStr} {short long : String} :
    validateLength length members minimumKey maximumKey short long = .ok () ↔
      WithinBounds members minimumKey maximumKey (.int length) := by
  simp only [validateLength, bind_eq_ok, raiseIf_eq_ok, exists_const, not_exists, not_and,
    Bool.not_eq_true]
  exact ⟨fun both => ⟨both.1, both.2⟩, fun bounds => ⟨bounds.least, bounds.most⟩⟩

theorem validateNumberBounds_eq_ok :
    validateNumberBounds value members = .ok () ↔
      WithinBounds members (py "minimum") (py "maximum") value := by
  simp only [validateNumberBounds, bind_eq_ok, raiseIf_eq_ok, exists_const, not_exists, not_and,
    Bool.not_eq_true]
  exact ⟨fun both => ⟨both.1, both.2⟩, fun bounds => ⟨bounds.least, bounds.most⟩⟩

theorem entry_object_iff (type : HasType members "object") :
    validateEntry members value = .ok () ↔
      ∃ given, value = .object given ∧ validateObjectValue given members = .ok () := by
  unfold validateEntry
  rw [type, orRaise, ok_bind, if_pos rfl]
  cases value <;> simp

theorem entry_array_iff (type : HasType members "array") {child : Json}
    (declared : lookup (py "items") members = some child) :
    validateEntry members value = .ok () ↔
      ∃ items, value = .array items ∧
        WithinBounds members (py "minItems") (py "maxItems") (.int items.length) := by
  unfold validateEntry
  rw [type, orRaise, ok_bind, if_neg (by decide), if_pos rfl]
  cases value <;> simp [declared, exists_eq_ok, validateLength_eq_ok]

theorem entry_string_iff (type : HasType members "string") :
    validateEntry members value = .ok () ↔
      ∃ text, value = .str text ∧
        WithinBounds members (py "minLength") (py "maxLength") (.int text.length) := by
  unfold validateEntry
  rw [type, orRaise, ok_bind, if_neg (by decide), if_neg (by decide)]
  unfold validateScalar
  rw [if_pos rfl]
  cases value <;> simp [validateLength_eq_ok]

theorem entry_integer_iff (type : HasType members "integer") :
    validateEntry members value = .ok () ↔
      ∃ number, value = .int number ∧
        WithinBounds members (py "minimum") (py "maximum") (.int number) := by
  unfold validateEntry
  rw [type, orRaise, ok_bind, if_neg (by decide), if_neg (by decide)]
  unfold validateScalar
  rw [if_neg (by decide), if_pos rfl]
  cases value <;> simp [isInteger, validateNumberBounds_eq_ok]

theorem entry_number_iff (type : HasType members "number") :
    validateEntry members value = .ok () ↔
      isNumber value = true ∧ WithinBounds members (py "minimum") (py "maximum") value := by
  unfold validateEntry
  rw [type, orRaise, ok_bind, if_neg (by decide), if_neg (by decide)]
  unfold validateScalar
  rw [if_neg (by decide), if_neg (by decide), if_pos rfl]
  simp [validateNumberBounds_eq_ok]

theorem entry_boolean_iff (type : HasType members "boolean") :
    validateEntry members value = .ok () ↔ ∃ truth, value = .bool truth := by
  unfold validateEntry
  rw [type, orRaise, ok_bind, if_neg (by decide), if_neg (by decide)]
  unfold validateScalar
  rw [if_neg (by decide), if_neg (by decide), if_neg (by decide), if_pos rfl]
  cases value <;> simp

theorem entry_null_iff (type : HasType members "null") :
    validateEntry members value = .ok () ↔ value = .null := by
  unfold validateEntry
  rw [type, orRaise, ok_bind, if_neg (by decide), if_neg (by decide)]
  unfold validateScalar
  rw [if_neg (by decide), if_neg (by decide), if_neg (by decide),
    if_neg (by decide)]
  simp

end Entry

/-- What a valid object node declares. -/
structure ObjectNode (members : List (PyStr × Json)) : Prop where
  properties : declaredProperties members = .ok (propertiesOf members)
  required : requiredKeys members = .ok (requiredOf members)
  texts : ∀ item ∈ requiredOf members, ∃ key, item = .str key
  additional : ∀ declared, lookup (py "additionalProperties") members = some declared →
    ∃ allowed, declared = .bool allowed

theorem objectNode_of_shape {members : List (PyStr × Json)}
    (passes : validateObjectShape members = .ok ()) : ObjectNode members := by
  rw [validateObjectShape, bind_eq_ok] at passes
  obtain ⟨properties, declared, passes⟩ := passes
  have isProperties : declaredProperties members = .ok (propertiesOf members) := by
    unfold declaredProperties at declared ⊢
    unfold propertiesOf
    split at declared
    · rename_i found
      simp [found]
    · rename_i found
      simp [found]
    · cases declared
  have additional : validateAdditional members = .ok () →
      ∀ declared, lookup (py "additionalProperties") members = some declared →
        ∃ allowed, declared = .bool allowed := by
    intro passes declared found
    rw [validateAdditional, found] at passes
    cases declared with
    | bool allowed => exact ⟨allowed, rfl⟩
    | null | int | float | str | array | object => cases passes
  cases required : lookup (py "required") members with
  | none =>
    rw [required] at passes
    exact ⟨isProperties, by simp [requiredKeys, requiredOf, required],
      by simp [requiredOf, required], additional passes⟩
  | some names =>
    rw [required] at passes
    cases names with
    | array names =>
      simp only [bind_eq_ok, raiseIf_eq_ok] at passes
      obtain ⟨_, texts, _, _, passes⟩ := passes
      refine ⟨isProperties, by simp [requiredKeys, requiredOf, required], ?_,
        additional passes⟩
      intro item member
      simp only [requiredOf, required] at member
      cases item with
      | str key => exact ⟨key, rfl⟩
      | null | bool | int | float | array | object =>
        refine absurd (List.any_eq_true.mpr ⟨_, member, ?_⟩) texts
        rfl
    | null | bool | int | float | str | object => cases passes

/-- An object passes the keywords of a valid object node exactly if it has the required members
and, unless others are allowed, declared ones alone. -/
theorem validateObjectValue_eq_ok {members given : List (PyStr × Json)} (node : ObjectNode members) :
    validateObjectValue given members = .ok () ↔
      (∀ key, .str key ∈ requiredOf members → key ∈ given.map Prod.fst) ∧
      (lookup (py "additionalProperties") members = some (.bool true) ∨
        ∀ key ∈ given.map Prod.fst, key ∈ (propertiesOf members).map Prod.fst) := by
  simp only [validateObjectValue, node.properties, node.required, ok_bind, bind_eq_ok,
    raiseIf_eq_ok, exists_const]
  apply and_congr
  · rw [Bool.not_eq_true, List.any_eq_false]
    constructor
    · intro present key member
      have found := present _ member
      by_contra absent
      rw [isMissing, lookup_eq_none.mpr absent] at found
      exact found rfl
    · intro present item member
      obtain ⟨key, rfl⟩ := node.texts item member
      have found := present key member
      rw [isMissing, Option.isNone_iff_eq_none, lookup_eq_none]
      exact not_not.mpr found
  · have known : hasOtherKey given ((propertiesOf members).map Prod.fst) = false ↔
        ∀ key ∈ given.map Prod.fst, key ∈ (propertiesOf members).map Prod.fst := by
      simp [hasOtherKey]
    rw [not_and, Bool.not_eq_true, known]
    cases found : lookup (py "additionalProperties") members with
    | none => simp
    | some declared =>
      obtain ⟨allowed, rfl⟩ := node.additional declared found
      cases allowed <;> simp

/-! ## All checks -/

/-- A check passes, with membership in an `enum` judged by an equality. -/
def Check.Passes (same : Json → Json → Bool) : Check → Prop
  | .enter (.object members) value => validateEntry members value = .ok ()
  | .leave (.object members) value => IsOption same members value
  | _ => False

theorem validateEnum_eq_ok {members : List (PyStr × Json)} {value : Json} :
    validateEnum value members = .ok () ↔ IsOption pyEq members value := by
  unfold validateEnum IsOption
  cases found : lookup (py "enum") members with
  | none => simp
  | some declared => cases declared <;> simp

/-- The code's checks are those by Python's equality. -/
theorem run_eq_ok (check : Check) : check.run = .ok () ↔ check.Passes pyEq := by
  cases check with
  | enter schema value => cases schema <;> simp [Check.run, Check.Passes]
  | leave schema value => cases schema <;> simp [Check.run, Check.Passes, validateEnum_eq_ok]

theorem mem_checksOfMembers {members : List (PyStr × Json)} {value : Json} {check : Check} :
    check ∈ checksOfMembers value members ↔
      ∃ property ∈ propertiesOf members, ∃ part, value.get? property.1 = some part ∧
        check ∈ checks property.2 part := by
  rw [checksOfMembers_eq, propertiesOf]
  cases lookup (py "properties") members with
  | none => simp
  | some declared =>
    rw [Option.elim_some]
    cases declared with
    | object properties => rw [checksOfProperties, mem_checksOfEach]
    | null | bool | int | float | str | array =>
      rw [checksOfProperties]
      · simp
      all_goals intro _ same; cases same

/-- The checks of a value against a node: its own, those below it, and its options. -/
theorem forall_checks_iff {condition : Check → Prop} {members : List (PyStr × Json)}
    {value : Json} :
    (∀ check ∈ checks (.object members) value, condition check) ↔
      condition (.enter (.object members) value) ∧
      (HasType members "object" → ∀ property ∈ propertiesOf members, ∀ part,
        value.get? property.1 = some part → ∀ check ∈ checks property.2 part, condition check) ∧
      (HasType members "array" → ∀ child, lookup (py "items") members = some child →
        ∀ item ∈ itemsOf value, ∀ check ∈ checks child item, condition check) ∧
      condition (.leave (.object members) value) := by
  rw [checks, List.cons_append, List.forall_mem_cons, List.forall_mem_append,
    List.forall_mem_singleton]
  apply and_congr_right
  intro _
  rw [← and_assoc]
  apply and_congr_left
  intro _
  by_cases isObjectType : HasType members "object"
  · have notArray : ¬ HasType members "array" := by
      unfold HasType at isObjectType ⊢
      rw [isObjectType]
      decide
    rw [if_pos (show lookup (py "type") members = _ from isObjectType)]
    simp only [isObjectType, notArray, true_imp_iff, false_imp_iff, and_true, mem_checksOfMembers]
    constructor
    · intro each property present part found check member
      exact each check ⟨property, present, part, found, member⟩
    · rintro each check ⟨property, present, part, found, member⟩
      exact each property present part found check member
  · rw [if_neg (show ¬ lookup (py "type") members = _ from isObjectType)]
    by_cases isArrayType : HasType members "array"
    · rw [if_pos (show lookup (py "type") members = _ from isArrayType), checksOfItems_eq]
      simp only [isObjectType, isArrayType, true_imp_iff, false_imp_iff, true_and]
      cases lookup (py "items") members with
      | none => simp
      | some child =>
        simp only [Option.elim_some, List.mem_flatMap, Option.some.injEq, forall_eq']
        constructor
        · intro each item present check member
          exact each check ⟨item, present, member⟩
        · rintro each check ⟨item, present, member⟩
          exact each item present check member
    · rw [if_neg (show ¬ lookup (py "type") members = _ from isArrayType)]
      simp [isObjectType, isArrayType]

/-- A node declares one type. -/
theorem HasType.unique {members : List (PyStr × Json)} {first second : String}
    (one : HasType members first) (other : HasType members second) : py first = py second := by
  have same := one.symm.trans other
  simpa using same

/-- The properties of an accepted object node are accepted, and smaller. -/
theorem AcceptedNode.property {members : List (PyStr × Json)} (node : AcceptedNode members)
    (type : HasType members "object") {property : PyStr × Json}
    (present : property ∈ propertiesOf members) :
    Accepted property.2 ∧ sizeOf property.2 < sizeOf (Json.object members) := by
  unfold propertiesOf at present
  split at present
  · rename_i properties found
    obtain ⟨declared, same, each⟩ := node.properties type _ found
    cases same
    exact ⟨each property present, (sizeOf_member present).trans (sizeOf_lookup found)⟩
  · cases present

/-- **A value satisfies an accepted schema exactly if it passes every check**, whatever equality
membership in an `enum` is judged by. -/
theorem satisfies_iff_checks (same : Json → Json → Bool) {schema : Json}
    (accepted : Accepted schema) (value : Json) :
    Satisfies same schema value ↔ ∀ check ∈ checks schema value, check.Passes same := by
  induction schema using smallerInduction generalizing value with
  | each schema ih =>
    obtain ⟨members, rfl, node⟩ := accepted.node
    rw [forall_checks_iff]
    have noObject : ∀ {name : String}, HasType members name → py name ≠ py "object" →
        HasType members "object" → ∀ property ∈ propertiesOf members, ∀ part,
          value.get? property.1 = some part →
            ∀ check ∈ checks property.2 part, check.Passes same := by
      intro name type other isObjectType
      exact absurd (type.unique isObjectType) other
    have noArray : ∀ {name : String}, HasType members name → py name ≠ py "array" →
        HasType members "array" → ∀ child, lookup (py "items") members = some child →
          ∀ item ∈ itemsOf value, ∀ check ∈ checks child item, check.Passes same := by
      intro name type other isArrayType
      exact absurd (type.unique isArrayType) other
    constructor
    · intro satisfies
      cases satisfies with
      | object type required known each options =>
        have shape := objectNode_of_shape (node.valid.object type)
        refine ⟨(entry_object_iff type).mpr ⟨_, rfl,
          (validateObjectValue_eq_ok shape).mpr ⟨required, known⟩⟩, ?_,
          noArray type (by decide), options⟩
        intro _ property present part found
        obtain ⟨below, smaller⟩ := node.property type present
        exact (ih property.2 smaller below part).mp
          (each property present part found)
      | array type length declared each options =>
        refine ⟨(entry_array_iff type declared).mpr ⟨_, rfl, length⟩,
          noObject type (by decide), ?_, options⟩
        intro _ child found item present
        obtain ⟨_, isChild, below⟩ := node.items type
        rw [found, Option.some.injEq] at declared isChild
        subst declared
        subst isChild
        exact (ih child (sizeOf_lookup found) below item).mp
          (each item present)
      | string type length options =>
        exact ⟨(entry_string_iff type).mpr ⟨_, rfl, length⟩, noObject type (by decide),
          noArray type (by decide), options⟩
      | integer type size options =>
        exact ⟨(entry_integer_iff type).mpr ⟨_, rfl, size⟩, noObject type (by decide),
          noArray type (by decide), options⟩
      | number type isNumber size options =>
        exact ⟨(entry_number_iff type).mpr ⟨isNumber, size⟩, noObject type (by decide),
          noArray type (by decide), options⟩
      | boolean type options =>
        exact ⟨(entry_boolean_iff type).mpr ⟨_, rfl⟩, noObject type (by decide),
          noArray type (by decide), options⟩
      | null type options =>
        exact ⟨(entry_null_iff type).mpr rfl, noObject type (by decide),
          noArray type (by decide), options⟩
    · rintro ⟨enters, below, items, leaves⟩
      obtain ⟨valueType, listed, type⟩ := node.valid.declared
      simp only [jsonTypes, List.mem_cons, List.not_mem_nil, or_false] at listed
      rcases listed with rfl | rfl | rfl | rfl | rfl | rfl | rfl
      · obtain ⟨given, rfl, own⟩ := (entry_object_iff type).mp enters
        have shape := objectNode_of_shape (node.valid.object type)
        obtain ⟨required, known⟩ := (validateObjectValue_eq_ok shape).mp own
        refine .object type required known ?_ leaves
        intro property present part found
        obtain ⟨isAccepted, smaller⟩ := node.property type present
        exact (ih property.2 smaller isAccepted part).mpr
          (below type property present part found)
      · obtain ⟨child, found, isAccepted⟩ := node.items type
        obtain ⟨elements, rfl, length⟩ := (entry_array_iff type found).mp enters
        refine .array type length found ?_ leaves
        intro item present
        exact (ih child (sizeOf_lookup found) isAccepted item).mpr
          (items type child found item present)
      · obtain ⟨text, rfl, length⟩ := (entry_string_iff type).mp enters
        exact .string type length leaves
      · obtain ⟨number, rfl, size⟩ := (entry_integer_iff type).mp enters
        exact .integer type size leaves
      · obtain ⟨isNumber, size⟩ := (entry_number_iff type).mp enters
        exact .number type isNumber size leaves
      · obtain ⟨truth, rfl⟩ := (entry_boolean_iff type).mp enters
        exact .boolean type leaves
      · obtain rfl := (entry_null_iff type).mp enters
        exact .null type leaves

/-- The code accepts what satisfies the schema under Python's equality. -/
theorem validateValue_eq_ok {schema : Json} (accepted : Accepted schema) (value : Json) :
    validateValue schema value = .ok () ↔ Satisfies pyEq schema value := by
  rw [← goThrough_checks, goThrough_eq_ok, satisfies_iff_checks pyEq accepted]
  simp only [run_eq_ok]

/-! ## The two equalities -/

theorem pyEqItems_of_jsonEqItems {left right : List Json}
    (each : ∀ item ∈ left, ∀ other, jsonEq item other = true → pyEq item other = true)
    (same : jsonEqItems left right = true) : pyEqItems left right = true := by
  induction left generalizing right with
  | nil => cases right <;> simp_all [jsonEqItems, pyEqItems]
  | cons item rest ih =>
    cases right with
    | nil => simp [jsonEqItems] at same
    | cons other others =>
      rw [jsonEqItems, Bool.and_eq_true] at same
      rw [List.forall_mem_cons] at each
      rw [pyEqItems, each.1 other same.1, ih each.2 same.2]
      rfl

theorem pyEqMembers_of_jsonEqMembers {left right : List (PyStr × Json)}
    (each : ∀ member ∈ left, ∀ other, jsonEq member.2 other = true → pyEq member.2 other = true)
    (same : jsonEqMembers left right = true) : pyEqMembers left right = true := by
  induction left with
  | nil => simp [pyEqMembers]
  | cons member rest ih =>
    rw [jsonEqMembers, Bool.and_eq_true] at same
    rw [List.forall_mem_cons] at each
    rw [pyEqMembers, ih each.2 same.2, Bool.and_true]
    cases found : lookup member.1 right with
    | none => simp [found] at same
    | some other =>
      rw [found] at same
      exact each.1 other same.1

/-- Values that are equal in JSON are equal in Python. -/
theorem pyEq_of_jsonEq {left : Json} : ∀ right, jsonEq left right = true →
    pyEq left right = true := by
  induction left using smallerInduction with
  | each left ih =>
    intro right same
    cases left with
    | null => simpa [jsonEq, pyEq] using same
    | bool truth =>
      obtain rfl : right = .bool truth := by simpa [jsonEq] using same
      cases truth <;> decide
    | str text => simpa [jsonEq, pyEq] using same
    | int number =>
      rw [jsonEq, Bool.and_eq_true] at same
      exact same.2
    | float number =>
      rw [jsonEq, Bool.and_eq_true] at same
      exact same.2
    | array items =>
      cases right with
      | array others =>
        rw [pyEq]
        rw [jsonEq] at same
        apply pyEqItems_of_jsonEqItems _ same
        intro item present
        exact ih item (sizeOf_item present)
      | null | bool | int | float | str | object => simp [jsonEq] at same
    | object members =>
      cases right with
      | object others =>
        rw [jsonEq, Bool.and_eq_true] at same
        rw [pyEq, same.1, Bool.true_and]
        apply pyEqMembers_of_jsonEqMembers _ same.2
        intro member present
        exact ih member.2 (sizeOf_member present)
      | null | bool | int | float | str | array => simp [jsonEq] at same

theorem IsOption.python {members : List (PyStr × Json)} {value : Json}
    (isOption : IsOption jsonEq members value) : IsOption pyEq members value := by
  intro declared found
  obtain ⟨options, isList, choice, present, same⟩ := isOption declared found
  exact ⟨options, isList, choice, present, pyEq_of_jsonEq choice same⟩

/-- A check by a node's own keywords compares no options. -/
theorem enter_passes {first second : Json → Json → Bool} {schema value : Json}
    (passes : (Check.enter schema value).Passes first) :
    (Check.enter schema value).Passes second := by
  cases schema <;> exact passes

theorem Check.Passes.python {check : Check} (passes : check.Passes jsonEq) :
    check.Passes pyEq := by
  cases check with
  | enter schema value => exact enter_passes passes
  | leave schema value =>
    cases schema with
    | object members => exact IsOption.python passes
    | null | bool | int | float | str | array => exact passes

/-- **When validation accepts exactly what satisfies the schema.** -/
theorem validation_exact_iff (runtime : Runtime) (schema : Json) (sideEffect : Option SideEffect)
    (output : Bool)
    (registered : validateRegistrationSchema runtime schema sideEffect output = .ok ())
    (value : Json) :
    (validateValue schema value = .ok () ↔ Satisfies jsonEq schema value) ↔
      (Satisfies pyEq schema value → OptionsMatch schema value) := by
  have accepted := accepted_of_registered registered
  rw [validateValue_eq_ok accepted]
  constructor
  · intro exact_ satisfies node part member
    exact (satisfies_iff_checks jsonEq accepted value).mp (exact_.mp satisfies) _ member
  · intro options
    constructor
    · intro satisfies
      have python := (satisfies_iff_checks pyEq accepted value).mp satisfies
      apply (satisfies_iff_checks jsonEq accepted value).mpr
      intro check member
      cases check with
      | enter node part => exact enter_passes (python _ member)
      | leave node part =>
        cases node with
        | object members => exact options satisfies members part member
        | null | bool | int | float | str | array => exact python _ member
    · intro satisfies
      apply (satisfies_iff_checks pyEq accepted value).mpr
      intro check member
      exact ((satisfies_iff_checks jsonEq accepted value).mp satisfies check member).python

/-- An integer node whose options are `true` and 2. -/
def oddOptions : List (PyStr × Json) :=
  [(py "type", .str (py "integer")), (py "enum", .array [.bool true, .int 2])]

/-- `validation_exact_iff` applies where the property is left out. -/
theorem validation_exact_iff_absent :
    validateValue (.object (schemaOf oddOptions)) (.object []) = .ok () ↔
      Satisfies jsonEq (.object (schemaOf oddOptions)) (.object []) := by
  have registered : validateRegistrationSchema plainRuntime (.object (schemaOf oddOptions)) none
      false = .ok () := by
    decide +kernel
  apply (validation_exact_iff plainRuntime _ none false registered _).mpr
  have satisfies : Satisfies jsonEq (.object (schemaOf oddOptions)) (.object []) := by
    refine .object rfl ?_ (.inr ?_) ?_ ?_
    · intro key member
      cases member
    · intro key member
      cases member
    · intro property _ part found
      cases found
    · intro declared found
      cases found
  intro _ node part member
  exact (satisfies_iff_checks jsonEq (accepted_of_registered registered) _).mp satisfies _ member

/-- The integer 1 is accepted where the options are `true` and 2. -/
theorem one_accepted_for_true :
    ¬ ∀ (runtime : Runtime) (schema : Json) (sideEffect : Option SideEffect) (output : Bool),
        validateRegistrationSchema runtime schema sideEffect output = .ok () → ∀ value,
          (validateValue schema value = .ok () ↔ Satisfies jsonEq schema value) := by
  intro always
  have satisfies := (always plainRuntime (.object (schemaOf oddOptions)) none false
    (by decide +kernel) (.object [(py "flag", .int 1)])).mp (by decide +kernel)
  cases satisfies with
  | object _ _ _ each _ =>
    have one := each (py "flag", .object oddOptions) List.mem_cons_self (.int 1) rfl
    have options : IsOption jsonEq oddOptions (.int 1) := by
      cases one with
      | integer _ _ options => exact options
      | number _ _ _ options => exact options
    obtain ⟨choices, isList, choice, present, same⟩ := options _ rfl
    cases isList
    simp only [List.mem_cons, List.not_mem_nil, or_false] at present
    rcases present with rfl | rfl
    · exact absurd same (by decide)
    · exact absurd same (by decide)
  | number _ isNumber => cases isNumber

end Nexora.Tools
