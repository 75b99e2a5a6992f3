import Nexora.Data.Members
import Nexora.Std.Walks
import Nexora.Tools.Contracts

/-!
# Validation as a walk

A schema is validated node by node, a node before the nodes below it, and a value is validated
against a schema in the same order, except that a node's `enum` comes last. Both are walks over
lists of checks that can be written down before any of them is made, so which exception leaves
them is a question about the first check that fails.
-/

namespace Nexora.Tools

open Nexora.Std Json

/-- Compositions of checks, bracketed to the right. -/
theorem bind_bind {Error α β γ : Type} (first : Except Error α) (second : α → Except Error β)
    (third : β → Except Error γ) :
    (first >>= second >>= third) = first >>= fun value => second value >>= third := by
  cases first <;> rfl

theorem ok_bind {Error α β : Type} (value : α) (next : α → Except Error β) :
    (Except.ok value >>= next) = next value := rfl

theorem bind_ok {Error : Type} (first : Except Error Unit) :
    (first >>= fun _ => .ok ()) = first := by
  cases first <;> rfl

/-- Two compositions that agree once their first computation has passed. -/
theorem bind_congr_ok {Error α β : Type} {first : Except Error α} {next other : α → Except Error β}
    (same : ∀ value, first = .ok value → next value = other value) :
    (first >>= next) = first >>= other := by
  cases outcome : first with
  | error raised => rfl
  | ok value => exact same value outcome

/-! ## Schemas -/

/-- A node of a schema as it is come to: under the name of a property, if it is one. -/
structure Visit where
  name : Option PyStr
  root : Bool
  depth : Nat
  node : Json

/-- The checks of a node by its own keywords. -/
def validateNode (root : Bool) (members : List (PyStr × Json)) : Except PyError Unit := do
  let valueType ← validateNodeShape root members
  if valueType = py "object" then validateObjectShape members
  else if valueType = py "array" then do
    validateNonNegativeBounds members (py "minItems") (py "maxItems")
    raiseIf ((lookup (py "items") members).any isObject = false)
      (.toolContract "array_items_required")
  else if valueType = py "string" then
    validateNonNegativeBounds members (py "minLength") (py "maxLength")
  else if valueType ∈ [py "integer", py "number"] then validateNumberShape members
  else pure ()

/-- The checks of a node that look at no node below it. -/
def Visit.check (visit : Visit) : Except PyError Unit := do
  raiseIf (visit.name = some []) (.toolContract "invalid_schema_property_name")
  raiseIf (maxSchemaDepth < visit.depth) (.toolContract "schema_too_deep")
  match visit.node with
  | .object members => validateNode visit.root members
  | _ => .error (.toolContract "invalid_schema")

mutual

/-- The nodes of a schema, each before the nodes below it. -/
def visits (name : Option PyStr) (root : Bool) (depth : Nat) : Json → List Visit
  | .object members =>
    ⟨name, root, depth, .object members⟩ ::
      if lookup (py "type") members = some (.str (py "object")) then
        visitsOfProperties (depth + 1) members
      else if lookup (py "type") members = some (.str (py "array")) then
        visitsOfItems (depth + 1) members
      else []
  | node => [⟨name, root, depth, node⟩]

/-- The nodes under a node's `properties`. -/
def visitsOfProperties (depth : Nat) : List (PyStr × Json) → List Visit
  | [] => []
  | (key, value) :: rest =>
    if key = py "properties" then visitsOfObject depth value else visitsOfProperties depth rest

/-- The nodes of an object of properties. -/
def visitsOfObject (depth : Nat) : Json → List Visit
  | .object properties => visitsOfEach depth properties
  | _ => []

/-- The nodes of properties. -/
def visitsOfEach (depth : Nat) : List (PyStr × Json) → List Visit
  | [] => []
  | (name, child) :: rest => visits (some name) false depth child ++ visitsOfEach depth rest

/-- The nodes under a node's `items`. -/
def visitsOfItems (depth : Nat) : List (PyStr × Json) → List Visit
  | [] => []
  | (key, child) :: rest =>
    if key = py "items" then visits none false depth child else visitsOfItems depth rest

end

variable {members properties given : List (PyStr × Json)} {value : Json}

theorem validateNodeShape_type {root : Bool} {valueType : PyStr}
    (passes : validateNodeShape root members = .ok valueType) :
    lookup (py "type") members = some (.str valueType) := by
  simp only [validateNodeShape, bind_eq_ok] at passes
  obtain ⟨_, _, declared, isDeclared, rest⟩ := passes
  simp only [raiseIf_eq_ok, pure_eq_ok] at rest
  obtain ⟨_, _, _, _, _, _, _, _, _, _, _, _, rfl⟩ := rest
  unfold declaredType at isDeclared
  split at isDeclared
  · rename_i name found
    split at isDeclared
    · cases isDeclared
      exact found
    · cases isDeclared
  all_goals cases isDeclared

theorem visitsOfProperties_eq (depth : Nat) (members : List (PyStr × Json)) :
    visitsOfProperties depth members =
      (lookup (py "properties") members).elim [] (visitsOfObject depth) := by
  induction members with
  | nil => rfl
  | cons member rest ih =>
    rw [visitsOfProperties, lookup, ih]
    split <;> rfl

theorem validatePropertiesOf_eq (depth : Nat) (members : List (PyStr × Json)) :
    validatePropertiesOf depth members =
      (lookup (py "properties") members).elim (pure ()) (validatePropertyNodes depth) := by
  induction members with
  | nil => rfl
  | cons member rest ih =>
    rw [validatePropertiesOf, lookup, ih]
    split <;> rfl

theorem visitsOfItems_eq (depth : Nat) (members : List (PyStr × Json)) :
    visitsOfItems depth members =
      (lookup (py "items") members).elim [] (visits none false depth) := by
  induction members with
  | nil => rfl
  | cons member rest ih =>
    rw [visitsOfItems, lookup, ih]
    split <;> rfl

theorem validateItemsOf_object (depth : Nat) {node : List (PyStr × Json)}
    (found : lookup (py "items") members = some (.object node)) :
    validateItemsOf depth members = validateSchemaNode false depth (.object node) := by
  induction members with
  | nil => cases found
  | cons member rest ih =>
    obtain ⟨key, child⟩ := member
    rw [lookup] at found
    by_cases same : key = py "items"
    · rw [if_pos same] at found
      cases found
      rw [validateItemsOf, if_pos same]
    · rw [if_neg same] at found
      cases child <;> simp only [validateItemsOf, if_neg same, ih found]

theorem validateItemsOf_refused (depth : Nat)
    (refused : (lookup (py "items") members).any isObject = false) :
    validateItemsOf depth members = .error (.toolContract "array_items_required") := by
  induction members with
  | nil => rfl
  | cons member rest ih =>
    obtain ⟨key, child⟩ := member
    rw [lookup] at refused
    by_cases same : key = py "items"
    · rw [if_pos same] at refused
      cases child with
      | object node => cases refused
      | null | bool | int | float | str | array => simp only [validateItemsOf, if_pos same]
    · rw [if_neg same] at refused
      cases child <;> simp only [validateItemsOf, if_neg same, ih refused]

/-- What an object node declares as its properties is an object. -/
theorem properties_object (passes : validateObjectShape members = .ok ())
    (found : lookup (py "properties") members = some value) :
    ∃ properties, value = .object properties := by
  simp only [validateObjectShape, bind_eq_ok] at passes
  obtain ⟨properties, declared, -⟩ := passes
  rw [declaredProperties, found] at declared
  cases value with
  | object properties => exact ⟨properties, rfl⟩
  | null | bool | int | float | str | array => cases declared

theorem goThrough_visitsOfEach {depth : Nat}
    (each : ∀ property ∈ properties,
      goThrough Visit.check (visits (some property.1) false depth property.2) =
        raiseIf (some property.1 = some []) (.toolContract "invalid_schema_property_name") >>=
          fun _ => validateSchemaNode false depth property.2) :
    goThrough Visit.check (visitsOfEach depth properties) = validateEachProperty depth properties := by
  induction properties with
  | nil => rfl
  | cons property rest ih =>
    rw [List.forall_mem_cons] at each
    rw [visitsOfEach, goThrough_append, each.1, ih each.2, validateEachProperty,
      bind_bind]
    simp only [Option.some.injEq]

/-- Validating a node that is come to under a name is walking through the nodes it holds. -/
theorem goThrough_visits (name : Option PyStr) (root : Bool) (depth : Nat) (node : Json) :
    goThrough Visit.check (visits name root depth node) =
      raiseIf (name = some []) (.toolContract "invalid_schema_property_name") >>= fun _ =>
        validateSchemaNode root depth node := by
  induction node using smallerInduction generalizing name root depth with
  | each node ih =>
    cases node with
    | object members =>
      rw [visits, goThrough, validateSchemaNode]
      simp only [Visit.check, validateNode, bind_bind]
      apply bind_congr_ok
      intro _ _
      apply bind_congr_ok
      intro _ _
      apply bind_congr_ok
      intro valueType shape
      rw [validateNodeShape_type shape]
      simp only [Option.some.injEq, Json.str.injEq]
      by_cases isObjectType : valueType = py "object"
      · simp only [if_pos isObjectType]
        apply bind_congr_ok
        intro _ passes
        rw [visitsOfProperties_eq, validatePropertiesOf_eq]
        cases found : lookup (py "properties") members with
        | none => rfl
        | some value =>
          obtain ⟨properties, rfl⟩ := properties_object passes found
          rw [Option.elim_some, Option.elim_some, visitsOfObject, validatePropertyNodes]
          apply goThrough_visitsOfEach
          intro property present
          have smaller := (sizeOf_member present).trans (sizeOf_lookup found)
          exact ih property.2 smaller _ _ _
      · simp only [if_neg isObjectType]
        by_cases isArrayType : valueType = py "array"
        · simp only [if_pos isArrayType, bind_bind]
          apply bind_congr_ok
          intro _ _
          cases isNode : (lookup (py "items") members).any isObject with
          | false =>
            rw [validateItemsOf_refused _ isNode]
            rfl
          | true =>
            obtain ⟨child, found, isObject⟩ := (Option.any_eq_true _ _).mp isNode
            cases child with
            | object node =>
              rw [visitsOfItems_eq, validateItemsOf_object _ found, found,
                Option.elim_some, ih _ (sizeOf_lookup found)]
              rfl
            | null | bool | int | float | str | array => cases isObject
        · simp only [if_neg isArrayType]
          rw [goThrough]
          split_ifs
          · exact bind_ok _
          · exact bind_ok _
          · rfl
    | null | bool | int | float | str | array =>
      rw [visits, goThrough, goThrough, Visit.check, validateSchemaNode]
      · simp only [bind_bind]
        rfl
      all_goals intro _ same; cases same

/-! ## Values -/

/-- A check of a value against a node: by its own keywords, before the nodes below it, or by its
`enum`, after them. -/
inductive Check where
  | enter (schema value : Json)
  | leave (schema value : Json)

/-- The checks of a value that look at no node below. -/
def validateEntry (members : List (PyStr × Json)) (value : Json) : Except PyError Unit := do
  let valueType ← orRaise (lookup (py "type") members) .keyError
  if valueType = .str (py "object") then
    match value with
    | .object given => validateObjectValue given members
    | _ => .error (.toolContract "schema_type_mismatch")
  else if valueType = .str (py "array") then
    match value with
    | .array items => do
        validateLength items.length members (py "minItems") (py "maxItems")
          "schema_array_too_short" "schema_array_too_long"
        raiseIf (items ≠ [] ∧ lookup (py "items") members = none) .keyError
    | _ => .error (.toolContract "schema_type_mismatch")
  else validateScalar valueType value members

/-- What a check comes to; a node that is no object cannot be asked for its type. -/
def Check.run : Check → Except PyError Unit
  | .enter (.object members) value => validateEntry members value
  | .leave (.object members) value => validateEnum value members
  | _ => .error .typeError

/-- The items of an array. -/
def itemsOf : Json → List Json
  | .array items => items
  | _ => []

mutual

/-- The checks of a value against a schema, in order. -/
def checks : (schema value : Json) → List Check
  | .object members, value =>
    .enter (.object members) value ::
      (if lookup (py "type") members = some (.str (py "object")) then
        checksOfMembers value members
      else if lookup (py "type") members = some (.str (py "array")) then
        checksOfItems value members
      else []) ++ [.leave (.object members) value]
  | schema, value => [.enter schema value]

/-- The checks of an object's members against the nodes under a node's `properties`. -/
def checksOfMembers (value : Json) : List (PyStr × Json) → List Check
  | [] => []
  | (key, node) :: rest =>
    if key = py "properties" then checksOfProperties value node else checksOfMembers value rest

/-- The checks of an object's members against an object of properties. -/
def checksOfProperties (value : Json) : Json → List Check
  | .object properties => checksOfEach value properties
  | _ => []

/-- The checks of an object's members against properties, where present. -/
def checksOfEach (value : Json) : List (PyStr × Json) → List Check
  | [] => []
  | (name, child) :: rest =>
    (match value.get? name with
    | some part => checks child part
    | none => []) ++ checksOfEach value rest

/-- The checks of an array's items against the node under a node's `items`. -/
def checksOfItems (value : Json) : List (PyStr × Json) → List Check
  | [] => []
  | (key, child) :: rest =>
    if key = py "items" then (itemsOf value).flatMap fun item => checks child item
    else checksOfItems value rest

end

theorem checksOfMembers_eq (value : Json) (members : List (PyStr × Json)) :
    checksOfMembers value members =
      (lookup (py "properties") members).elim [] (checksOfProperties value) := by
  induction members with
  | nil =>
    rw [checksOfMembers]
    rfl
  | cons member rest ih =>
    rw [checksOfMembers, lookup, ih]
    split <;> rfl

theorem validateMembers_eq (given members : List (PyStr × Json)) :
    validateMembers given members =
      (lookup (py "properties") members).elim (pure ()) (validateProperties given) := by
  induction members with
  | nil =>
    rw [validateMembers]
    rfl
  | cons member rest ih =>
    rw [validateMembers, lookup, ih]
    split <;> rfl

theorem checksOfItems_eq (value : Json) (members : List (PyStr × Json)) :
    checksOfItems value members =
      (lookup (py "items") members).elim [] fun child =>
        (itemsOf value).flatMap fun item => checks child item := by
  induction members with
  | nil =>
    rw [checksOfItems]
    rfl
  | cons member rest ih =>
    rw [checksOfItems, lookup, ih]
    split <;> rfl

theorem validateItems_eq (items : List Json) (members : List (PyStr × Json)) :
    validateItems items members =
      (lookup (py "items") members).elim (raiseIf (items ≠ []) .keyError) fun child =>
        items.forM (validateValue child) := by
  induction members with
  | nil =>
    rw [validateItems]
    rfl
  | cons member rest ih =>
    rw [validateItems, lookup, ih]
    split <;> rfl

theorem goThrough_checksOfEach
    (each : ∀ property ∈ properties, ∀ value,
      goThrough Check.run (checks property.2 value) = validateValue property.2 value) :
    goThrough Check.run (checksOfEach (.object given) properties) = validateEach given properties := by
  induction properties with
  | nil =>
    rw [checksOfEach, validateEach]
    rfl
  | cons property rest ih =>
    rw [List.forall_mem_cons] at each
    rw [checksOfEach, goThrough_append, ih each.2, validateEach, get?]
    cases lookup property.1 given with
    | none => rfl
    | some value => simp only [each.1 value]

theorem goThrough_checksOfItems {child : Json}
    (each : ∀ value, goThrough Check.run (checks child value) = validateValue child value)
    (items : List Json) :
    goThrough Check.run (items.flatMap (checks child)) = items.forM (validateValue child) := by
  induction items with
  | nil => rfl
  | cons item rest ih =>
    rw [List.flatMap_cons, goThrough_append, each, ih]
    rfl

/-- What an object node's values are checked against is an object. -/
theorem properties_object_of_value (passes : validateObjectValue given members = .ok ())
    (found : lookup (py "properties") members = some value) :
    ∃ properties, value = .object properties := by
  simp only [validateObjectValue, bind_eq_ok] at passes
  obtain ⟨properties, declared, -⟩ := passes
  rw [declaredProperties, found] at declared
  cases value with
  | object properties => exact ⟨properties, rfl⟩
  | null | bool | int | float | str | array => cases declared

/-- Validating a value is walking through its checks. -/
theorem goThrough_checks (schema value : Json) :
    goThrough Check.run (checks schema value) = validateValue schema value := by
  induction schema using smallerInduction generalizing value with
  | each schema ih =>
    cases schema with
    | object members =>
      rw [checks, validateValue, List.cons_append, goThrough, goThrough_append]
      simp only [Check.run, validateEntry, bind_bind]
      apply bind_congr_ok
      intro valueType declared
      replace declared := (orRaise_eq_ok _ _ _).mp declared
      have last : ∀ first : Except PyError Unit,
          (first >>= fun _ => goThrough Check.run [.leave (.object members) value]) =
            first >>= fun _ => validateEnum value members := by
        intro first
        simp only [goThrough, Check.run, bind_ok]
      simp only [declared, Option.some.injEq, last]
      by_cases isObjectType : valueType = .str (py "object")
      · simp only [if_pos isObjectType]
        cases value with
        | object given =>
          apply bind_congr_ok
          intro _ passes
          rw [checksOfMembers_eq, validateMembers_eq]
          cases found : lookup (py "properties") members with
          | none => rfl
          | some node =>
            obtain ⟨properties, rfl⟩ := properties_object_of_value passes found
            rw [Option.elim_some, Option.elim_some, checksOfProperties,
              validateProperties, goThrough_checksOfEach]
            intro property present part
            have smaller := (sizeOf_member present).trans (sizeOf_lookup found)
            exact ih property.2 smaller part
        | null | bool | int | float | str | array => rfl
      · simp only [if_neg isObjectType]
        by_cases isArrayType : valueType = .str (py "array")
        · simp only [if_pos isArrayType]
          cases value with
          | array items =>
            simp only [bind_bind]
            apply bind_congr_ok
            intro _ _
            rw [checksOfItems_eq, validateItems_eq]
            cases found : lookup (py "items") members with
            | none =>
              simp only [and_true, Option.elim_none]
              rfl
            | some child =>
              rw [Option.elim_some, Option.elim_some, itemsOf,
                goThrough_checksOfItems (ih child (sizeOf_lookup found))]
              simp only [reduceCtorEq, and_false]
              rfl
          | null | bool | int | float | str | object => rfl
        · simp only [if_neg isArrayType]
          rfl
    | null | bool | int | float | str | array =>
      rw [checks, goThrough, goThrough, validateValue]
      · rfl
      all_goals intro _ same; cases same

end Nexora.Tools
