import Nexora.Std.Fallible
import Nexora.Data.Json

/-!
# Tool contracts

The JSON subset tool schemas are written in, the canonical encoding that arguments,
results and contracts are measured and hashed by, and the checks of a value against a
registered schema. A check either passes or raises; callers handle only
`ToolContractError`, so the other exceptions Python can raise on the way are kept
apart from it.
-/

namespace Nexora.Tools

open Nexora.Std Json

/-- What the interpreter supplies: the shortest decimal text of a float, how deep the
JSON encoder nests, and the SHA-256 digest of a text's UTF-8 encoding. -/
structure Runtime where
  floatRepr : Binary64 → String
  recursionLimit : Nat
  sha256 : PyStr → Nat

/-- An exception raised while a contract is checked. -/
inductive PyError where
  /-- `ToolContractError` with its code. -/
  | toolContract (code : String)
  | unicodeEncodeError
  | typeError
  | keyError
  | attributeError
  deriving DecidableEq, Repr

/-- The effect a tool declares it has outside the platform. -/
inductive SideEffect where
  | read
  | write
  | destructive
  | externalCommunication
  deriving DecidableEq, Repr

/-- The stored text of a side effect. -/
def SideEffect.text : SideEffect → String
  | .read => "read"
  | .write => "write"
  | .destructive => "destructive"
  | .externalCommunication => "external_communication"

/-- Largest canonical encoding of a call's arguments, in bytes. -/
def maxArgumentBytes : Nat := 32 * 1024

/-- Largest canonical encoding of a call's result, in bytes. -/
def maxResultBytes : Nat := 64 * 1024

/-- Largest canonical encoding of a schema, in bytes. -/
def maxSchemaBytes : Nat := 32 * 1024

/-- Largest canonical encoding of a tool contract, in bytes. -/
def maxContractBytes : Nat := 96 * 1024

/-- Deepest nesting of schema nodes. -/
def maxSchemaDepth : Nat := 16

/-- Bytes of a text's UTF-8 encoding. -/
def utf8Length (text : PyStr) : Nat :=
  (text.map fun point =>
    if point.val < 0x80 then 1 else if point.val < 0x800 then 2
    else if point.val < 0x10000 then 3 else 4).sum

/-- One code point inside a JSON string literal, as the encoder writes it when it may
emit non-ASCII text. -/
def escapePoint (point : Fin 0x110000) : PyStr :=
  if point = 0x22 then py "\\\""
  else if point = 0x5c then py "\\\\"
  else if point = 0x0a then py "\\n"
  else if point = 0x0d then py "\\r"
  else if point = 0x09 then py "\\t"
  else if point = 0x0c then py "\\f"
  else if point = 0x08 then py "\\b"
  else if point < 0x20 then
    py "\\u00" ++ py (String.ofList [Nat.digitChar (point.val / 16), Nat.digitChar (point.val % 16)])
  else [point]

/-- A JSON string literal. -/
def quoted (text : PyStr) : PyStr := py "\"" ++ text.flatMap escapePoint ++ py "\""

/-- Texts separated by commas. -/
def commaSeparated (texts : List PyStr) : PyStr := (texts.intersperse (py ",")).flatten

mutual

/-- `json.dumps` with sorted keys and no white space. -/
def dumps (runtime : Runtime) : Json → PyStr
  | .null => py "null"
  | .bool true => py "true"
  | .bool false => py "false"
  | .int value => py (toString value)
  | .float .nan => py "NaN"
  | .float (.infinite false) => py "Infinity"
  | .float (.infinite true) => py "-Infinity"
  | .float (.finite value) => py (runtime.floatRepr value)
  | .str value => quoted value
  | .array items => py "[" ++ commaSeparated (dumpsItems runtime items) ++ py "]"
  | .object members =>
    py "\x7b" ++ commaSeparated (((dumpsMembers runtime members).insertionSort
      fun left right => left.1 ≤ right.1).map fun member =>
        quoted member.1 ++ py ":" ++ member.2) ++ py "\x7d"

/-- The encodings of an array's items. -/
def dumpsItems (runtime : Runtime) : List Json → List PyStr
  | [] => []
  | item :: rest => dumps runtime item :: dumpsItems runtime rest

/-- The encodings of an object's values, under their keys. -/
def dumpsMembers (runtime : Runtime) : List (PyStr × Json) → List (PyStr × PyStr)
  | [] => []
  | (key, value) :: rest => (key, dumps runtime value) :: dumpsMembers runtime rest

end

/-- The canonical encoding of a value, if it has one within a size. Encoding it to
UTF-8 to measure it raises outside the handler that maps other failures. -/
def canonicalJson (runtime : Runtime) (value : Json) (maxBytes : Nat) : Except PyError PyStr := do
  raiseIf (runtime.recursionLimit < value.depth ∨ value.hasUnencodable = true)
    (.toolContract "invalid_json")
  let encoded := dumps runtime value
  raiseIf (encoded.any isSurrogate = true) .unicodeEncodeError
  raiseIf (maxBytes < utf8Length encoded) (.toolContract "payload_too_large")
  pure encoded

/-- The canonical encoding of a call's arguments and its digest. -/
def hashArguments (runtime : Runtime) (arguments : Json) : Except PyError (PyStr × Nat) := do
  let canonical ← canonicalJson runtime arguments maxArgumentBytes
  pure (canonical, runtime.sha256 canonical)

/-- The document a tool contract is hashed as. -/
def contractDocument (serverKey remoteName : String) (inputSchema : Json)
    (outputSchema : Option Json) (sideEffect : SideEffect) : Json :=
  .object [(py "server_key", .str (py serverKey)), (py "remote_name", .str (py remoteName)),
    (py "input_schema", inputSchema), (py "output_schema", outputSchema.getD .null),
    (py "side_effect", .str (py sideEffect.text))]

/-- The digest of a tool's governed contract. -/
def hashToolContract (runtime : Runtime) (serverKey remoteName : String) (inputSchema : Json)
    (outputSchema : Option Json) (sideEffect : SideEffect) : Except PyError Nat := do
  let canonical ← canonicalJson runtime
    (contractDocument serverKey remoteName inputSchema outputSchema sideEffect) maxContractBytes
  pure (runtime.sha256 canonical)

/-- Keywords of a root input schema. -/
def inputSchemaKeys : List PyStr :=
  [py "$schema", py "title", py "description", py "type", py "properties", py "required",
    py "additionalProperties"]

/-- Keywords of every other schema node. -/
def valueSchemaKeys : List PyStr :=
  [py "title", py "description", py "type", py "properties", py "required",
    py "additionalProperties", py "items", py "enum", py "minLength", py "maxLength",
    py "minimum", py "maximum", py "minItems", py "maxItems"]

/-- Types a schema node may declare. -/
def jsonTypes : List PyStr :=
  [py "object", py "array", py "string", py "integer", py "number", py "boolean", py "null"]

/-- Some of the keys occur among the members. -/
def hasAnyKey (members : List (PyStr × Json)) (keys : List PyStr) : Bool :=
  members.any fun member => member.1 ∈ keys

/-- Some member's key is none of the allowed ones. -/
def hasOtherKey (members : List (PyStr × Json)) (allowed : List PyStr) : Bool :=
  members.any fun member => member.1 ∉ allowed

/-- A member's value, where `None` counts as absent. -/
def bound? (members : List (PyStr × Json)) (key : PyStr) : Option Json :=
  (lookup key members).filter (· ≠ .null)

/-- `isinstance(value, int)` for a value that is no boolean. -/
def isInteger : Json → Bool
  | .int _ => true
  | _ => false

/-- `isinstance(value, (int, float))` for a value that is no boolean. -/
def isNumber : Json → Bool
  | .int _ | .float _ => true
  | _ => false

/-- `isinstance(value, str)`. -/
def isString : Json → Bool
  | .str _ => true
  | _ => false

/-- `isinstance(value, dict)`. -/
def isObject : Json → Bool
  | .object _ => true
  | _ => false

/-- A list with at least one item. -/
def isNonEmptyList : Json → Bool
  | .array (_ :: _) => true
  | _ => false

/-- The type a node declares; an unhashable one cannot be looked up among the types. -/
def declaredType (members : List (PyStr × Json)) : Except PyError PyStr :=
  match lookup (py "type") members with
  | some (.str name) =>
    if name ∈ jsonTypes then .ok name else .error (.toolContract "unsupported_schema_type")
  | some (.array _) | some (.object _) => .error .typeError
  | _ => .error (.toolContract "unsupported_schema_type")

/-- Size bounds are non-negative integers in order. -/
def validateNonNegativeBounds (members : List (PyStr × Json)) (minimumKey maximumKey : PyStr) :
    Except PyError Unit := do
  let minimum := bound? members minimumKey
  let maximum := bound? members maximumKey
  raiseIf (∃ value ∈ minimum.toList ++ maximum.toList,
      isInteger value = false ∨ numberLt value (.int 0) = true)
    (.toolContract "invalid_schema_size_bound")
  raiseIf (∃ low ∈ minimum, ∃ high ∈ maximum, numberLt high low = true)
    (.toolContract "invalid_schema_bounds")

/-- The checks of a schema node that look at no other node. -/
def validateNodeShape (root : Bool) (members : List (PyStr × Json)) : Except PyError PyStr := do
  raiseIf (hasOtherKey members (if root then inputSchemaKeys else valueSchemaKeys) = true)
    (.toolContract "unsupported_schema_keyword")
  let valueType ← declaredType members
  raiseIf (∃ key ∈ [py "title", py "description"],
      ∃ value ∈ lookup key members, isString value = false)
    (.toolContract "invalid_schema_metadata")
  raiseIf (∃ options ∈ bound? members (py "enum"), isNonEmptyList options = false)
    (.toolContract "invalid_schema_enum")
  raiseIf (valueType ≠ py "object" ∧
      hasAnyKey members [py "properties", py "required", py "additionalProperties"] = true)
    (.toolContract "schema_constraint_type_mismatch")
  raiseIf (valueType ≠ py "array" ∧
      hasAnyKey members [py "items", py "minItems", py "maxItems"] = true)
    (.toolContract "schema_constraint_type_mismatch")
  raiseIf (valueType ≠ py "string" ∧ hasAnyKey members [py "minLength", py "maxLength"] = true)
    (.toolContract "schema_constraint_type_mismatch")
  raiseIf (valueType ∉ [py "integer", py "number"] ∧
      hasAnyKey members [py "minimum", py "maximum"] = true)
    (.toolContract "schema_constraint_type_mismatch")
  pure valueType

/-- The declared properties of an object node. -/
def declaredProperties (members : List (PyStr × Json)) : Except PyError (List (PyStr × Json)) :=
  match lookup (py "properties") members with
  | none => .ok []
  | some (.object properties) => .ok properties
  | some _ => .error (.toolContract "invalid_schema_properties")

/-- The checks of an object node that do not enter its properties. -/
def validateObjectShape (members : List (PyStr × Json)) : Except PyError Unit := do
  let properties ← declaredProperties members
  match lookup (py "required") members with
  | none => pure ()
  | some (.array required) => do
      raiseIf (required.any (fun item => !isString item) = true)
        (.toolContract "invalid_schema_required")
      raiseIf (¬ required.Nodup ∨
          required.any (fun item => properties.all fun property => .str property.1 ≠ item) = true)
        (.toolContract "invalid_schema_required")
  | some _ => .error (.toolContract "invalid_schema_required")
  match lookup (py "additionalProperties") members with
  | none | some (.bool _) => pure ()
  | some _ => .error (.toolContract "unsupported_additional_properties")

/-- The bounds of a numeric node are numbers in order. -/
def validateNumberShape (members : List (PyStr × Json)) : Except PyError Unit := do
  let minimum := bound? members (py "minimum")
  let maximum := bound? members (py "maximum")
  raiseIf (∃ value ∈ minimum.toList ++ maximum.toList, isNumber value = false)
    (.toolContract "invalid_schema_number_bound")
  raiseIf (∃ low ∈ minimum, ∃ high ∈ maximum, numberLt high low = true)
    (.toolContract "invalid_schema_bounds")

mutual

/-- Every node of a schema is written in the supported subset, to the given depth. -/
def validateSchemaNode (root : Bool) (depth : Nat) : Json → Except PyError Unit
  | .object members => do
      raiseIf (maxSchemaDepth < depth) (.toolContract "schema_too_deep")
      let valueType ← validateNodeShape root members
      if valueType = py "object" then do
        validateObjectShape members
        validatePropertiesOf (depth + 1) members
      else if valueType = py "array" then do
        validateNonNegativeBounds members (py "minItems") (py "maxItems")
        validateItemsOf (depth + 1) members
      else if valueType = py "string" then
        validateNonNegativeBounds members (py "minLength") (py "maxLength")
      else if valueType ∈ [py "integer", py "number"] then
        validateNumberShape members
      else pure ()
  | _ => do
      raiseIf (maxSchemaDepth < depth) (.toolContract "schema_too_deep")
      .error (.toolContract "invalid_schema")

/-- The nodes under a node's `properties`. -/
def validatePropertiesOf (depth : Nat) : List (PyStr × Json) → Except PyError Unit
  | [] => pure ()
  | (key, value) :: rest =>
    if key = py "properties" then validatePropertyNodes depth value
    else validatePropertiesOf depth rest

/-- The property nodes of an object of properties. -/
def validatePropertyNodes (depth : Nat) : Json → Except PyError Unit
  | .object properties => validateEachProperty depth properties
  | _ => .error (.toolContract "invalid_schema_properties")

/-- Every property has a name and a valid node. -/
def validateEachProperty (depth : Nat) : List (PyStr × Json) → Except PyError Unit
  | [] => pure ()
  | (name, child) :: rest => do
      raiseIf (name = []) (.toolContract "invalid_schema_property_name")
      validateSchemaNode false depth child
      validateEachProperty depth rest

/-- The node under a node's `items`, which an array must declare. -/
def validateItemsOf (depth : Nat) : List (PyStr × Json) → Except PyError Unit
  | [] => .error (.toolContract "array_items_required")
  | (key, child) :: rest =>
    if key = py "items" then
      match child with
      | .object members => validateSchemaNode false depth (.object members)
      | _ => .error (.toolContract "array_items_required")
    else validateItemsOf depth rest

end

/-- A mutation must accept an idempotency key and require it. -/
def hasIdempotencyKey (schema : Json) : Bool :=
  let property := (schema.get? (py "properties")).bind fun properties =>
    properties.get? (py "idempotency_key")
  let required := match schema.get? (py "required") with
    | some (.array names) => names.any (· = .str (py "idempotency_key"))
    | _ => false
  (property.bind fun node => node.get? (py "type")) = some (.str (py "string")) && required

/-- The checks a schema passes before a tool that declares it is stored. -/
def validateRegistrationSchema (runtime : Runtime) (schema : Json) (sideEffect : Option SideEffect)
    (output : Bool) : Except PyError Unit := do
  let _ ← canonicalJson runtime schema maxSchemaBytes
  match schema with
  | .object members => do
      raiseIf (lookup (py "type") members ≠ some (.str (py "object")))
        (.toolContract "schema_root_must_be_object")
      raiseIf (hasOtherKey members (if output then valueSchemaKeys else inputSchemaKeys) = true)
        (.toolContract "unsupported_schema_keyword")
      -- The node check below holds an output schema's root to the input keywords too.
      validateSchemaNode true 0 (.object members)
      raiseIf (output = false ∧ lookup (py "additionalProperties") members ≠ some (.bool false))
        (.toolContract "input_schema_must_forbid_unknown_fields")
      raiseIf (output = false ∧ (∃ effect ∈ sideEffect, effect ≠ .read) ∧
          hasIdempotencyKey (.object members) = false)
        (.toolContract "mutation_requires_idempotency_key")
  | _ => .error .attributeError

/-- A number lies within a node's bounds. -/
def validateNumberBounds (value : Json) (members : List (PyStr × Json)) : Except PyError Unit := do
  raiseIf (∃ low ∈ bound? members (py "minimum"), numberLt value low = true)
    (.toolContract "schema_number_too_small")
  raiseIf (∃ high ∈ bound? members (py "maximum"), numberLt high value = true)
    (.toolContract "schema_number_too_large")

/-- A length lies within a node's size bounds. -/
def validateLength (length : Nat) (members : List (PyStr × Json)) (minimumKey maximumKey : PyStr)
    (short long : String) : Except PyError Unit := do
  raiseIf (∃ low ∈ bound? members minimumKey, numberLt (.int length) low = true)
    (.toolContract short)
  raiseIf (∃ high ∈ bound? members maximumKey, numberLt high (.int length) = true)
    (.toolContract long)

/-- The members of a node that every value of an object must have. -/
def requiredKeys (members : List (PyStr × Json)) : Except PyError (List Json) :=
  match lookup (py "required") members with
  | none => .ok []
  | some (.array required) => .ok required
  | some _ => .error .typeError

/-- A required key is missing from an object's members. -/
def isMissing (given : List (PyStr × Json)) : Json → Bool
  | .str key => (lookup key given).isNone
  | _ => true

/-- The checks of an object value that do not enter its members. -/
def validateObjectValue (given members : List (PyStr × Json)) : Except PyError Unit := do
  let properties ← declaredProperties members
  let required ← requiredKeys members
  raiseIf (required.any (isMissing given) = true) (.toolContract "schema_required_field_missing")
  raiseIf ((lookup (py "additionalProperties") members).getD (.bool false) = .bool false ∧
      hasOtherKey given (properties.map Prod.fst) = true)
    (.toolContract "schema_unknown_field")

/-- A value is one of a node's declared options. -/
def validateEnum (value : Json) (members : List (PyStr × Json)) : Except PyError Unit :=
  match lookup (py "enum") members with
  | none => pure ()
  | some (.array options) =>
    raiseIf (options.any (fun choice => pyEq value choice) = false)
      (.toolContract "schema_enum_mismatch")
  | some _ => .error .typeError

/-- The checks of a value against a node of any type that has no nodes below it. -/
def validateScalar (valueType value : Json) (members : List (PyStr × Json)) :
    Except PyError Unit :=
  if valueType = .str (py "string") then
    match value with
    | .str text =>
      validateLength text.length members (py "minLength") (py "maxLength")
        "schema_string_too_short" "schema_string_too_long"
    | _ => .error (.toolContract "schema_type_mismatch")
  else if valueType = .str (py "integer") then do
    raiseIf (isInteger value = false) (.toolContract "schema_type_mismatch")
    validateNumberBounds value members
  else if valueType = .str (py "number") then do
    raiseIf (isNumber value = false) (.toolContract "schema_type_mismatch")
    validateNumberBounds value members
  else if valueType = .str (py "boolean") then
    match value with
    | .bool _ => pure ()
    | _ => .error (.toolContract "schema_type_mismatch")
  else
    raiseIf (valueType = .str (py "null") ∧ value ≠ .null) (.toolContract "schema_type_mismatch")

mutual

/-- A value satisfies a schema node. -/
def validateValue : (schema value : Json) → Except PyError Unit
  | .object members, value => do
      let valueType ← orRaise (lookup (py "type") members) .keyError
      if valueType = .str (py "object") then
        match value with
        | .object given => do
            validateObjectValue given members
            validateMembers given members
        | _ => .error (.toolContract "schema_type_mismatch")
      else if valueType = .str (py "array") then
        match value with
        | .array items => do
            validateLength items.length members (py "minItems") (py "maxItems")
              "schema_array_too_short" "schema_array_too_long"
            validateItems items members
        | _ => .error (.toolContract "schema_type_mismatch")
      else validateScalar valueType value members
      validateEnum value members
  | _, _ => .error .typeError

/-- The members of an object value satisfy the nodes under a node's `properties`. -/
def validateMembers (given : List (PyStr × Json)) : List (PyStr × Json) → Except PyError Unit
  | [] => pure ()
  | (key, node) :: rest =>
    if key = py "properties" then validateProperties given node
    else validateMembers given rest

/-- The members of an object value satisfy the nodes of an object of properties. -/
def validateProperties (given : List (PyStr × Json)) : Json → Except PyError Unit
  | .object properties => validateEach given properties
  | _ => .error .attributeError

/-- The members of an object value satisfy each property's node, where present. -/
def validateEach (given : List (PyStr × Json)) : List (PyStr × Json) → Except PyError Unit
  | [] => pure ()
  | (name, child) :: rest => do
      match lookup name given with
      | some value => validateValue child value
      | none => pure ()
      validateEach given rest

/-- The items of an array value satisfy the node under a node's `items`. -/
def validateItems (items : List Json) : List (PyStr × Json) → Except PyError Unit
  | [] => raiseIf (items ≠ []) .keyError
  | (key, child) :: rest =>
    if key = py "items" then items.forM (validateValue child)
    else validateItems items rest

end

/-- The arguments of a call encode within the limit and satisfy the input schema. -/
def validateArguments (runtime : Runtime) (arguments schema : Json) :
    Except PyError (PyStr × Nat) := do
  raiseIf (isObject arguments = false) (.toolContract "arguments_must_be_object")
  let digest ← hashArguments runtime arguments
  validateValue schema arguments
  pure digest

/-- A call's result encodes within the limit and satisfies the output schema. -/
def validateResult (runtime : Runtime) (result : Json) (schema : Option Json) :
    Except PyError Unit := do
  let _ ← canonicalJson runtime result maxResultBytes
  match schema with
  | some outputSchema => validateValue outputSchema result
  | none => pure ()

end Nexora.Tools
