import Nexora.Tools.Printing
import Nexora.Tools.Validation

/-!
# What leaves the schema code

Callers handle `ToolContractError` alone. Three other exceptions can leave the code: the one of a
text that UTF-8 cannot encode, the one of a type that cannot be looked up, and the one of an
`enum` that is `null`, which registration takes for an absent one and validation does not.
-/

namespace Nexora.Tools

open Nexora.Std Json

/-- Whatever is raised is a `ToolContractError`. -/
def FailsByContract {α : Type} (outcome : Except PyError α) : Prop :=
  ∀ raised, outcome = .error raised → ∃ code, raised = .toolContract code

/-- A value that JSON cannot encode, or all of whose strings UTF-8 can. -/
def EncodesOrRefused (runtime : Runtime) (value : Json) : Prop :=
  runtime.recursionLimit < value.depth ∨ value.hasUnencodable = true ∨ value.hasSurrogate = false

/-- A value has a canonical encoding within a size. -/
def IsEncoded (runtime : Runtime) (value : Json) (maxBytes : Nat) : Prop :=
  ∃ encoded, canonicalJson runtime value maxBytes = .ok encoded

/-- A node that declares a list or an object as its type, and breaks no rule that is checked
before the type. -/
structure Visit.DeclaresContainer (visit : Visit) (members : List (PyStr × Json)) : Prop where
  named : visit.name ≠ some []
  shallow : visit.depth ≤ maxSchemaDepth
  isObject : visit.node = .object members
  supported : hasOtherKey members (if visit.root then inputSchemaKeys else valueSchemaKeys) = false
  declares : (lookup (py "type") members).any isContainer = true

/-- The root of a schema has the type and the keywords registration asks for first. -/
def RootAdmitted (members : List (PyStr × Json)) (output : Bool) : Prop :=
  lookup (py "type") members = some (.str (py "object")) ∧
    hasOtherKey members (if output then valueSchemaKeys else inputSchemaKeys) = false

/-- Registration comes to no node that declares a list or an object as its type. -/
def TypesLookedUp (runtime : Runtime) (members : List (PyStr × Json)) (output : Bool) : Prop :=
  IsEncoded runtime (.object members) maxSchemaBytes → RootAdmitted members output →
    ∀ visit node, Reached Visit.check visit (visits none true 0 (.object members)) →
      ¬ visit.DeclaresContainer node

/-- Validation comes to no part of a value that is left to be checked against a `null` enum. -/
def NoNullEnum (schema value : Json) : Prop :=
  ∀ node part, Reached Check.run (.leave node part) (checks schema value) →
    node.get? (py "enum") ≠ some .null

section Rules

variable {α β : Type} {raised : PyError} {next : α → Except PyError β} {first : Except PyError α}

theorem FailsByContract.ok (value : α) : FailsByContract (.ok value : Except PyError α) := by
  intro raised fails
  cases fails

theorem FailsByContract.contract (code : String) :
    FailsByContract (.error (.toolContract code) : Except PyError α) := by
  intro raised fails
  cases fails
  exact ⟨code, rfl⟩

theorem FailsByContract.raiseIf (condition : Prop) [Decidable condition] (code : String) :
    FailsByContract (Std.raiseIf condition (.toolContract code) : Except PyError Unit) := by
  unfold Std.raiseIf
  split
  · exact .contract code
  · exact .ok _

/-- A sequence fails by contract if its first part does and its second part does once the first
has passed. -/
theorem FailsByContract.bind (isFirst : FailsByContract first)
    (isNext : ∀ value, first = .ok value → FailsByContract (next value)) :
    FailsByContract (first >>= next) := by
  cases outcome : first with
  | error failure =>
    intro raised fails
    cases fails
    exact isFirst failure outcome
  | ok value => exact isNext value outcome

/-- A sequence whose first part fails by contract does so exactly if its second part does once the
first has passed. -/
theorem FailsByContract.bind_iff (isFirst : FailsByContract first) :
    FailsByContract (first >>= next) ↔
      ∀ value, first = .ok value → FailsByContract (next value) := by
  constructor
  · intro both value passes
    rw [passes] at both
    exact both
  · exact isFirst.bind

/-- A sequence fails by contract exactly if its first part does, and its second part does once the
first has passed. -/
theorem FailsByContract.bind_iff_and :
    FailsByContract (first >>= next) ↔
      FailsByContract first ∧ ∀ value, first = .ok value → FailsByContract (next value) := by
  constructor
  · intro both
    have isFirst : FailsByContract first := by
      intro raised fails
      exact both raised (by rw [fails]; rfl)
    exact ⟨isFirst, isFirst.bind_iff.mp both⟩
  · rintro ⟨isFirst, isNext⟩
    exact isFirst.bind isNext

/-- A walk fails by contract exactly if every check it comes to does. -/
theorem FailsByContract.walk_iff {Item : Type} {check : Item → Except PyError Unit}
    {items : List Item} :
    FailsByContract (goThrough check items) ↔
      ∀ item, Reached check item items → FailsByContract (check item) := by
  constructor
  · intro whole item reached raised fails
    exact whole raised (goThrough_eq_error.mpr ⟨item, reached, fails⟩)
  · intro each raised fails
    obtain ⟨item, reached, fails⟩ := goThrough_eq_error.mp fails
    exact each item reached raised fails

end Rules

/-- The canonical encoding fails by contract exactly where it does not come to a text that UTF-8
cannot encode. -/
theorem canonicalJson_fails_iff (runtime : Runtime) (value : Json) (maxBytes : Nat) :
    FailsByContract (canonicalJson runtime value maxBytes) ↔ EncodesOrRefused runtime value := by
  rw [canonicalJson, FailsByContract.bind_iff (.raiseIf _ _)]
  simp only [raiseIf_eq_ok, not_or, not_lt, Bool.not_eq_true, dumps_surrogate]
  cases letters : value.hasSurrogate with
  | false =>
    refine iff_of_true ?_ (.inr (.inr letters))
    intro _ _
    refine .bind ?_ fun _ _ => .bind (.raiseIf _ _) fun _ _ => .ok _
    intro raised fails
    simp [Std.raiseIf] at fails
  | true =>
    constructor
    · intro each
      by_contra refused
      simp only [EncodesOrRefused, letters, not_or, not_lt, Bool.not_eq_true] at refused
      obtain ⟨code, impossible⟩ := each () ⟨refused.1, refused.2.1⟩ .unicodeEncodeError rfl
      cases impossible
    · rintro (deep | number | text)
      · intro _ encodes
        exact absurd deep (Nat.not_lt.mpr encodes.1)
      · intro _ encodes
        rw [number] at encodes
        cases encodes.2
      · rw [letters] at text
        cases text

/-! ## Registration -/

theorem declaredType_fails_iff (members : List (PyStr × Json)) :
    FailsByContract (declaredType members) ↔
      (lookup (py "type") members).any isContainer = false := by
  rw [declaredType]
  split
  case h_1 name found =>
    rw [found]
    refine iff_of_true ?_ (by simp [isContainer])
    split
    · exact .ok _
    · exact .contract _
  case h_2 | h_3 =>
    rename_i found
    rw [found]
    refine iff_of_false ?_ (by simp [isContainer])
    intro each
    obtain ⟨code, impossible⟩ := each _ rfl
    cases impossible
  case h_4 noText noArray noObject =>
    refine iff_of_true (.contract _) ?_
    cases found : lookup (py "type") members with
    | none => simp
    | some declared =>
      cases declared with
      | array items => exact absurd found (noArray items)
      | object node => exact absurd found (noObject node)
      | null | bool | int | float | str => simp [isContainer]

theorem validateNonNegativeBounds_fails (members : List (PyStr × Json)) (minimumKey maximumKey : PyStr) :
    FailsByContract (validateNonNegativeBounds members minimumKey maximumKey) :=
  .bind (.raiseIf _ _) fun _ _ => .raiseIf _ _

theorem validateNumberShape_fails (members : List (PyStr × Json)) :
    FailsByContract (validateNumberShape members) :=
  .bind (.raiseIf _ _) fun _ _ => .raiseIf _ _

theorem declaredProperties_fails (members : List (PyStr × Json)) :
    FailsByContract (declaredProperties members) := by
  unfold declaredProperties
  split
  · exact .ok _
  · exact .ok _
  · exact .contract _

/-- The last check of an object node: other members are allowed or not. -/
def validateAdditional (members : List (PyStr × Json)) : Except PyError Unit :=
  match lookup (py "additionalProperties") members with
  | none | some (.bool _) => pure ()
  | some _ => .error (.toolContract "unsupported_additional_properties")

theorem validateObjectShape_fails (members : List (PyStr × Json)) :
    FailsByContract (validateObjectShape members) := by
  unfold validateObjectShape
  apply FailsByContract.bind (declaredProperties_fails members)
  intro properties _
  have additional : FailsByContract (validateAdditional members) := by
    unfold validateAdditional
    split
    · exact .ok _
    · exact .ok _
    · exact .contract _
  cases lookup (py "required") members with
  | none => exact additional
  | some required =>
    cases required with
    | array names =>
      exact .bind (.raiseIf _ _) fun _ _ => .bind (.raiseIf _ _) fun _ _ => additional
    | null | bool | int | float | str | object => exact .contract _

/-- A node fails by contract exactly if its type can be looked up, unless it is refused first. -/
theorem visit_fails_iff (visit : Visit) :
    FailsByContract visit.check ↔ ∀ members, ¬ visit.DeclaresContainer members := by
  obtain ⟨name, root, depth, node⟩ := visit
  rw [Visit.check, FailsByContract.bind_iff (.raiseIf _ _)]
  simp only [FailsByContract.bind_iff (FailsByContract.raiseIf _ _), raiseIf_eq_ok]
  cases node with
  | object members =>
    have others : ∀ valueType, FailsByContract (do
        if valueType = py "object" then validateObjectShape members
        else if valueType = py "array" then do
          validateNonNegativeBounds members (py "minItems") (py "maxItems")
          raiseIf ((lookup (py "items") members).any isObject = false)
            (.toolContract "array_items_required")
        else if valueType = py "string" then
          validateNonNegativeBounds members (py "minLength") (py "maxLength")
        else if valueType ∈ [py "integer", py "number"] then validateNumberShape members
        else pure ()) := by
      intro valueType
      split_ifs
      · exact validateObjectShape_fails members
      · exact .bind (validateNonNegativeBounds_fails _ _ _) fun _ _ => .raiseIf _ _
      · exact validateNonNegativeBounds_fails _ _ _
      · exact validateNumberShape_fails members
      · exact .ok _
    have shape : FailsByContract (validateNodeShape root members) ↔
        (hasOtherKey members (if root then inputSchemaKeys else valueSchemaKeys) = false →
          (lookup (py "type") members).any isContainer = false) := by
      rw [validateNodeShape, FailsByContract.bind_iff (.raiseIf _ _)]
      simp only [raiseIf_eq_ok, Bool.not_eq_true]
      constructor
      · intro each supported
        rw [← declaredType_fails_iff]
        intro raised fails
        refine each () supported raised ?_
        rw [fails]
        rfl
      · intro each _ supported
        apply FailsByContract.bind ((declaredType_fails_iff members).mpr (each supported))
        intro valueType _
        iterate 6 refine .bind (.raiseIf _ _) fun _ _ => ?_
        exact .ok _
    simp only [validateNode]
    constructor
    · intro each children declares
      cases declares.isObject
      have looked : FailsByContract (validateNodeShape root members) := by
        intro raised fails
        refine each () declares.named () (Nat.not_lt.mpr declares.shallow) raised ?_
        rw [fails]
        rfl
      have declared := declares.declares
      rw [shape.mp looked declares.supported] at declared
      cases declared
    · intro none _ named _ shallow
      apply FailsByContract.bind (shape.mpr _) fun valueType _ => others valueType
      intro supported
      by_contra declares
      exact none members ⟨named, Nat.not_lt.mp shallow, rfl, supported,
        (Bool.not_eq_false _).mp declares⟩
  | null | bool | int | float | str | array =>
    refine iff_of_true (fun _ _ _ _ => .contract _) ?_
    intro members declares
    cases declares.isObject

theorem validateSchemaNode_eq_walk (root : Bool) (depth : Nat) (node : Json) :
    validateSchemaNode root depth node = goThrough Visit.check (visits none root depth node) := by
  rw [goThrough_visits]
  rfl

/-- Registration fails by contract exactly if what it encodes is text, and it comes to no type
that cannot be looked up. -/
theorem registration_fails_iff (runtime : Runtime) (members : List (PyStr × Json))
    (sideEffect : Option SideEffect) (output : Bool) :
    FailsByContract (validateRegistrationSchema runtime (.object members) sideEffect output) ↔
      EncodesOrRefused runtime (.object members) ∧ TypesLookedUp runtime members output := by
  rw [validateRegistrationSchema, FailsByContract.bind_iff_and, canonicalJson_fails_iff]
  apply and_congr_right
  intro _
  have admitted : FailsByContract (validateSchemaNode true 0 (.object members)) ↔
      ∀ visit node, Reached Visit.check visit (visits none true 0 (.object members)) →
        ¬ visit.DeclaresContainer node := by
    rw [validateSchemaNode_eq_walk, FailsByContract.walk_iff]
    simp only [visit_fails_iff]
    constructor
    · intro each visit node reached
      exact each visit reached node
    · intro each visit reached node
      exact each visit node reached
  have rest : FailsByContract (do
      raiseIf (lookup (py "type") members ≠ some (.str (py "object")))
        (.toolContract "schema_root_must_be_object")
      raiseIf (hasOtherKey members (if output then valueSchemaKeys else inputSchemaKeys) = true)
        (.toolContract "unsupported_schema_keyword")
      validateSchemaNode true 0 (.object members)
      raiseIf (output = false ∧ lookup (py "additionalProperties") members ≠ some (.bool false))
        (.toolContract "input_schema_must_forbid_unknown_fields")
      raiseIf (output = false ∧ (∃ effect ∈ sideEffect, effect ≠ .read) ∧
          hasIdempotencyKey (.object members) = false)
        (.toolContract "mutation_requires_idempotency_key")) ↔
      (RootAdmitted members output →
        FailsByContract (validateSchemaNode true 0 (.object members))) := by
    rw [FailsByContract.bind_iff (.raiseIf _ _)]
    simp only [FailsByContract.bind_iff (FailsByContract.raiseIf _ _), raiseIf_eq_ok,
      FailsByContract.bind_iff_and]
    constructor
    · intro each root
      exact (each () (not_not.mpr root.1) () (by simp [root.2])).1
    · intro each _ isObject _ supported
      refine ⟨each ⟨not_not.mp isObject, by simpa using supported⟩, ?_⟩
      intro _ _ _ _
      exact .raiseIf _ _
  constructor
  · rintro each ⟨encoded, encodes⟩ root
    exact admitted.mp (rest.mp (each encoded encodes) root)
  · intro types encoded encodes
    exact rest.mpr fun root => admitted.mpr (types ⟨encoded, encodes⟩ root)

/-! ## Values -/

/-- A schema all of whose nodes pass their checks. -/
def Accepted (schema : Json) : Prop :=
  ∃ name root depth, ∀ visit ∈ visits name root depth schema, visit.check = .ok ()

variable {schema : Json} {properties : List (PyStr × Json)}

/-- A schema that registration accepts. -/
theorem accepted_of_registered {runtime : Runtime} {sideEffect : Option SideEffect} {output : Bool}
    (registered : validateRegistrationSchema runtime schema sideEffect output = .ok ()) :
    Accepted schema := by
  cases schema with
  | object members =>
    simp only [validateRegistrationSchema, bind_eq_ok, raiseIf_eq_ok] at registered
    obtain ⟨_, _, _, _, _, _, _, passes, _⟩ := registered
    rw [validateSchemaNode_eq_walk, goThrough_eq_ok] at passes
    exact ⟨_, _, _, passes⟩
  | null | bool | int | float | str | array =>
    simp [validateRegistrationSchema] at registered

theorem mem_visitsOfEach {depth : Nat} {visit : Visit} :
    visit ∈ visitsOfEach depth properties ↔
      ∃ property ∈ properties, visit ∈ visits (some property.1) false depth property.2 := by
  induction properties with
  | nil => simp [visitsOfEach]
  | cons property rest ih =>
    rw [visitsOfEach, List.mem_append, ih, List.exists_mem_cons_iff]

theorem mem_checksOfEach {value : Json} {check : Check} :
    check ∈ checksOfEach value properties ↔
      ∃ property ∈ properties, ∃ part, value.get? property.1 = some part ∧
        check ∈ checks property.2 part := by
  induction properties with
  | nil => simp [checksOfEach]
  | cons property rest ih =>
    rw [checksOfEach, List.mem_append, ih, List.exists_mem_cons_iff]
    cases value.get? property.1 <;> simp

/-- What the checks of a node by its own keywords leave. -/
structure ValidNode (members : List (PyStr × Json)) : Prop where
  declared : ∃ valueType ∈ jsonTypes, lookup (py "type") members = some (.str valueType)
  options : ∀ options ∈ bound? members (py "enum"), isNonEmptyList options = true
  object : lookup (py "type") members = some (.str (py "object")) →
    validateObjectShape members = .ok ()
  array : lookup (py "type") members = some (.str (py "array")) →
    (lookup (py "items") members).any isObject = true

variable {members : List (PyStr × Json)}

theorem validNode_of_validateNode {root : Bool} (valid : validateNode root members = .ok ()) :
    ValidNode members := by
  rw [validateNode, bind_eq_ok] at valid
  obtain ⟨valueType, shape, rest⟩ := valid
  have declared := validateNodeShape_type shape
  rw [validateNodeShape, bind_eq_ok] at shape
  obtain ⟨_, _, shape⟩ := shape
  rw [bind_eq_ok] at shape
  obtain ⟨name, isName, shape⟩ := shape
  have listed : name ∈ jsonTypes ∧ lookup (py "type") members = some (.str name) := by
    unfold declaredType at isName
    split at isName
    · rename_i text found
      split at isName
      · rename_i member
        cases isName
        exact ⟨member, found⟩
      · cases isName
    all_goals cases isName
  simp only [bind_eq_ok, raiseIf_eq_ok] at shape
  obtain ⟨_, _, _, options, _⟩ := shape
  refine ⟨⟨name, listed⟩, ?_, ?_, ?_⟩
  · intro value member
    by_contra empty
    exact options ⟨value, member, (Bool.not_eq_true _).mp empty⟩
  · intro isObjectType
    rw [declared, Option.some.injEq, Json.str.injEq] at isObjectType
    rw [if_pos isObjectType] at rest
    exact rest
  · intro isArrayType
    rw [declared, Option.some.injEq, Json.str.injEq] at isArrayType
    have notObject : py "array" ≠ py "object" := by decide
    rw [isArrayType, if_neg notObject, if_pos rfl] at rest
    simp only [bind_eq_ok, raiseIf_eq_ok, Bool.not_eq_false] at rest
    exact rest.choose_spec.2

/-- The checks of an accepted node, and the accepted nodes below it. -/
structure AcceptedNode (members : List (PyStr × Json)) : Prop where
  valid : ValidNode members
  properties : lookup (py "type") members = some (.str (py "object")) →
    ∀ value, lookup (py "properties") members = some value →
      ∃ properties, value = .object properties ∧ ∀ property ∈ properties, Accepted property.2
  items : lookup (py "type") members = some (.str (py "array")) →
    ∃ child, lookup (py "items") members = some child ∧ Accepted child

/-- An accepted schema is a node whose own keywords pass and whose nodes below are accepted. -/
theorem Accepted.node (accepted : Accepted schema) :
    ∃ members, schema = .object members ∧ AcceptedNode members := by
  obtain ⟨name, root, depth, passes⟩ := accepted
  cases schema with
  | object members =>
    rw [visits, List.forall_mem_cons] at passes
    obtain ⟨own, below⟩ := passes
    simp only [Visit.check, bind_eq_ok] at own
    obtain ⟨_, _, _, _, valid⟩ := own
    replace valid := validNode_of_validateNode valid
    refine ⟨members, rfl, valid, ?_, ?_⟩
    · intro isObjectType value found
      rw [if_pos isObjectType, visitsOfProperties_eq, found] at below
      obtain ⟨properties, rfl⟩ := properties_object (valid.object isObjectType) found
      refine ⟨properties, rfl, ?_⟩
      intro property present
      refine ⟨some property.1, false, depth + 1, ?_⟩
      intro visit member
      apply below
      rw [Option.elim_some, visitsOfObject]
      exact mem_visitsOfEach.mpr ⟨property, present, member⟩
    · intro isArrayType
      have notObject : lookup (py "type") members ≠ some (.str (py "object")) := by
        rw [isArrayType]
        decide
      obtain ⟨child, found, _⟩ := (Option.any_eq_true _ _).mp (valid.array isArrayType)
      rw [if_neg notObject, if_pos isArrayType, visitsOfItems_eq, found] at below
      exact ⟨child, found, _, _, _, below⟩
  | null | bool | int | float | str | array =>
    have own := passes _ (by simp [visits]; rfl)
    simp [Visit.check] at own

/-- Every check of a value against an accepted schema is one against a valid node. -/
theorem Accepted.valid_of_mem (accepted : Accepted schema) (value : Json) {check : Check}
    (member : check ∈ checks schema value) :
    ∃ members, ValidNode members ∧
      ∃ part, check = .enter (.object members) part ∨ check = .leave (.object members) part := by
  induction schema using smallerInduction generalizing value with
  | each schema ih =>
    obtain ⟨members, rfl, node⟩ := accepted.node
    rw [checks, List.cons_append, List.mem_cons, List.mem_append, List.mem_singleton] at member
    rcases member with enters | below | leaves
    · exact ⟨members, node.valid, value, .inl enters⟩
    · split_ifs at below with isObjectType isArrayType
      · rw [checksOfMembers_eq] at below
        cases found : lookup (py "properties") members with
        | none => simp [found] at below
        | some declared =>
          obtain ⟨properties, rfl, each⟩ := node.properties isObjectType declared found
          rw [found, Option.elim_some, checksOfProperties] at below
          obtain ⟨property, present, part, _, below⟩ := mem_checksOfEach.mp below
          have smaller := (sizeOf_member present).trans (sizeOf_lookup found)
          exact ih property.2 smaller (each property present) part below
      · obtain ⟨child, found, below'⟩ := node.items isArrayType
        rw [checksOfItems_eq, found, Option.elim_some] at below
        obtain ⟨item, _, below⟩ := List.mem_flatMap.mp below
        exact ih child (sizeOf_lookup found) below' item below
      · cases below
    · exact ⟨members, node.valid, value, .inr leaves⟩

theorem validateLength_fails (length : Nat) (members : List (PyStr × Json))
    (minimumKey maximumKey : PyStr) (short long : String) :
    FailsByContract (validateLength length members minimumKey maximumKey short long) :=
  .bind (.raiseIf _ _) fun _ _ => .raiseIf _ _

theorem validateNumberBounds_fails (value : Json) (members : List (PyStr × Json)) :
    FailsByContract (validateNumberBounds value members) :=
  .bind (.raiseIf _ _) fun _ _ => .raiseIf _ _

theorem validateScalar_fails (valueType value : Json) (members : List (PyStr × Json)) :
    FailsByContract (validateScalar valueType value members) := by
  unfold validateScalar
  split_ifs
  · cases value with
    | str text => exact validateLength_fails _ _ _ _ _ _
    | null | bool | int | float | array | object => exact .contract _
  · exact .bind (.raiseIf _ _) fun _ _ => validateNumberBounds_fails _ _
  · exact .bind (.raiseIf _ _) fun _ _ => validateNumberBounds_fails _ _
  · cases value with
    | bool truth => exact .ok _
    | null | int | float | str | array | object => exact .contract _
  · exact .raiseIf _ _

/-- A valid object node declares a list of required keys, or none. -/
theorem requiredKeys_of_valid (passes : validateObjectShape members = .ok ()) :
    FailsByContract (requiredKeys members) := by
  rw [validateObjectShape, bind_eq_ok] at passes
  obtain ⟨properties, _, passes⟩ := passes
  unfold requiredKeys
  cases required : lookup (py "required") members with
  | none => exact .ok _
  | some declared =>
    rw [required] at passes
    cases declared with
    | array names => exact .ok _
    | null | bool | int | float | str | object => cases passes

/-- A value fails by contract against the keywords of a valid node. -/
theorem validateEntry_fails (valid : ValidNode members) (value : Json) :
    FailsByContract (validateEntry members value) := by
  obtain ⟨valueType, _, declared⟩ := valid.declared
  unfold validateEntry
  rw [declared]
  refine FailsByContract.bind (.ok _) fun name isName => ?_
  cases isName
  split_ifs with isObjectType isArrayType
  · cases value with
    | object given =>
      refine .bind (declaredProperties_fails members) fun properties _ => ?_
      refine .bind (requiredKeys_of_valid (valid.object ?_)) fun required _ => ?_
      · rw [declared, isObjectType]
      · exact .bind (.raiseIf _ _) fun _ _ => .raiseIf _ _
    | null | bool | int | float | str | array => exact .contract _
  · cases value with
    | array items =>
      refine .bind (validateLength_fails _ _ _ _ _ _) fun _ _ => ?_
      obtain ⟨child, found, _⟩ := (Option.any_eq_true _ _).mp
        (valid.array (by rw [declared, isArrayType]))
      simp [found, raiseIf, FailsByContract]
    | null | bool | int | float | str | object => exact .contract _
  · exact validateScalar_fails _ _ _

/-- A value fails by contract against the options of a valid node unless they are `null`. -/
theorem validateEnum_fails_iff (valid : ValidNode members) (value : Json) :
    FailsByContract (validateEnum value members) ↔
      lookup (py "enum") members ≠ some .null := by
  have options := valid.options
  unfold validateEnum
  unfold bound? at options
  cases found : lookup (py "enum") members with
  | none => exact iff_of_true (.ok _) (by simp)
  | some declared =>
    rw [found] at options
    cases declared with
    | array choices => exact iff_of_true (.raiseIf _ _) (by simp)
    | null =>
      refine iff_of_false ?_ (by simp)
      intro each
      obtain ⟨code, impossible⟩ := each _ rfl
      cases impossible
    | bool | int | float | str | object =>
      have impossible := options _ (by simp [Option.filter]; rfl)
      simp [isNonEmptyList] at impossible

/-- Validation against an accepted schema fails by contract unless it comes to a `null` enum. -/
theorem validateValue_fails_iff (accepted : Accepted schema) (value : Json) :
    FailsByContract (validateValue schema value) ↔ NoNullEnum schema value := by
  rw [← goThrough_checks, FailsByContract.walk_iff]
  constructor
  · intro each node part reached isNull
    obtain ⟨members, valid, other, isEnter | isLeave⟩ := accepted.valid_of_mem value reached.mem
    · cases isEnter
    · cases isLeave
      exact (validateEnum_fails_iff valid part).mp (each _ reached) isNull
  · intro each check reached
    obtain ⟨members, valid, part, rfl | rfl⟩ := accepted.valid_of_mem value reached.mem
    · exact validateEntry_fails valid part
    · exact (validateEnum_fails_iff valid part).mpr (each _ _ reached)

/-- Arguments that are no object are refused before anything else. -/
theorem arguments_fail_iff (runtime : Runtime) (accepted : Accepted schema) (arguments : Json) :
    FailsByContract (validateArguments runtime arguments schema) ↔
      (isObject arguments = true → EncodesOrRefused runtime arguments ∧
        (IsEncoded runtime arguments maxArgumentBytes → NoNullEnum schema arguments)) := by
  rw [validateArguments, FailsByContract.bind_iff (.raiseIf _ _)]
  simp only [raiseIf_eq_ok, Bool.not_eq_false, hashArguments, FailsByContract.bind_iff_and,
    canonicalJson_fails_iff, validateValue_fails_iff accepted, bind_eq_ok, pure_eq_ok]
  constructor
  · intro each given
    obtain ⟨⟨encodes, -⟩, validates⟩ := each () given
    refine ⟨encodes, ?_⟩
    rintro ⟨encoded, isEncoded⟩
    exact (validates _ ⟨encoded, isEncoded, rfl⟩).1
  · intro each _ given
    obtain ⟨encodes, validates⟩ := each given
    refine ⟨⟨encodes, fun _ _ => .ok _⟩, ?_⟩
    rintro _ ⟨encoded, isEncoded, rfl⟩
    exact ⟨validates ⟨encoded, isEncoded⟩, fun _ _ => .ok _⟩

theorem result_fails_iff (runtime : Runtime) (accepted : Accepted schema) (result : Json) :
    FailsByContract (validateResult runtime result (some schema)) ↔
      EncodesOrRefused runtime result ∧
        (IsEncoded runtime result maxResultBytes → NoNullEnum schema result) := by
  rw [validateResult, FailsByContract.bind_iff_and, canonicalJson_fails_iff]
  apply and_congr_right
  intro _
  constructor
  · rintro each ⟨encoded, isEncoded⟩
    exact (validateValue_fails_iff accepted result).mp (each encoded isEncoded)
  · intro validates encoded isEncoded
    exact (validateValue_fails_iff accepted result).mpr (validates ⟨encoded, isEncoded⟩)

/-- **When schema code fails only with `ToolContractError`.** -/
theorem schema_code_fails_by_contract_iff (runtime : Runtime) :
    (∀ members sideEffect output,
      FailsByContract (validateRegistrationSchema runtime (.object members) sideEffect output) ↔
        EncodesOrRefused runtime (.object members) ∧ TypesLookedUp runtime members output) ∧
    ∀ schema sideEffect output,
      validateRegistrationSchema runtime schema sideEffect output = .ok () → ∀ value,
        (FailsByContract (validateArguments runtime value schema) ↔
          (isObject value = true → EncodesOrRefused runtime value ∧
            (IsEncoded runtime value maxArgumentBytes → NoNullEnum schema value))) ∧
        (FailsByContract (validateResult runtime value (some schema)) ↔
          EncodesOrRefused runtime value ∧
            (IsEncoded runtime value maxResultBytes → NoNullEnum schema value)) := by
  refine ⟨registration_fails_iff runtime, ?_⟩
  intro schema sideEffect output registered value
  have accepted := accepted_of_registered registered
  exact ⟨arguments_fail_iff runtime accepted value, result_fails_iff runtime accepted value⟩

/-- An interpreter for schemas without floats; nothing below reads a digest. -/
def plainRuntime : Runtime where
  floatRepr := fun _ => ""
  recursionLimit := 1000
  sha256 := fun _ => 0

/-- A schema with one property, which declares a node. -/
def schemaOf (node : List (PyStr × Json)) : List (PyStr × Json) :=
  [(py "type", .str (py "object")), (py "properties", .object [(py "flag", .object node)]),
    (py "additionalProperties", .bool false)]

/-- `schema_code_fails_by_contract_iff` applies to a text with an unpaired surrogate. -/
theorem schema_code_fails_by_contract_iff_surrogate :
    ¬ FailsByContract (validateArguments plainRuntime (.object [(py "flag", .str [0xd800])])
        (.object (schemaOf [(py "type", .str (py "string"))]))) := by
  intro fails
  obtain ⟨encodes, -⟩ := (((schema_code_fails_by_contract_iff plainRuntime).2
    (.object (schemaOf [(py "type", .str (py "string"))])) none false (by decide +kernel)
    (.object [(py "flag", .str [0xd800])])).1.mp fails) rfl
  rcases encodes with deep | number | text
  · exact absurd deep (by decide +kernel)
  · exact absurd number (by decide +kernel)
  · exact absurd text (by decide +kernel)

/-- A list of types, as JSON Schema allows it, raises `TypeError`. -/
theorem list_of_types_raises :
    ¬ ∀ runtime : Runtime,
      (∀ members sideEffect output,
        FailsByContract
          (validateRegistrationSchema runtime (.object members) sideEffect output)) ∧
      ∀ schema sideEffect output,
        validateRegistrationSchema runtime schema sideEffect output = .ok () → ∀ value,
          FailsByContract (validateArguments runtime value schema) ∧
          FailsByContract (validateResult runtime value (some schema)) := by
  intro always
  have raises : validateRegistrationSchema plainRuntime
      (.object (schemaOf [(py "type", .array [.str (py "string"), .str (py "null")])])) none false =
      .error .typeError := by
    decide +kernel
  obtain ⟨code, impossible⟩ := (always plainRuntime).1 _ none false _ raises
  cases impossible

end Nexora.Tools
