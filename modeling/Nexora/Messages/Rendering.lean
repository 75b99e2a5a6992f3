import Nexora.Messages.Printing

/-!
# Rendering messages

The renderer of parsed messages, and what a message should read: a `select` shows the option named
by its value and otherwise `other`, a `plural` its exact option, the option of the language's
category or `other`. Numbers and their formats are the runtime's.
-/

namespace Nexora.Messages

open Nexora.Std JsText

/-- The interface's languages. -/
inductive Locale where
  | tr
  | en
  deriving DecidableEq

/-- `LOCALE_TAGS`. -/
def Locale.tag : Locale → JsString
  | .tr => js "tr-TR"
  | .en => js "en-GB"

/-- What `Intl.PluralRules` selects. -/
inductive PluralCategory where
  | zero
  | one
  | two
  | few
  | many
  | other
  deriving DecidableEq

def PluralCategory.word : PluralCategory → JsString
  | .zero => js "zero"
  | .one => js "one"
  | .two => js "two"
  | .few => js "few"
  | .many => js "many"
  | .other => js "other"

/-- The runtime's numbers: their texts, their formats and their plural categories by language tag.
A formatted number holds no dollar sign, which a replacement would read as a pattern. -/
structure Runtime where
  Number : Type
  isFinite : Number → Bool
  /-- `String(number)`. -/
  text : Number → JsString
  /-- `Number(text)`. -/
  ofText : JsString → Number
  /-- `Number(undefined)`. -/
  nan : Number
  /-- `new Intl.NumberFormat(tag).format(number)`. -/
  format : JsString → Number → JsString
  /-- `new Intl.PluralRules(tag).select(number)`. -/
  select : JsString → Number → PluralCategory
  format_plain : ∀ tag number, (0x24 : Fin 0x10000) ∉ format tag number

/-- A value of an argument. -/
inductive Value (Number : Type) where
  | string (text : JsString)
  | number (number : Number)

/-- What a replacement text stands for at a match, between what is before it and what is behind. -/
def substitution (matched before behind : JsString) : JsString → JsString
  | [] => []
  | [unit] => [unit]
  | first :: second :: rest =>
    if first = 0x24 then
      if second = 0x24 then 0x24 :: substitution matched before behind rest
      else if second = 0x26 then matched ++ substitution matched before behind rest
      else if second = 0x60 then before ++ substitution matched before behind rest
      else if second = 0x27 then behind ++ substitution matched before behind rest
      else first :: substitution matched before behind (second :: rest)
    else first :: substitution matched before behind (second :: rest)

/-- `text.replaceAll("#", replacement)`, from what is before the rest. -/
def replaceHash (replacement before : JsString) : JsString → JsString
  | [] => []
  | unit :: rest =>
    (if unit = 0x23 then substitution [0x23] before rest replacement else [unit]) ++
      replaceHash replacement (before ++ [unit]) rest

section Rendering

variable (runtime : Runtime) (values : JsString → Option (Value runtime.Number)) (locale : Locale)

/-- `formatCount`. -/
def formatCount (count : runtime.Number) : JsString := runtime.format locale.tag count

/-- `String(value)`. -/
def valueText : Option (Value runtime.Number) → JsString
  | none => js "undefined"
  | some (.string text) => text
  | some (.number number) => runtime.text number

/-- The number of a `plural`. -/
def countOf : Option (Value runtime.Number) → runtime.Number
  | none => runtime.nan
  | some (.string text) => runtime.ofText text
  | some (.number number) => number

/-- The option under the first of some names that is not undefined, rendered. Nothing that is
inherited can be iterated, and neither can `undefined`. -/
def coalesce (options : Options Slot) (render : Slot → Option (Except Failure JsString)) :
    List JsString → Except Failure JsString
  | [] => .error .typeError
  | name :: names =>
    match property options name with
    | .body _ => (render (slotOf name)).getD (.error .typeError)
    | .inherited => .error .typeError
    | .undefined => coalesce options render names

mutual

/-- One round of `renderNodes`. -/
def renderNode (current : Option runtime.Number) :
    MessageNode Slot → Except Failure JsString
  | .text value =>
    match current with
    | none => .ok value
    | some count => .ok (replaceHash (formatCount runtime locale count) [] value)
  | .argument name =>
    match values name with
    | none => .ok (0x7b :: (name ++ [0x7d]))
    | some (.number number) => .ok (formatCount runtime locale number)
    | some (.string text) => .ok text
  | .choice .select name options =>
    coalesce options (fun slot => renderOption current slot options)
      [valueText runtime (values name), js "other"]
  | .choice .plural name options =>
    let count := countOf runtime (values name)
    if runtime.isFinite count = false then
      .error (.messageSyntaxError (js "plural '" ++ name ++ js "' needs a number"))
    else
      coalesce options (fun slot => renderOption (some count) slot options)
        [0x3d :: runtime.text count, (runtime.select locale.tag count).word, js "other"]

/-- `renderNodes`. -/
def renderNodes (current : Option runtime.Number) :
    List (MessageNode Slot) → Except Failure JsString
  | [] => .ok []
  | node :: nodes => do
      let first ← renderNode current node
      let rest ← renderNodes current nodes
      .ok (first ++ rest)

/-- The body under a slot, rendered. -/
def renderOption (current : Option runtime.Number) (slot : Slot) :
    Options Slot → Option (Except Failure JsString)
  | [] => none
  | (held, body) :: rest =>
    if held = slot then some (renderNodes current body) else renderOption current slot rest

end

/-- `formatMessage`, after some messages. -/
def formatMessage (earlier : List JsString) (message : JsString) : Except Failure JsString := do
  let nodes ← (parseMessage (cacheAfter earlier) message).1
  renderNodes runtime values locale none nodes

end Rendering

section Reading

variable (runtime : Runtime) (values : JsString → Option (Value runtime.Number)) (locale : Locale)

/-- The first of some names that is the name of an option, and else `other`. -/
def firstOption (options : Options JsString) (names : List JsString) : JsString :=
  (names.find? fun name => (lookUp name options).isSome).getD (js "other")

/-- The names of a plural's options for a number: the exact one and that of its category. -/
def pluralNames (count : runtime.Number) : List JsString :=
  [0x3d :: runtime.text count, (runtime.select locale.tag count).word]

mutual

/-- What a node should read: text with `#` as the count of the nearest `plural`, arguments as
they are, and the option a value asks for. -/
def displayNode (current : Option runtime.Number) : MessageNode JsString → JsString
  | .text value =>
    match current with
    | none => value
    | some count =>
      value.flatMap fun unit =>
        if unit = 0x23 then formatCount runtime locale count else [unit]
  | .argument name =>
    match values name with
    | some (.string text) => text
    | some (.number number) => formatCount runtime locale number
    | none => []
  | .choice .select name options =>
    displayOption current (firstOption options [valueText runtime (values name)]) options
  | .choice .plural name options =>
    match values name with
    | some (.number count) =>
      displayOption (some count) (firstOption options (pluralNames runtime locale count)) options
    | _ => []

def display (current : Option runtime.Number) : Tree → JsString
  | [] => []
  | node :: nodes => displayNode current node ++ display current nodes

def displayOption (current : Option runtime.Number) (name : JsString) :
    Options JsString → JsString
  | [] => []
  | (held, body) :: rest =>
    if held = name then display current body else displayOption current name rest

end

mutual

/-- Every argument has a value, and every `plural` a number. -/
def AssignedNode : MessageNode JsString → Prop
  | .text _ => True
  | .argument name => ∃ value, values name = some value
  | .choice .select name options => (∃ value, values name = some value) ∧ AssignedOptions options
  | .choice .plural name options =>
    (∃ number, values name = some (.number number)) ∧ AssignedOptions options

def Assigned : Tree → Prop
  | [] => True
  | node :: nodes => AssignedNode node ∧ Assigned nodes

def AssignedOptions : Options JsString → Prop
  | [] => True
  | (_, body) :: rest => Assigned body ∧ AssignedOptions rest

end

/-- A value's text names an option or no property that the options object inherits. -/
def Clean (options : Options JsString) (text : JsString) : Prop :=
  (lookUp text options).isSome ∨
    inherits ((lookUp (js "__proto__") options).map List.length) text = false

mutual

/-- Along the options that are shown, every `select` has a clean value and every `plural` a
finite number. -/
def ClearNode : MessageNode JsString → Prop
  | .text _ => True
  | .argument _ => True
  | .choice .select name options =>
    Clean options (valueText runtime (values name)) ∧
      ClearOption (firstOption options [valueText runtime (values name)]) options
  | .choice .plural name options =>
    match values name with
    | some (.number count) =>
      runtime.isFinite count = true ∧
        ClearOption (firstOption options (pluralNames runtime locale count)) options
    | _ => True

def Clear : Tree → Prop
  | [] => True
  | node :: nodes => ClearNode node ∧ Clear nodes

def ClearOption (name : JsString) : Options JsString → Prop
  | [] => True
  | (held, body) :: rest => if held = name then Clear body else ClearOption name rest

end

end Reading

section Replacing

variable {replacement : JsString}

/-- A replacement text without a dollar sign stands for itself. -/
theorem substitution_plain {matched before behind : JsString}
    (plain : (0x24 : Fin 0x10000) ∉ replacement) :
    substitution matched before behind replacement = replacement := by
  fun_induction substitution matched before behind replacement with
  | case1 => rfl
  | case2 => rfl
  | case3 => simp at plain
  | case4 => simp at plain
  | case5 => simp at plain
  | case6 => simp at plain
  | case7 => simp at plain
  | case8 first second rest _ ih =>
    rw [ih fun member => plain (List.mem_cons_of_mem _ member)]

theorem replaceHash_plain (plain : (0x24 : Fin 0x10000) ∉ replacement) (before text : JsString) :
    replaceHash replacement before text =
      text.flatMap fun unit => if unit = 0x23 then replacement else [unit] := by
  induction text generalizing before with
  | nil => rfl
  | cons unit rest ih =>
    rw [replaceHash, substitution_plain plain, ih, List.flatMap_cons]

end Replacing

section Choosing

variable {options : Options JsString} {render : Slot → Option (Except Failure JsString)}
  {names : List JsString}

theorem coalesce_cons (name : JsString) (names : List JsString) :
    coalesce (mapOptions slotOf options) render (name :: names) =
      if (lookUp name options).isSome then (render (slotOf name)).getD (.error .typeError)
      else if inherits ((lookUp (js "__proto__") options).map List.length) name then
        .error .typeError
      else coalesce (mapOptions slotOf options) render names := by
  rw [coalesce, property_kept]
  cases lookUp name options with
  | some body => rfl
  | none => cases inherits ((lookUp (js "__proto__") options).map List.length) name <;> rfl

/-- The first named option is taken where no name before it is inherited. -/
theorem coalesce_clean (clean : ∀ name ∈ names, Clean options name)
    (other : (lookUp (js "other") options).isSome) :
    coalesce (mapOptions slotOf options) render (names ++ [js "other"]) =
      (render (slotOf (firstOption options names))).getD (.error .typeError) := by
  induction names with
  | nil =>
    rw [List.nil_append, coalesce_cons, if_pos other]
    rfl
  | cons name names ih =>
    obtain ⟨ofName, ofNames⟩ := List.forall_mem_cons.mp clean
    rw [List.cons_append, coalesce_cons, firstOption, List.find?_cons]
    by_cases found : (lookUp name options).isSome = true
    · simp [found]
    · rw [if_neg found, ofName.resolve_left found, ih ofNames, firstOption]
      simp [found]

/-- Neither an exact option's name nor that of a category is inherited. -/
theorem pluralNames_free {runtime : Runtime} {locale : Locale} {count : runtime.Number}
    {name : JsString} (member : name ∈ pluralNames runtime locale count) (body : Option Nat) :
    inherits body name = false := by
  simp only [pluralNames, List.mem_cons, List.not_mem_nil, or_false] at member
  rcases member with rfl | rfl
  · have starts : ∀ names : List JsString, (names.all fun name => name.head? != some 0x3d) = true →
        names.contains (0x3d :: runtime.text count) = false := by
      intro names others
      rw [← Bool.not_eq_true, List.contains_iff_mem]
      intro isMember
      have other := List.all_eq_true.mp others _ isMember
      simp at other
    exact inherits_eq_false rfl (starts _ (by decide +kernel)) (starts _ (by decide +kernel)) body
  · cases runtime.select locale.tag count <;>
      exact inherits_eq_false (by decide +kernel) (by decide +kernel) (by decide +kernel) body

theorem firstOption_isSome (other : (lookUp (js "other") options).isSome) :
    (lookUp (firstOption options names) options).isSome := by
  rw [firstOption]
  cases found : names.find? fun name => (lookUp name options).isSome with
  | none => exact other
  | some name =>
    have isOption := List.find?_some found
    exact isOption

end Choosing

section Correctness

variable {runtime : Runtime} {values : JsString → Option (Value runtime.Number)}
  {locale : Locale}

/-- A rendering reads as it should where it is clear, and fails where it is not. -/
def Outcome (result : Except Failure JsString) (text : JsString) (clear : Prop) : Prop :=
  clear ∧ result = .ok text ∨ ¬ clear ∧ ∃ failure, result = .error failure

theorem Outcome.eq_ok_iff {result : Except Failure JsString} {text : JsString} {clear : Prop}
    (outcome : Outcome result text clear) : result = .ok text ↔ clear := by
  rcases outcome with ⟨holds, rfl⟩ | ⟨fails, failure, rfl⟩
  · simp [holds]
  · simp [fails]

/-- One rendering after the other. -/
theorem Outcome.append {first second : Except Failure JsString} {one two : JsString}
    {firstClear secondClear : Prop} (left : Outcome first one firstClear)
    (right : Outcome second two secondClear) :
    Outcome (do let text ← first; let rest ← second; .ok (text ++ rest)) (one ++ two)
      (firstClear ∧ secondClear) := by
  rcases left with ⟨firstHolds, rfl⟩ | ⟨firstFails, failure, rfl⟩
  · rcases right with ⟨secondHolds, rfl⟩ | ⟨secondFails, failure, rfl⟩
    · exact .inl ⟨⟨firstHolds, secondHolds⟩, rfl⟩
    · exact .inr ⟨fun both => secondFails both.2, failure, rfl⟩
  · exact .inr ⟨fun both => firstFails both.1, failure, rfl⟩

mutual

/-- How a node is rendered. -/
theorem renderNode_outcome : ∀ (current : Option runtime.Number) {node : MessageNode JsString},
    WellFormedNode node → AssignedNode runtime values node →
      Outcome (renderNode runtime values locale current (mapNode slotOf node))
        (displayNode runtime values locale current node) (ClearNode runtime values locale node)
  | none, .text value, _, _ => .inl ⟨trivial, rfl⟩
  | some count, .text value, _, _ => by
      have plain : (0x24 : Fin 0x10000) ∉ formatCount runtime locale count :=
        runtime.format_plain locale.tag count
      refine .inl ⟨trivial, ?_⟩
      rw [mapNode, renderNode, displayNode, replaceHash_plain plain]
  | current, .argument name, _, assigned => by
      refine .inl ⟨trivial, ?_⟩
      rw [AssignedNode] at assigned
      obtain ⟨value, isValue⟩ := assigned
      rw [mapNode, renderNode, displayNode, isValue]
      cases value <;> rfl
  | current, .choice .select name options, formed, assigned => by
      rw [WellFormedNode] at formed
      rw [AssignedNode] at assigned
      have other := lookUp_isSome_iff.mpr formed.2.2.1
      rw [mapNode, renderNode, displayNode, ClearNode]
      by_cases clean : Clean options (valueText runtime (values name))
      · obtain ⟨result, rendered, outcome⟩ := renderOption_outcome current
          formed.2.2.2 assigned.2
          (@firstOption_isSome options [valueText runtime (values name)] other)
        have chosen := @coalesce_clean options
          (fun slot => renderOption runtime values locale current slot (mapOptions slotOf options))
          [valueText runtime (values name)] (by simpa using clean) other
        rw [List.singleton_append] at chosen
        rw [chosen, rendered, Option.getD_some]
        simpa [clean] using outcome
      · rw [Clean, not_or, Bool.not_eq_false] at clean
        rw [coalesce_cons, if_neg clean.1, if_pos clean.2]
        refine .inr ⟨?_, .typeError, rfl⟩
        rintro ⟨named | free, -⟩
        · exact clean.1 named
        · rw [free] at clean
          exact absurd clean.2 (by decide)
  | current, .choice .plural name options, formed, assigned => by
      rw [WellFormedNode] at formed
      rw [AssignedNode] at assigned
      obtain ⟨⟨count, isCount⟩, ofOptions⟩ := assigned
      have other := lookUp_isSome_iff.mpr formed.2.2.1
      rw [mapNode, renderNode, displayNode, ClearNode, isCount]
      have isNumber : countOf runtime (some (.number count)) = count := rfl
      simp only [isNumber]
      by_cases infinite : runtime.isFinite count = false
      · rw [if_pos infinite]
        refine .inr ⟨?_, _, rfl⟩
        rintro ⟨finite, -⟩
        rw [finite] at infinite
        cases infinite
      · rw [if_neg infinite]
        have finite := Bool.eq_true_of_not_eq_false infinite
        obtain ⟨result, rendered, outcome⟩ := renderOption_outcome (some count) formed.2.2.2
          ofOptions (@firstOption_isSome options (pluralNames runtime locale count) other)
        have chosen := @coalesce_clean options
          (fun slot => renderOption runtime values locale (some count) slot
            (mapOptions slotOf options)) (pluralNames runtime locale count)
          (fun text member => .inr (pluralNames_free member _)) other
        rw [pluralNames, List.cons_append, List.singleton_append] at chosen
        rw [chosen]
        rw [pluralNames] at rendered outcome ⊢
        rw [rendered, Option.getD_some]
        simpa [finite] using outcome

/-- How nodes are rendered. -/
theorem renderNodes_outcome : ∀ (current : Option runtime.Number) {tree : Tree},
    WellFormed tree → Assigned runtime values tree →
      Outcome (renderNodes runtime values locale current (kept tree))
        (display runtime values locale current tree) (Clear runtime values locale tree)
  | _, [], _, _ => .inl ⟨trivial, rfl⟩
  | current, node :: nodes, formed, assigned => by
      rw [WellFormed] at formed
      rw [Assigned] at assigned
      exact (renderNode_outcome current formed.1 assigned.1).append
        (renderNodes_outcome current formed.2.2 assigned.2)

/-- How the option of a name is rendered. -/
theorem renderOption_outcome : ∀ (current : Option runtime.Number) {options : Options JsString}
    {name : JsString}, WellFormedOptions options → AssignedOptions runtime values options →
      (lookUp name options).isSome →
      ∃ result, renderOption runtime values locale current (slotOf name)
          (mapOptions slotOf options) = some result ∧
        Outcome result (displayOption runtime values locale current name options)
          (ClearOption runtime values locale name options)
  | _, [], _, _, _, missing => by cases missing
  | current, (held, body) :: rest, name, formed, assigned, present => by
      rw [WellFormedOptions] at formed
      rw [AssignedOptions] at assigned
      rw [mapOptions, renderOption, displayOption, ClearOption]
      by_cases same : held = name
      · rw [if_pos (congrArg slotOf same), if_pos same]
        refine ⟨_, rfl, ?_⟩
        simpa [same, kept] using renderNodes_outcome current formed.2.1 assigned.1
      · rw [lookUp, if_neg same] at present
        rw [if_neg (slotOf_injective.ne same), if_neg same]
        simpa [same] using renderOption_outcome current formed.2.2 assigned.2 present

end

end Correctness

/-- Rendering an accepted message gives what its tree should read if and only if, along the
options shown, no value of a `select` names a property that the options inherit and every number
of a `plural` is finite. -/
theorem formatMessage_iff (runtime : Runtime)
    (values : JsString → Option (Value runtime.Number)) (locale : Locale)
    (earlier : List JsString) (message : JsString) (nodes : List (MessageNode Slot))
    (accepted : (parseMessage (cacheAfter earlier) message).1 = .ok nodes) :
    (∃ tree, Spells (.nodes tree) message) ∧
      ∀ tree, Spells (.nodes tree) message → Assigned runtime values tree →
        (formatMessage runtime values locale earlier message =
            .ok (display runtime values locale none tree) ↔
          Clear runtime values locale tree) := by
  rw [parseMessage_eq] at accepted
  obtain ⟨tree, spelled, -⟩ := parse_eq_ok_iff.mp accepted
  refine ⟨⟨tree, spelled⟩, fun tree spelled assigned => ?_⟩
  have outcome := @renderNodes_outcome runtime values locale none tree spelled.formed assigned
  have parsed := parse_eq_ok_iff.mpr ⟨tree, spelled, rfl⟩
  rw [formatMessage, parseMessage_eq, parsed]
  exact outcome.eq_ok_iff

/-- A runtime whose numbers are the natural ones. -/
def exampleRuntime : Runtime where
  Number := Nat
  isFinite _ := true
  text := decimal
  ofText := bigInt
  nan := 0
  format _ := decimal
  select _ number := if number = 1 then .one else .other
  format_plain _ number member := by
    have digit := isDigit_iff.mp (digits_decimal number _ member)
    exact absurd digit.1 (by decide)

/-- A count of items. -/
def itemsTree : Tree :=
  [.choice .plural (js "n")
    [(js "one", [.text (js "# item")]), (js "other", [.text (js "# items")])]]

theorem itemsTree_wellFormed : WellFormed itemsTree := by
  have free : ∀ text, (text = js "# item" ∨ text = js "# items") → text ≠ [] ∧ BraceFree text := by
    rintro text (rfl | rfl) <;> simp [js, BraceFree]
  have distinct : js "one" ≠ js "other" := by decide +kernel
  refine ⟨⟨rfl, ?_, ?_, rfl, ?_, rfl, ?_, trivial⟩, fun isText => absurd isText id, trivial⟩
  · simp [distinct]
  · simp
  · exact ⟨free _ (.inl rfl), fun _ => id, trivial⟩
  · exact ⟨free _ (.inr rfl), fun _ => id, trivial⟩

/-- Two of everything. -/
def two : JsString → Option (Value exampleRuntime.Number) := fun _ => some (.number (2 : Nat))

theorem formatMessage_iff_items :
    formatMessage exampleRuntime two .en [] (print itemsTree) =
        .ok (display exampleRuntime two .en none itemsTree) ↔
      Clear exampleRuntime two .en itemsTree :=
  (formatMessage_iff exampleRuntime two .en [] (print itemsTree) (kept itemsTree)
    ((parseMessage_eq _ _).trans
      (parse_eq_ok_iff.mpr ⟨itemsTree, spells_print itemsTree_wellFormed, rfl⟩))).2 itemsTree
    (spells_print itemsTree_wellFormed)
    ⟨⟨⟨_, rfl⟩, ⟨trivial, trivial⟩, ⟨trivial, trivial⟩, trivial⟩, trivial⟩

/-- A `select` with `other` alone. -/
def otherTree : Tree := [.choice .select (js "g") [(js "other", [.text (js "x")])]]

theorem otherTree_wellFormed : WellFormed otherTree := by
  refine ⟨⟨rfl, by simp, by simp, rfl, ?_, trivial⟩, fun isText => absurd isText id, trivial⟩
  exact ⟨by simp [WellFormedNode, js, BraceFree], fun _ => id, trivial⟩

/-- A value that is the name of an inherited property stops the rendering. -/
theorem inheritedName_throws :
    ¬ ∀ (runtime : Runtime) (values : JsString → Option (Value runtime.Number)) (locale : Locale)
        (earlier : List JsString) (tree : Tree),
      Spells (.nodes tree) (js "\x7bg, select, other \x7bx\x7d\x7d") →
        Assigned runtime values tree →
          formatMessage runtime values locale earlier
              (js "\x7bg, select, other \x7bx\x7d\x7d") =
            .ok (display runtime values locale none tree) := by
  have printed : js "\x7bg, select, other \x7bx\x7d\x7d" = print otherTree := by decide +kernel
  have spelled := spells_print otherTree_wellFormed
  intro always
  rw [printed] at always
  have rendered := always exampleRuntime (fun _ => some (.string (js "constructor"))) .en []
    otherTree spelled ⟨⟨⟨_, rfl⟩, ⟨trivial, trivial⟩, trivial⟩, trivial⟩
  rw [formatMessage, parseMessage_eq, parse_eq_ok_iff.mpr ⟨otherTree, spelled, rfl⟩] at rendered
  have inherited : inherits ((lookUp (js "__proto__")
      [(js "other", [MessageNode.text (js "x")])]).map List.length) (js "constructor") = true := by
    decide +kernel
  have unnamed : ¬ (lookUp (js "constructor")
      [(js "other", [MessageNode.text (js "x")])]).isSome = true := by decide +kernel
  change (do let nodes ← Except.ok (kept otherTree); renderNodes _ _ _ none nodes) = _ at rendered
  have stops : renderNode exampleRuntime (fun _ => some (.string (js "constructor"))) .en none
      (.choice .select (js "g") (mapOptions slotOf [(js "other", [.text (js "x")])])) =
        .error .typeError := by
    rw [renderNode, valueText, coalesce_cons, if_neg unnamed, if_pos inherited]
  simp only [kept, otherTree, mapNodes, mapNode, renderNodes, bind, Except.bind] at rendered
  rw [stops] at rendered
  cases rendered

end Nexora.Messages
