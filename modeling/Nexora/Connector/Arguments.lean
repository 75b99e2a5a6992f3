import Nexora.Data.Members
import Nexora.Connector.Paths
import Nexora.Connector.Rebinding

/-!
# What becomes of the arguments of a call

An argument fills placeholders of the path in, is the idempotency key of the request, or goes
into its query or its body. A placeholder that stands twice finds its argument used up the
second time, and an empty idempotency key is dropped. The credential goes into the same headers
and the same query: what a call puts there under the name of the placement takes its place or
stands beside it.
-/

namespace Nexora.Connector

open Nexora.Std Nexora.Integration Nexora.Tools Json

/-! ## Where arguments go -/

/-- The placeholders among some names that the configuration leaves to arguments. -/
def askedFor (config : List (PyStr × Json)) (names : List String) : List String :=
  names.filter fun name => lookup (py name) config = none

/-- The path of a request asks for an argument. -/
def fillsPath (config : List (PyStr × Json)) (names : List String) (key : PyStr) : Bool :=
  (askedFor config names).any fun name => py name = key

/-- The idempotency key that is sent: an empty one is not. -/
def RequestParts.sentKey (parts : RequestParts) : Option PyStr :=
  parts.idempotencyKey.filter (· ≠ [])

/-- How often a request uses an argument: in its path, as its idempotency key, in its query and
in its body. -/
def RequestParts.uses (parts : RequestParts) (endpoint : ConnectorEndpoint)
    (config : List (PyStr × Json)) (argument : PyStr × Json) : Nat :=
  (if fillsPath config (placeholders endpoint.path) argument.1 then 1 else 0) +
    (if argument.1 = py "idempotency_key" ∧ parts.sentKey.map Json.str = some argument.2
      then 1 else 0) +
    parts.params.count argument + (parts.body.getD []).count argument

/-- What a request makes of the configuration and the arguments: every placeholder is filled in
with one encoded value wherever it stands, every argument is used exactly once, and what the
path leaves goes into the query of a `GET` or `DELETE` and into the body of any other request. -/
structure Accounted (endpoint : ConnectorEndpoint) (config arguments : List (PyStr × Json))
    (parts : RequestParts) : Prop where
  path : ∃ encoded : String → List Char,
    (∀ name ∈ placeholders endpoint.path,
      placeholderText config arguments name = .ok (encoded name)) ∧
    parts.path.toList = (placeholders endpoint.path).foldl
      (fun template name => put template (name, encoded name)) endpoint.path.toList
  once : ∀ argument ∈ arguments, parts.uses endpoint config argument = 1
  query : parts.params ≠ [] → endpoint.method ∈ [.get, .delete]
  body : parts.body.isSome ↔ endpoint.method ∉ [.get, .delete]

/-- The arguments a request accounts for: no text of the path has an unpaired surrogate, no
argument is asked for twice, and an idempotency key that is no part of the path is a text and
not empty. -/
structure Accountable (endpoint : ConnectorEndpoint) (config arguments : List (PyStr × Json)) :
    Prop where
  encodable : ∀ name ∈ placeholders endpoint.path, ∀ text,
    placeholderValue config arguments name = some (.str text) → text.any isSurrogate = false
  once : (askedFor config (placeholders endpoint.path)).Nodup
  key : fillsPath config (placeholders endpoint.path) (py "idempotency_key") = false →
    ∀ value, lookup (py "idempotency_key") arguments = some value →
      ∃ key, value = .str key ∧ key ≠ []

/-- The arguments a placeholder leaves. -/
def leftBy (config arguments : List (PyStr × Json)) (name : String) : List (PyStr × Json) :=
  if lookup (py name) config = none then arguments.filter fun member => member.1 ≠ py name
  else arguments

theorem fillFrom_eq_ok (config arguments : List (PyStr × Json)) (template : List Char)
    (name : String) (next : List Char × List (PyStr × Json)) :
    fillFrom config (template, arguments) name = .ok next ↔
      ∃ quoted, placeholderText config arguments name = .ok quoted ∧
        next = (put template (name, quoted), leftBy config arguments name) := by
  have chosen : ∀ outcome, chooseValue config arguments name = .ok outcome ↔
      placeholderValue config arguments name = some outcome.1 ∧
        outcome.2 = leftBy config arguments name := by
    rintro ⟨value, rest⟩
    unfold chooseValue placeholderValue leftBy
    cases lookup (py name) config with
    | some stored => simp [pure, Except.pure, eq_comm]
    | none => cases lookup (py name) arguments <;> simp [pure, Except.pure, eq_comm]
  simp only [fillFrom, bind_eq_ok, pure_eq_ok, placeholderText_eq_ok, chosen, put]
  constructor
  · rintro ⟨⟨value, rest⟩, ⟨found, rfl⟩, text, isText, quoted, isQuoted, rfl⟩
    exact ⟨quoted, ⟨value, found, text, isText, isQuoted⟩, rfl⟩
  · rintro ⟨quoted, ⟨value, found, text, isText, isQuoted⟩, rfl⟩
    exact ⟨(value, _), ⟨found, rfl⟩, text, isText, quoted, isQuoted, rfl⟩

theorem lookup_leftBy (config arguments : List (PyStr × Json)) (name : String) (key : PyStr) :
    lookup key (leftBy config arguments name) =
      if lookup (py name) config = none ∧ key = py name then none else lookup key arguments := by
  unfold leftBy
  by_cases asked : lookup (py name) config = none
  · rw [if_pos asked, lookup_filter]
    simp [asked]
  · simp [asked]

/-- A placeholder has its value still once another one was filled in, unless both ask for the
same argument. -/
theorem placeholderText_leftBy (config arguments : List (PyStr × Json)) (name other : String)
    (quoted : List Char) :
    placeholderText config (leftBy config arguments name) other = .ok quoted ↔
      placeholderText config arguments other = .ok quoted ∧
        (lookup (py other) config = none → other ≠ name) := by
  simp only [placeholderText_eq_ok, placeholderValue, lookup_leftBy, py_injective.eq_iff]
  cases inConfig : lookup (py other) config with
  | some value => simp
  | none =>
    by_cases same : other = name
    · subst same
      simp [inConfig]
    · simp [same]

variable {config arguments : List (PyStr × Json)} {left : List Char × List (PyStr × Json)}
  {names : List String} {template : List Char}

/-- The arguments that are left once the placeholders of a path are filled in. -/
theorem foldlM_fillFrom_left
    (ok : names.foldlM (fillFrom config) (template, arguments) = .ok left) :
    left.2 = arguments.filter fun member => !fillsPath config names member.1 := by
  induction names generalizing template arguments with
  | nil =>
    rw [List.foldlM_nil, pure_eq_ok] at ok
    simp [← ok, fillsPath, askedFor]
  | cons name rest ih =>
    rw [List.foldlM_cons, bind_eq_ok] at ok
    obtain ⟨next, first, others⟩ := ok
    obtain ⟨quoted, -, rfl⟩ := (fillFrom_eq_ok ..).mp first
    rw [ih others, leftBy]
    by_cases asked : lookup (py name) config = none
    · rw [if_pos asked, List.filter_filter]
      apply List.filter_congr
      intro member _
      simp only [fillsPath, askedFor, List.filter_cons, asked, decide_true, if_true,
        List.any_cons, Bool.not_or, ne_eq, eq_comm (a := member.1), decide_not]
      rw [Bool.and_comm]
    · rw [if_neg asked]
      simp [fillsPath, askedFor, asked]

/-- The path that placeholders are filled in to has one text wherever a placeholder stands. -/
theorem foldlM_fillFrom_encoded
    (ok : names.foldlM (fillFrom config) (template, arguments) = .ok left) :
    ∃ encoded : String → List Char,
      (∀ name ∈ names, placeholderText config arguments name = .ok (encoded name)) ∧
      left.1 = names.foldl (fun text name => put text (name, encoded name)) template := by
  obtain ⟨filled, isNames, texts, result⟩ := foldlM_fillFrom ok
  let encoded (name : String) : List Char :=
    ((placeholderText config arguments name).toOption).getD []
  have same : ∀ entry ∈ filled, entry = (entry.1, encoded entry.1) := by
    intro entry member
    simp [encoded, texts entry member, Except.toOption]
  refine ⟨encoded, ?_, ?_⟩
  · intro name member
    rw [← isNames] at member
    obtain ⟨entry, among, rfl⟩ := List.mem_map.mp member
    rw [texts entry among, same entry among]
  · rw [result, ← isNames, List.foldl_map]
    apply List.foldl_ext
    intro text entry member
    rw [← same entry member]

/-- Placeholders can be filled in if each has a value that can be encoded, and none is asked
for twice. -/
theorem exists_foldlM_fillFrom (config arguments : List (PyStr × Json)) (names : List String)
    (template : List Char) :
    (∃ left, names.foldlM (fillFrom config) (template, arguments) = .ok left) ↔
      (∀ name ∈ names, ∃ quoted, placeholderText config arguments name = .ok quoted) ∧
        (askedFor config names).Nodup := by
  induction names generalizing template arguments with
  | nil => simp [askedFor, pure_eq_ok]
  | cons name rest ih =>
    have stepped : (∃ left, (name :: rest).foldlM (fillFrom config) (template, arguments) =
        .ok left) ↔ ∃ quoted, placeholderText config arguments name = .ok quoted ∧
          ∃ left, rest.foldlM (fillFrom config)
            (put template (name, quoted), leftBy config arguments name) = .ok left := by
      simp only [List.foldlM_cons, bind_eq_ok, fillFrom_eq_ok]
      constructor
      · rintro ⟨left, _, ⟨quoted, isText, rfl⟩, others⟩
        exact ⟨quoted, isText, left, others⟩
      · rintro ⟨quoted, isText, left, others⟩
        exact ⟨left, _, ⟨quoted, isText, rfl⟩, others⟩
    simp only [stepped, ih, placeholderText_leftBy, List.forall_mem_cons]
    have asked : (askedFor config (name :: rest)).Nodup ↔
        (∀ other ∈ rest, lookup (py other) config = none → other ≠ name) ∧
          (askedFor config rest).Nodup := by
      by_cases inConfig : lookup (py name) config = none
      · simp only [askedFor, List.filter_cons, inConfig, decide_true, if_true, List.nodup_cons,
          List.mem_filter, and_true]
        apply and_congr_left'
        constructor
        · rintro absent other member isAsked rfl
          exact absent member
        · intro distinct member
          exact distinct name member inConfig rfl
      · simp only [askedFor, List.filter_cons, inConfig, decide_false, Bool.false_eq_true,
          if_false, iff_and_self]
        rintro - other member isAsked rfl
        exact inConfig isAsked
    rw [asked]
    constructor
    · rintro ⟨quoted, isText, texts, nodup⟩
      exact ⟨⟨⟨quoted, isText⟩, fun other member => (texts other member).imp fun _ => And.left⟩,
        fun other member => (texts other member).elim fun _ => And.right, nodup⟩
    · rintro ⟨⟨⟨quoted, isText⟩, texts⟩, distinct, nodup⟩
      exact ⟨quoted, isText, fun other member => (texts other member).imp
        fun _ text => ⟨text, distinct other member⟩, nodup⟩

/-! ## Accounting for arguments -/

/-- What goes into the query or the body of a request. -/
def unplaced (endpoint : ConnectorEndpoint) (config arguments : List (PyStr × Json)) :
    List (PyStr × Json) :=
  arguments.filter fun member =>
    !fillsPath config (placeholders endpoint.path) member.1 && member.1 ≠ py "idempotency_key"

/-- The idempotency key among the arguments that the path leaves. -/
def givenKey (endpoint : ConnectorEndpoint) (config arguments : List (PyStr × Json)) :
    Option Json :=
  if fillsPath config (placeholders endpoint.path) (py "idempotency_key") then none
  else lookup (py "idempotency_key") arguments

theorem idempotencyKey_eq_ok (members : List (PyStr × Json)) (key : Option PyStr) :
    idempotencyKey members = .ok key ↔
      (lookup (py "idempotency_key") members).getD .null = (key.map Json.str).getD .null := by
  unfold idempotencyKey
  split
  · rename_i absent
    cases key <;> simp [absent, pure, Except.pure]
  · rename_i present
    cases key <;> simp [present, pure, Except.pure]
  · rename_i text present
    cases key <;> simp [present, pure, Except.pure]
  · rename_i value notNull notText present
    rw [present, Option.getD_some]
    cases key with
    | none => simpa using fun same => notNull same
    | some text => simpa using fun same => notText text same

/-- The parts of a request that is built. -/
theorem requestPartsFrom_eq_ok (endpoint : ConnectorEndpoint)
    (config arguments : List (PyStr × Json)) (parts : RequestParts) :
    requestPartsFrom endpoint config arguments = .ok parts ↔
      ∃ left, (placeholders endpoint.path).foldlM (fillFrom config)
          (endpoint.path.toList, arguments) = .ok left ∧
        ∃ key : Option PyStr, (givenKey endpoint config arguments).getD .null =
            (key.map Json.str).getD .null ∧
          parts = if endpoint.method ∈ [.get, .delete] then
              ⟨String.ofList left.1, unplaced endpoint config arguments, none, key⟩
            else ⟨String.ofList left.1, [], some (unplaced endpoint config arguments), key⟩ := by
  simp only [requestPartsFrom, bind_eq_ok, pure_eq_ok, idempotencyKey_eq_ok]
  apply exists_congr
  intro left
  apply and_congr_right
  intro filling
  have rest := foldlM_fillFrom_left filling
  have given : lookup (py "idempotency_key") left.2 = givenKey endpoint config arguments := by
    rw [rest, lookup_filter_keys (fun key => !fillsPath config (placeholders endpoint.path) key),
      givenKey]
    cases fillsPath config (placeholders endpoint.path) (py "idempotency_key") <;> rfl
  have remaining : (left.2.filter fun member => member.1 ≠ py "idempotency_key") =
      unplaced endpoint config arguments := by
    rw [rest, List.filter_filter, unplaced]
    apply List.filter_congr
    intro member _
    rw [Bool.and_comm]
  rw [given, remaining]
  simp only [eq_comm (b := parts)]

/-- A text that is not empty. -/
def isFilledText : Json → Bool
  | .str text => text ≠ []
  | _ => false

theorem isFilledText_eq_true (value : Json) :
    isFilledText value = true ↔ ∃ text, value = .str text ∧ text ≠ [] := by
  cases value <;> simp [isFilledText]

/-- How often a request uses one of its arguments. -/
theorem uses_eq {endpoint : ConnectorEndpoint} {parts : RequestParts}
    (distinct : (arguments.map Prod.fst).Nodup)
    (built : requestPartsFrom endpoint config arguments = .ok parts) {argument : PyStr × Json}
    (member : argument ∈ arguments) :
    parts.uses endpoint config argument =
      if fillsPath config (placeholders endpoint.path) argument.1 = true then 1
      else if argument.1 = py "idempotency_key" then (if isFilledText argument.2 then 1 else 0)
      else 1 := by
  obtain ⟨left, -, key, given, rfl⟩ := (requestPartsFrom_eq_ok ..).mp built
  have found := lookup_of_mem distinct member
  have once : arguments.count argument = 1 :=
    List.count_eq_one_of_mem (List.Nodup.of_map _ distinct) member
  have placed : (unplaced endpoint config arguments).count argument =
      if fillsPath config (placeholders endpoint.path) argument.1 = false ∧
        argument.1 ≠ py "idempotency_key" then 1 else 0 := by
    split
    · rename_i left
      rw [unplaced, List.count_filter (by simpa using left), once]
    · rename_i used
      rw [List.count_eq_zero, unplaced, List.mem_filter]
      rintro ⟨-, left⟩
      exact used (by simpa using left)
  unfold RequestParts.uses RequestParts.sentKey
  have sides : ∀ parts : RequestParts, parts = (if endpoint.method ∈ [.get, .delete] then
        ⟨String.ofList left.1, unplaced endpoint config arguments, none, key⟩
      else ⟨String.ofList left.1, [], some (unplaced endpoint config arguments), key⟩) →
      parts.idempotencyKey = key ∧ parts.params.count argument +
        (parts.body.getD []).count argument = (unplaced endpoint config arguments).count argument := by
    rintro parts rfl
    split <;> simp
  obtain ⟨isKey, sums⟩ := sides _ rfl
  rw [Nat.add_assoc, sums, isKey, placed]
  by_cases fills : fillsPath config (placeholders endpoint.path) argument.1 = true
  · have noKey : argument.1 = py "idempotency_key" → key = none := by
      intro same
      rw [givenKey, ← same, if_pos fills] at given
      cases key with
      | none => rfl
      | some text => cases given
    simp only [fills, if_true, Bool.true_eq_false, false_and, if_false]
    split
    · rename_i sent
      simp [noKey sent.1] at sent
    · rfl
  · rw [Bool.not_eq_true] at fills
    simp only [fills, Bool.false_eq_true, if_false, true_and]
    by_cases same : argument.1 = py "idempotency_key"
    · rw [givenKey, ← same, fills, if_neg (by simp), found, Option.getD_some] at given
      simp only [same, true_and, ne_eq, not_true_eq_false, if_true, if_false, given]
      cases key with
      | none => simp [isFilledText]
      | some text =>
        by_cases empty : text = []
        · simp [empty, isFilledText]
        · simp [empty, isFilledText]
    · simp [same]

/-- A text or a number is put into a path if it can be encoded. -/
theorem exists_placeholderText (config arguments : List (PyStr × Json)) {name : String}
    {value : Json} (found : placeholderValue config arguments name = some value)
    (kind : isString value = true ∨ isInteger value = true) :
    (∃ quoted, placeholderText config arguments name = .ok quoted) ↔
      ∀ text, value = .str text → text.any isSurrogate = false := by
  simp only [placeholderText_eq_ok, quote_eq_ok, found, Option.some.injEq]
  cases value with
  | str text => simp [pathText, pure, Except.pure]
  | int number =>
    have ascii := py_noSurrogate (toString number)
    simp only [pathText, pure, Except.pure, Except.ok.injEq, exists_eq_left', ascii, true_and]
    simp
  | _ => simp [isString, isInteger] at kind

/-- A request accounts for its arguments exactly if no text of its path has an unpaired
surrogate, no argument is asked for twice, and an idempotency key that is no part of the path is a
text and not empty. -/
theorem arguments_accounted_for (endpoint : ConnectorEndpoint)
    (config arguments : List (PyStr × Json)) (distinct : (arguments.map Prod.fst).Nodup)
    (filled : ∀ name ∈ placeholders endpoint.path, ∃ value,
      placeholderValue config arguments name = some value ∧
        (isString value = true ∨ isInteger value = true)) :
    (∃ parts, requestPartsFrom endpoint config arguments = .ok parts ∧
        Accounted endpoint config arguments parts) ↔
      Accountable endpoint config arguments := by
  have encodes : (∀ name ∈ placeholders endpoint.path, ∃ quoted,
      placeholderText config arguments name = .ok quoted) ↔
      ∀ name ∈ placeholders endpoint.path, ∀ text,
        placeholderValue config arguments name = some (.str text) →
          text.any isSurrogate = false := by
    apply forall₂_congr
    intro name member
    obtain ⟨value, found, kind⟩ := filled name member
    rw [exists_placeholderText config arguments found kind]
    simp [found]
  constructor
  · rintro ⟨parts, built, accounted⟩
    obtain ⟨left, filling, key, given, -⟩ := (requestPartsFrom_eq_ok ..).mp built
    obtain ⟨texts, once⟩ := (exists_foldlM_fillFrom ..).mp ⟨left, filling⟩
    refine ⟨encodes.mp texts, once, ?_⟩
    intro unfilled value found
    have used := accounted.once _ (mem_of_lookup found)
    rw [uses_eq distinct built (mem_of_lookup found)] at used
    simp only [unfilled, Bool.false_eq_true, if_false, if_true] at used
    apply (isFilledText_eq_true value).mp
    by_contra notText
    rw [if_neg notText] at used
    cases used
  · intro accountable
    obtain ⟨left, filling⟩ := (exists_foldlM_fillFrom config arguments _ endpoint.path.toList).mpr
      ⟨encodes.mpr accountable.encodable, accountable.once⟩
    have isKey : ∃ key : Option PyStr, (givenKey endpoint config arguments).getD .null =
        (key.map Json.str).getD .null := by
      cases given : givenKey endpoint config arguments with
      | none => exact ⟨none, rfl⟩
      | some value =>
        unfold givenKey at given
        split at given
        · cases given
        · rename_i unfilled
          obtain ⟨text, rfl, -⟩ := accountable.key (by simpa using unfilled) value given
          exact ⟨some text, rfl⟩
    obtain ⟨key, given⟩ := isKey
    have built := (requestPartsFrom_eq_ok endpoint config arguments _).mpr
      ⟨left, filling, key, given, rfl⟩
    refine ⟨_, built, ?_, ?_, ?_, ?_⟩
    · obtain ⟨encoded, texts, result⟩ := foldlM_fillFrom_encoded filling
      refine ⟨encoded, texts, ?_⟩
      rw [← result]
      split <;> simp
    · intro argument member
      rw [uses_eq distinct built member]
      split
      · rfl
      · rename_i unfilled
        split
        · rename_i same
          have found := lookup_of_mem distinct member
          rw [same] at found unfilled
          have isText := accountable.key (by simpa using unfilled) _ found
          rw [if_pos ((isFilledText_eq_true _).mpr isText)]
        · rfl
    · split <;> simp_all
    · split <;> simp_all

/-- A customer's orders, page by page. -/
def secondPage : List (PyStr × Json) := [(py "customer_id", .str (py "c7")), (py "page", .int 2)]

theorem secondPage_filled : ∀ name ∈ placeholders ordersEndpoint.path, ∃ value,
    placeholderValue [] secondPage name = some value ∧
      (isString value = true ∨ isInteger value = true) := by
  have names : placeholders ordersEndpoint.path = ["customer_id"] := by decide +kernel
  rw [names]
  intro name member
  obtain rfl := List.mem_singleton.mp member
  exact ⟨.str (py "c7"), by decide +kernel, .inl rfl⟩

/-- A customer's identifier goes into the path and the page into the query. -/
theorem arguments_accounted_for_orders :
    ordersEndpoint.validate exampleRuntime = .ok () ∧
      ∃ parts, requestPartsFrom ordersEndpoint [] secondPage = .ok parts ∧
        Accounted ordersEndpoint [] secondPage parts := by
  have names : placeholders ordersEndpoint.path = ["customer_id"] := by decide +kernel
  refine ⟨by decide +kernel, (arguments_accounted_for ordersEndpoint [] secondPage
    (by decide +kernel) secondPage_filled).mpr ⟨?_, by decide +kernel, ?_⟩⟩
  · rw [names]
    intro name member text found
    obtain rfl := List.mem_singleton.mp member
    have same : placeholderValue [] secondPage "customer_id" = some (.str (py "c7")) := by
      decide +kernel
    rw [same, Option.some.injEq, Json.str.injEq] at found
    rw [← found]
    exact py_noSurrogate _
  · have noKey : lookup (py "idempotency_key") secondPage = none := by decide +kernel
    simp [noKey]

/-- An endpoint that names a customer twice in its path. -/
def mergeEndpoint : ConnectorEndpoint :=
  { ordersEndpoint with
    path := "/v1/customers/{customer_id}/duplicates/{customer_id}" }

/-- The second time a placeholder asks for its argument, the argument is used up. -/
theorem repeated_placeholder_missing :
    ¬ ∀ (runtime : Runtime) (endpoint : ConnectorEndpoint) (config arguments : List (PyStr × Json)),
        endpoint.validate runtime = .ok () → (arguments.map Prod.fst).Nodup →
        (∀ name ∈ placeholders endpoint.path, ∃ value,
          placeholderValue config arguments name = some value ∧
            (isString value = true ∨ isInteger value = true)) →
        ∃ parts, requestPartsFrom endpoint config arguments = .ok parts ∧
          Accounted endpoint config arguments parts := by
  intro always
  have names : placeholders mergeEndpoint.path = ["customer_id", "customer_id"] := by
    decide +kernel
  obtain ⟨parts, built, -⟩ := always exampleRuntime mergeEndpoint []
    [(py "customer_id", .str (py "c7"))] (by decide +kernel) (by decide +kernel) (by
      rw [names]
      intro name member
      have same : name = "customer_id" := by simpa using member
      subst same
      exact ⟨.str (py "c7"), by decide +kernel, .inl rfl⟩)
  have refused : requestPartsFrom mergeEndpoint [] [(py "customer_id", .str (py "c7"))] =
      .error (.refused ⟨"path_argument_missing"⟩) := by decide +kernel
  rw [refused] at built
  cases built

end Nexora.Connector
