import Nexora.Connector.Names
import Nexora.Connector.Quoting

/-!
# The paths of outbound requests

Every placeholder of an endpoint path is filled in with a percent-encoded value. A value of one
or two dots is a dot segment of the path that is requested, and the client that resolves the path
walks over it; a query mark in the base URL or the template cuts the path short. Otherwise a
request has the base path with the endpoint's segments in place.
-/

namespace Nexora.Connector

open Nexora.Std Nexora.Integration Nexora.Tools Json

/-- The value of a placeholder, from a configuration of any values or else from an argument,
and the arguments that are left. -/
def chooseValue (config arguments : List (PyStr × Json)) (name : String) :
    Except Leaving (Json × List (PyStr × Json)) :=
  match lookup (py name) config, lookup (py name) arguments with
  | some value, _ => pure (value, arguments)
  | none, some value => pure (value, arguments.filter fun member => member.1 ≠ py name)
  | none, none => .error (.refused ⟨"path_argument_missing"⟩)

/-- Fill one placeholder in. -/
def fillFrom (config : List (PyStr × Json)) (path : List Char × List (PyStr × Json))
    (name : String) : Except Leaving (List Char × List (PyStr × Json)) := do
  let chosen ← chooseValue config path.2 name
  let text ← pathText chosen.1
  let quoted ← quote text
  pure (replaceAll (("\x7b" ++ name ++ "\x7d").toList) quoted 0 path.1, chosen.2)

/-- `_request_parts`, for a configuration of any values. -/
def requestPartsFrom (endpoint : ConnectorEndpoint) (config arguments : List (PyStr × Json)) :
    Except Leaving RequestParts := do
  let path ← (placeholders endpoint.path).foldlM (fillFrom config) (endpoint.path.toList, arguments)
  let key ← idempotencyKey path.2
  let remaining := path.2.filter fun member => member.1 ≠ py "idempotency_key"
  pure (if endpoint.method ∈ [.get, .delete] then
      ⟨String.ofList path.1, remaining, none, key⟩
    else ⟨String.ofList path.1, [], some remaining, key⟩)

/-- The members of a configuration of texts. -/
def textMembers (config : Dict String) : List (PyStr × Json) :=
  config.entries.map fun entry => (py entry.1, .str (py entry.2))

theorem lookup_textMembers (config : Dict String) (name : String) :
    lookup (py name) (textMembers config) =
      (config.get? name).map fun value => .str (py value) := by
  unfold textMembers Dict.get?
  induction config.entries with
  | nil => rfl
  | cons entry rest ih =>
    rw [List.map_cons, lookup, List.find?_cons]
    by_cases same : entry.1 = name
    · simp [same]
    · have other : py entry.1 ≠ py name := fun equal => same (py_injective equal)
      simpa [same, other] using ih

/-- The configuration a tenant fills in is one of texts. -/
theorem requestParts_eq (endpoint : ConnectorEndpoint) (config : Dict String)
    (arguments : List (PyStr × Json)) :
    requestParts endpoint config arguments =
      requestPartsFrom endpoint (textMembers config) arguments := by
  have fill : fillPlaceholder config = fillFrom (textMembers config) := by
    funext path name
    unfold fillPlaceholder fillFrom chooseValue
    rw [lookup_textMembers]
    cases config.get? name with
    | some value => rfl
    | none =>
      cases lookup (py name) path.2 <;> rfl
  rw [requestParts, requestPartsFrom, fill]

/-! ## Filling a template in -/

/-- The value a placeholder is filled in with. -/
def placeholderValue (config arguments : List (PyStr × Json)) (name : String) : Option Json :=
  (lookup (py name) config).or (lookup (py name) arguments)

/-- The text put in the place of a placeholder. -/
def placeholderText (config arguments : List (PyStr × Json)) (name : String) :
    Except Leaving (List Char) := do
  let value ← orRaise (placeholderValue config arguments name)
    (.refused ⟨"path_argument_missing"⟩)
  let text ← pathText value
  quote text

theorem placeholderText_eq_ok (config arguments : List (PyStr × Json)) (name : String)
    (quoted : List Char) :
    placeholderText config arguments name = .ok quoted ↔
      ∃ value, placeholderValue config arguments name = some value ∧
        ∃ text, pathText value = .ok text ∧ quote text = .ok quoted := by
  simp only [placeholderText, bind_eq_ok, orRaise_eq_ok]

theorem lookup_filter (key other : PyStr) (members : List (PyStr × Json)) :
    lookup key (members.filter fun member => member.1 ≠ other) =
      if key = other then none else lookup key members := by
  induction members with
  | nil => simp [lookup]
  | cons member rest ih =>
    obtain ⟨name, value⟩ := member
    by_cases used : name = other
    · subst used
      rw [List.filter_cons_of_neg (by simp), ih, lookup]
      by_cases same : key = name
      · simp [same]
      · simp [same, Ne.symm same]
    · rw [List.filter_cons_of_pos (by simpa using used), lookup, ih, lookup]
      by_cases same : name = key
      · subst same
        simp [used]
      · simp [same]

variable {name : String} {parts : RequestParts}

/-- What is chosen for a placeholder is its value, and no other placeholder gains one. -/
theorem chooseValue_spec {config arguments : List (PyStr × Json)}
    {chosen : Json × List (PyStr × Json)} (ok : chooseValue config arguments name = .ok chosen) :
    placeholderValue config arguments name = some chosen.1 ∧
      ∀ other value, placeholderValue config chosen.2 other = some value →
        placeholderValue config arguments other = some value := by
  unfold chooseValue at ok
  cases inConfig : lookup (py name) config with
  | some value =>
    rw [inConfig] at ok
    obtain rfl := (pure_eq_ok _ _).mp ok
    exact ⟨by simp [placeholderValue, inConfig], fun other value found => found⟩
  | none =>
    cases inArguments : lookup (py name) arguments with
    | none =>
      rw [inConfig, inArguments] at ok
      cases ok
    | some value =>
      rw [inConfig, inArguments] at ok
      obtain rfl := (pure_eq_ok _ _).mp ok
      refine ⟨by simp [placeholderValue, inConfig, inArguments], ?_⟩
      intro other value found
      unfold placeholderValue at found ⊢
      rw [lookup_filter] at found
      split at found
      · rw [Option.or_none] at found
        rw [found, Option.some_or]
      · exact found

/-- A template with one placeholder filled in. -/
def put (template : List Char) (entry : String × List Char) : List Char :=
  replaceAll ("\x7b" ++ entry.1 ++ "\x7d").toList entry.2 0 template

/-- Filling placeholders in puts the texts of their values in, one after the other. -/
theorem foldlM_fillFrom {config arguments : List (PyStr × Json)} {names : List String}
    {template : List Char} {left : List Char × List (PyStr × Json)}
    (ok : names.foldlM (fillFrom config) (template, arguments) = .ok left) :
    ∃ filled : List (String × List Char), filled.map Prod.fst = names ∧
      (∀ entry ∈ filled, placeholderText config arguments entry.1 = .ok entry.2) ∧
      left.1 = filled.foldl put template := by
  induction names generalizing template arguments with
  | nil =>
    rw [List.foldlM_nil, pure_eq_ok] at ok
    exact ⟨[], rfl, by simp, by rw [← ok]; rfl⟩
  | cons name rest ih =>
    rw [List.foldlM_cons, bind_eq_ok] at ok
    obtain ⟨next, first, others⟩ := ok
    simp only [fillFrom, bind_eq_ok, pure_eq_ok] at first
    obtain ⟨chosen, isChosen, text, isText, quoted, isQuoted, rfl⟩ := first
    obtain ⟨isValue, kept⟩ := chooseValue_spec isChosen
    obtain ⟨filled, names, texts, result⟩ := ih others
    refine ⟨(name, quoted) :: filled, by simp [names], ?_, by rw [result]; rfl⟩
    intro entry member
    rcases List.mem_cons.mp member with rfl | later
    · exact (placeholderText_eq_ok ..).mpr ⟨chosen.1, isValue, text, isText, isQuoted⟩
    · obtain ⟨value, found, rest⟩ := (placeholderText_eq_ok ..).mp (texts entry later)
      exact (placeholderText_eq_ok ..).mpr ⟨value, kept entry.1 value found, rest⟩

/-- An accepted request's path is its template with a text put in for each placeholder. -/
theorem requestPartsFrom_path {endpoint : ConnectorEndpoint}
    {config arguments : List (PyStr × Json)}
    (ok : requestPartsFrom endpoint config arguments = .ok parts) :
    ∃ filled : List (String × List Char),
      filled.map Prod.fst = placeholders endpoint.path ∧
      (∀ entry ∈ filled, placeholderText config arguments entry.1 = .ok entry.2) ∧
      parts.path.toList = filled.foldl put endpoint.path.toList := by
  simp only [requestPartsFrom, bind_eq_ok, pure_eq_ok] at ok
  obtain ⟨left, filling, key, -, rfl⟩ := ok
  obtain ⟨filled, names, texts, result⟩ := foldlM_fillFrom filling
  refine ⟨filled, names, texts, ?_⟩
  rw [← result]
  split <;> simp

/-! ## Placeholders of a template -/

/-- The characters of a field's key. -/
theorem fieldKey_characters (isKey : isFieldKey name = true) :
    name.toList ≠ [] ∧ ∀ mark ∈ ['/', '?', '#', '\x7b', '\x7d'], mark ∉ name.toList := by
  unfold isFieldKey matchesShape at isKey
  cases isName : name.toList with
  | nil =>
    rw [isName] at isKey
    cases isKey
  | cons head tail =>
    simp only [isName, Bool.and_eq_true, List.all_eq_true] at isKey
    obtain ⟨⟨⟨first, others⟩, -⟩, -⟩ := isKey
    refine ⟨by simp, ?_⟩
    intro mark isMark member
    have plain : (isLower mark || isDigit mark || mark == '_') = false := by
      simp only [List.mem_cons, List.not_mem_nil, or_false] at isMark
      rcases isMark with rfl | rfl | rfl | rfl | rfl <;> decide
    rcases List.mem_cons.mp member with rfl | later
    · simp [first] at plain
    · rw [others mark later] at plain
      cases plain

/-- The text of a placeholder. -/
theorem slot_eq (name : String) :
    ("\x7b" ++ name ++ "\x7d").toList = '\x7b' :: (name.toList ++ ['\x7d']) := by
  simp

/-- What is read between two braces is a placeholder. -/
theorem scan_name {name : List Char} (plain : '\x7b' ∉ name ∧ '\x7d' ∉ name)
    (read after : List Char) (some_ : name ≠ [] ∨ read ≠ []) :
    String.ofList (read.reverse ++ name) ∈
      placeholders.scan (some read) (name ++ '\x7d' :: after) := by
  induction name generalizing read with
  | nil =>
    obtain ⟨last, others, rfl⟩ := List.exists_cons_of_ne_nil (some_.resolve_left (by simp))
    simp [placeholders.scan]
  | cons character rest ih =>
    simp only [List.mem_cons, not_or] at plain
    have next := ih ⟨plain.1.2, plain.2.2⟩ (character :: read) (by simp)
    rw [List.cons_append, placeholders.scan]
    · simpa using next
    · exact fun same => plain.1.1 same.symm
    · exact fun same => plain.2.1 same.symm

/-- A placeholder is found wherever it stands. -/
theorem scan_slot {name : List Char} (some_ : name ≠ [])
    (plain : '\x7b' ∉ name ∧ '\x7d' ∉ name) (before after : List Char)
    (current : Option (List Char)) :
    String.ofList name ∈
      placeholders.scan current (before ++ '\x7b' :: (name ++ '\x7d' :: after)) := by
  induction before generalizing current with
  | nil =>
    rw [List.nil_append, placeholders.scan]
    simpa using scan_name plain [] after (.inl some_)
  | cons character rest ih =>
    rw [List.cons_append]
    unfold placeholders.scan
    split
    · rename_i empty
      cases empty
    · rename_i same
      cases same
      exact ih _
    · rename_i same
      cases same
      split
      · exact List.mem_cons_of_mem _ (ih _)
      · exact ih _
    · rename_i same
      cases same
      exact ih _

/-- A text without an opening brace has no placeholder. -/
theorem scan_plain {text : List Char} (plain : '\x7b' ∉ text) :
    placeholders.scan none text = [] := by
  induction text with
  | nil => rfl
  | cons character rest ih =>
    simp only [List.mem_cons, not_or] at plain
    unfold placeholders.scan
    split
    · rfl
    · rename_i same
      cases same
      exact absurd rfl plain.1
    · rename_i same
      cases same
      exact ih plain.2
    · rename_i same
      cases same
      exact ih plain.2

/-- The names between braces in a part of a path. -/
def placeholdersIn (text : List Char) : List String := placeholders (String.ofList text)

theorem placeholdersIn_eq (text : List Char) : placeholdersIn text = placeholders.scan none text := by
  rw [placeholdersIn, placeholders, String.toList_ofList]

/-- The text a placeholder is filled in with, as an endpoint and `quote` leave it. -/
structure Proper (entry : String × List Char) : Prop where
  key : isFieldKey entry.1 = true
  marks : ∀ mark ∈ ['/', '?', '#', '\x7b', '\x7d'], mark ∉ entry.2

/-- A leading slash stays where it is. -/
theorem put_slash (rest : List Char) (entry : String × List Char) :
    put ('/' :: rest) entry = '/' :: put rest entry := by
  apply replaceAll_other
  simp

variable {part : List Char} {mark : Char} {runtime : Runtime}

namespace Proper

variable {entry : String × List Char} (proper : Proper entry)

include proper

/-- The marks of a URL stand in no placeholder. -/
theorem slot (isMark : mark ∈ ['/', '?', '#']) :
    mark ∉ ("\x7b" ++ entry.1 ++ "\x7d").toList := by
  have inKey := (fieldKey_characters proper.key).2 mark (by
    simp only [List.mem_cons, List.not_mem_nil, or_false] at isMark ⊢
    tauto)
  have braces : mark ≠ '\x7b' ∧ mark ≠ '\x7d' := by
    simp only [List.mem_cons, List.not_mem_nil, or_false] at isMark
    rcases isMark with rfl | rfl | rfl <;> decide
  rw [slot_eq]
  simp [inKey, braces]

/-- A mark of a URL is in the outcome if it was in the template. -/
theorem mem_put (isMark : mark ∈ ['/', '?', '#']) (template : List Char) :
    mark ∈ put template entry ↔ mark ∈ template := by
  apply mem_replaceAll (by simp) (proper.slot isMark)
  · apply proper.marks
    simp only [List.mem_cons, List.not_mem_nil, or_false] at isMark ⊢
    tauto
  · simp

/-- A placeholder is filled in segment by segment. -/
theorem splitOn_put (template : List Char) :
    (put template entry).splitOn '/' = (template.splitOn '/').map fun part => put part entry := by
  obtain ⟨first, others, split⟩ :=
    List.exists_cons_of_ne_nil (List.splitOn_ne_nil '/' template)
  have parts := splitOn_replaceAll (by simp) (proper.slot (by simp))
    (proper.marks '/' (by simp)) 0 (by simp) split
  rw [put, parts, split]
  rfl

/-- A part of a path without placeholders is left as it is. -/
theorem put_literal (literal : placeholdersIn part = []) :
    put part entry = part := by
  apply replaceAll_of_not_infix
  rintro ⟨before, after, same⟩
  obtain ⟨some_, plain⟩ := fieldKey_characters proper.key
  have found := scan_slot some_ ⟨plain _ (by simp), plain _ (by simp)⟩ before after none
  rw [placeholdersIn_eq, ← same, slot_eq] at literal
  simp only [List.append_assoc, List.cons_append, List.nil_append] at literal
  rw [literal] at found
  cases found

end Proper

theorem foldl_put_slash (filled : List (String × List Char)) (rest : List Char) :
    filled.foldl put ('/' :: rest) = '/' :: filled.foldl put rest := by
  induction filled generalizing rest with
  | nil => rfl
  | cons entry others ih =>
    rw [List.foldl_cons, put_slash, ih]
    rfl

section Filling

variable {filled : List (String × List Char)} (proper : ∀ entry ∈ filled, Proper entry)

include proper

theorem splitOn_foldl_put (template : List Char) :
    (filled.foldl put template).splitOn '/' =
      (template.splitOn '/').map fun part => filled.foldl put part := by
  induction filled generalizing template with
  | nil => simp
  | cons entry others ih =>
    rw [List.foldl_cons, ih fun other member => proper other (by simp [member]),
      (proper entry (by simp)).splitOn_put, List.map_map]
    rfl

theorem mem_foldl_put (isMark : mark ∈ ['/', '?', '#']) (template : List Char) :
    mark ∈ filled.foldl put template ↔ mark ∈ template := by
  induction filled generalizing template with
  | nil => rfl
  | cons entry others ih =>
    rw [List.foldl_cons, ih fun other member => proper other (by simp [member]),
      (proper entry (by simp)).mem_put isMark]

theorem foldl_put_literal (literal : placeholdersIn part = []) :
    filled.foldl put part = part := by
  induction filled with
  | nil => rfl
  | cons entry others ih =>
    rw [List.foldl_cons, (proper entry (by simp)).put_literal literal,
      ih fun other member => proper other (by simp [member])]

end Filling

/-- What stands inside a dot segment is empty or a dot segment itself. -/
theorem dot_infix {inner outer : List Char} (dots : IsDotSegment outer) (inside : inner <:+: outer) :
    inner = [] ∨ IsDotSegment inner := by
  have few : ∃ count ≤ 2, outer = List.replicate count '.' := by
    rcases dots with rfl | rfl
    · exact ⟨1, by decide, rfl⟩
    · exact ⟨2, by decide, rfl⟩
  obtain ⟨count, bounded, rfl⟩ := few
  obtain ⟨fewer, below, rfl⟩ := List.sublist_replicate_iff.mp inside.sublist
  have small : fewer = 0 ∨ fewer = 1 ∨ fewer = 2 := by omega
  rcases small with rfl | rfl | rfl
  · exact .inl rfl
  · exact .inr (.inl rfl)
  · exact .inr (.inr rfl)

/-- A part of a path that is neither empty nor a dot segment stays so when segments are put
in. -/
theorem foldl_put_ordinary {filled : List (String × List Char)}
    (segments : ∀ entry ∈ filled, IsSegment entry.2) (ordinary : part ≠ [] ∧ ¬ IsDotSegment part) :
    filled.foldl put part ≠ [] ∧ ¬ IsDotSegment (filled.foldl put part) := by
  induction filled generalizing part with
  | nil => exact ordinary
  | cons entry others ih =>
    rw [List.foldl_cons]
    apply ih fun other member => segments other (by simp [member])
    have segment := segments entry (by simp)
    rcases replaceAll_infix ("\x7b" ++ entry.1 ++ "\x7d").toList entry.2 part 0 with same | inside
    · rw [put, same, List.drop_zero]
      exact ordinary
    · change entry.2 <:+: put part entry at inside
      constructor
      · intro nothing
        rw [nothing] at inside
        exact segment.1 (List.infix_nil.mp inside)
      · intro dots
        rcases dot_infix dots inside with nothing | dot
        · exact segment.1 nothing
        · exact segment.2.2 dot

/-! ## Containment -/

/-- How one segment of a requested path follows from the template's: a literal one is left as it
is, and one with placeholders becomes a segment that no client walks over. -/
structure Fills (template requested : List Char) : Prop where
  literal : placeholdersIn template = [] → requested = template
  placeholder : placeholdersIn template ≠ [] → IsSegment requested

/-- A request stays where its endpoint puts it: every placeholder is filled in with exactly one
segment, the whole endpoint path is in the path of the URL, and the client that has resolved the
dot segments requests the base path with the endpoint's segments in place. -/
structure Contained (base : HttpUrl) (endpoint : ConnectorEndpoint)
    (config arguments : List (PyStr × Json)) (path : String) : Prop where
  filled : ∀ name ∈ placeholders endpoint.path, ∀ text,
    placeholderText config arguments name = .ok text → IsSegment text
  bare : (UrlReference.ofText (base.text ++ path.toList)).rest = []
  inPlace : ∃ requested,
    removeDotSegments (pathSegments (UrlReference.ofText (base.text ++ path.toList)).path) =
      directory (pathSegments base.path) ++ requested ∧
    List.Forall₂ Fills (pathSegments endpoint.path.toList) requested

/-- The requests that stay where their endpoint puts them: neither base URL nor endpoint path
holds a mark of a query or a fragment, the endpoint path has no dot segment of its own, and no
value is empty, one dot or two dots. -/
structure Containable (base : HttpUrl) (endpoint : ConnectorEndpoint)
    (config arguments : List (PyStr × Json)) : Prop where
  base_bare : base.rest = []
  path_bare : ∀ character ∈ endpoint.path.toList, UrlReference.endsPath character = false
  no_dot : ['.'] ∉ pathSegments endpoint.path.toList
  values : ∀ name ∈ placeholders endpoint.path, ∀ value ∈ placeholderValue config arguments name,
    ∀ text, pathText value = .ok text → ¬ IsEscape text

theorem isInfix_iff (part text : List Char) : isInfix part text = true ↔ part <:+: text := by
  induction text with
  | nil => simp [isInfix]
  | cons character rest ih =>
    rw [isInfix, Bool.or_eq_true, ih, List.isPrefixOf_iff_prefix,
      List.infix_cons_iff]

/-- What the contract guarantees of an endpoint's path. -/
theorem path_of_validate {endpoint : ConnectorEndpoint}
    (accepted : endpoint.validate runtime = .ok ()) :
    (∃ rest, endpoint.path.toList = '/' :: rest) ∧
      ¬ ['.', '.'] <:+: endpoint.path.toList ∧
      ∀ name ∈ placeholders endpoint.path, isFieldKey name = true := by
  simp only [ConnectorEndpoint.validate, bind_eq_ok, raiseIf_eq_ok] at accepted
  obtain ⟨_, -, _, -, _, absolute, _, keys, -⟩ := accepted
  simp only [not_or, ne_eq, not_not] at absolute
  obtain ⟨starts, -, noDots⟩ := absolute
  refine ⟨?_, ?_, ?_⟩
  · cases isPath : endpoint.path.toList with
    | nil => simp [isPath] at starts
    | cons first rest =>
      rw [isPath, List.head?_cons, Option.some.injEq] at starts
      exact ⟨rest, by rw [starts]⟩
  · rwa [← isInfix_iff]
  · intro name member
    simp only [List.any_eq_true, not_exists, not_and, Bool.not_eq_true'] at keys
    simpa using keys name member

theorem endsPath_iff (text : List Char) :
    (∀ character ∈ text, UrlReference.endsPath character = false) ↔ '?' ∉ text ∧ '#' ∉ text := by
  constructor
  · intro plain
    constructor
    · intro member
      exact absurd (plain '?' member) (by decide)
    · intro member
      exact absurd (plain '#' member) (by decide)
  · rintro ⟨noQuery, noFragment⟩ character member
    simp only [UrlReference.endsPath, Bool.or_eq_false_iff, decide_eq_false_iff_not]
    constructor
    · rintro rfl
      exact noQuery member
    · rintro rfl
      exact noFragment member

/-- How the path of an accepted request came about. -/
structure FilledIn (endpoint : ConnectorEndpoint) (config arguments : List (PyStr × Json))
    (path : String) (rest : List Char) (filled : List (String × List Char)) : Prop where
  template : endpoint.path.toList = '/' :: rest
  no_dots : ¬ ['.', '.'] <:+: endpoint.path.toList
  names : filled.map Prod.fst = placeholders endpoint.path
  texts : ∀ entry ∈ filled, placeholderText config arguments entry.1 = .ok entry.2
  proper : ∀ entry ∈ filled, Proper entry
  result : path.toList = '/' :: filled.foldl put rest

theorem exists_filledIn {endpoint : ConnectorEndpoint} {config arguments : List (PyStr × Json)}
    (accepted : endpoint.validate runtime = .ok ())
    (built : requestPartsFrom endpoint config arguments = .ok parts) :
    ∃ rest filled, FilledIn endpoint config arguments parts.path rest filled := by
  obtain ⟨⟨rest, template⟩, noDots, keys⟩ := path_of_validate accepted
  obtain ⟨filled, names, texts, result⟩ := requestPartsFrom_path built
  refine ⟨rest, filled, template, noDots, names, texts, ?_, ?_⟩
  · intro entry member
    obtain ⟨value, -, text, -, isQuoted⟩ := (placeholderText_eq_ok ..).mp (texts entry member)
    refine ⟨keys entry.1 ?_, fun mark isMark => quoted_marks isQuoted isMark⟩
    rw [← names]
    exact List.mem_map.mpr ⟨entry, member, rfl⟩
  · rw [result, template, foldl_put_slash]

namespace FilledIn

variable {base : HttpUrl} {endpoint : ConnectorEndpoint} {config arguments : List (PyStr × Json)}
  {path : String} {rest : List Char} {filled : List (String × List Char)}
  (from_ : FilledIn endpoint config arguments path rest filled)

include from_

theorem segments : pathSegments endpoint.path.toList = rest.splitOn '/' := by
  rw [from_.template, ← List.nil_append ('/' :: rest), pathSegments_append_slash]
  rfl

/-- Values put nothing outside the path, so only base URL and template can. -/
theorem bare_iff :
    (UrlReference.ofText (base.text ++ path.toList)).rest = [] ↔
      base.rest = [] ∧
        ∀ character ∈ endpoint.path.toList, UrlReference.endsPath character = false := by
  rw [from_.result, base.rest_append_slash, endsPath_iff, endsPath_iff, from_.template,
    mem_foldl_put from_.proper (by simp), mem_foldl_put from_.proper (by simp)]
  simp

/-- Placeholders are filled in with segments exactly when no value escapes. -/
theorem filled_iff :
    (∀ name ∈ placeholders endpoint.path, ∀ text,
      placeholderText config arguments name = .ok text → IsSegment text) ↔
    ∀ name ∈ placeholders endpoint.path, ∀ value ∈ placeholderValue config arguments name,
      ∀ text, pathText value = .ok text → ¬ IsEscape text := by
  constructor
  · intro segments name member value found text isText
    rw [← from_.names] at member
    obtain ⟨entry, inFilled, rfl⟩ := List.mem_map.mp member
    have quoted := from_.texts entry inFilled
    obtain ⟨other, found', same, isText', isQuoted⟩ := (placeholderText_eq_ok ..).mp quoted
    obtain rfl := Option.some.inj ((Option.mem_def.mp found).symm.trans found')
    obtain rfl := Except.ok.inj (isText.symm.trans isText')
    apply (isSegment_quoted isQuoted).mp
    apply segments entry.1 _ entry.2 quoted
    rw [← from_.names]
    exact member
  · intro values name member quoted ok
    obtain ⟨value, found, text, isText, isQuoted⟩ := (placeholderText_eq_ok ..).mp ok
    exact (isSegment_quoted isQuoted).mpr (values name member value found text isText)

/-- The segments of the path that is requested. -/
theorem requested (bare : (UrlReference.ofText (base.text ++ path.toList)).rest = []) :
    pathSegments (UrlReference.ofText (base.text ++ path.toList)).path =
      pathSegments base.path ++ (rest.splitOn '/').map fun part => filled.foldl put part := by
  rw [from_.result] at bare ⊢
  rw [base.path_append_slash bare, pathSegments_append_slash, splitOn_foldl_put from_.proper]

/-- Every segment of the template is filled in as it should be. -/
theorem fills (segments : ∀ entry ∈ filled, IsSegment entry.2) (member : part ∈ rest.splitOn '/') :
    Fills part (filled.foldl put part) where
  literal := foldl_put_literal from_.proper
  placeholder := by
    intro hasPlaceholder
    have brace : '\x7b' ∈ part := by
      by_contra plain
      rw [placeholdersIn_eq] at hasPlaceholder
      exact hasPlaceholder (scan_plain plain)
    have ordinary : part ≠ [] ∧ ¬ IsDotSegment part := by
      constructor
      · rintro rfl
        cases brace
      · rintro (rfl | rfl)
        · exact absurd brace (by decide)
        · exact absurd brace (by decide)
    have slash : '/' ∉ filled.foldl put part := by
      have inResult : filled.foldl put part ∈ (filled.foldl put rest).splitOn '/' := by
        rw [splitOn_foldl_put from_.proper]
        exact List.mem_map.mpr ⟨part, member, rfl⟩
      exact (splitOn_part inResult).1
    have stays := foldl_put_ordinary segments ordinary
    exact ⟨stays.1, slash, stays.2⟩

/-- A containable request is in place. -/
theorem inPlace (containable : Containable base endpoint config arguments) :
    ∃ requested,
      removeDotSegments (pathSegments (UrlReference.ofText (base.text ++ path.toList)).path) =
        directory (pathSegments base.path) ++ requested ∧
      List.Forall₂ Fills (pathSegments endpoint.path.toList) requested := by
  have bare := from_.bare_iff.mpr ⟨containable.base_bare, containable.path_bare⟩
  have segments : ∀ entry ∈ filled, IsSegment entry.2 := by
    intro entry member
    have isName : entry.1 ∈ placeholders endpoint.path := by
      rw [← from_.names]
      exact List.mem_map.mpr ⟨entry, member, rfl⟩
    exact from_.filled_iff.mpr containable.values entry.1 isName entry.2 (from_.texts entry member)
  have fills : ∀ part ∈ rest.splitOn '/', Fills part (filled.foldl put part) := fun part member =>
    from_.fills segments member
  refine ⟨(rest.splitOn '/').map fun part => filled.foldl put part, ?_, ?_⟩
  · rw [from_.requested bare]
    apply removeDotSegments_append
    · simp [List.splitOn_ne_nil]
    · intro segment member
      obtain ⟨part, inTemplate, rfl⟩ := List.mem_map.mp member
      by_cases literal : placeholdersIn part = []
      · rw [(fills part inTemplate).literal literal]
        rintro (dot | dots)
        · apply containable.no_dot
          rw [from_.segments, ← dot]
          exact inTemplate
        · apply from_.no_dots
          rw [from_.template, ← dots]
          exact List.infix_cons (splitOn_part inTemplate).2
      · exact ((fills part inTemplate).placeholder literal).2.2
  · rw [from_.segments, List.forall₂_map_right_iff, List.forall₂_same]
    exact fills

end FilledIn

/-- A literal dot segment does not survive its resolution. -/
theorem Contained.no_dot {base : HttpUrl} {endpoint : ConnectorEndpoint}
    {config arguments : List (PyStr × Json)} {path : String}
    (contained : Contained base endpoint config arguments path) :
    ['.'] ∉ pathSegments endpoint.path.toList := by
  intro member
  obtain ⟨requested, resolved, fills⟩ := contained.inPlace
  have kept : ∀ {template requested : List (List Char)}, List.Forall₂ Fills template requested →
      ['.'] ∈ template → ['.'] ∈ requested := by
    intro template requested fills
    induction fills with
    | nil => exact id
    | cons fill others ih =>
      intro member
      rcases List.mem_cons.mp member with rfl | later
      · rw [fill.literal (by decide)]
        exact List.mem_cons_self ..
      · exact List.mem_cons_of_mem _ (ih later)
  have left := removeDotSegments_ordinary (pathSegments
    (UrlReference.ofText (base.text ++ path.toList)).path) ['.'] (by
      rw [resolved]
      exact List.mem_append_right _ (kept fills member))
  exact left (.inl rfl)

/-- A request whose path is built is contained exactly when it is containable. -/
theorem connector_path_contained {runtime : Runtime} {base : HttpUrl}
    {endpoint : ConnectorEndpoint} {config arguments : List (PyStr × Json)} {parts : RequestParts}
    (accepted : endpoint.validate runtime = .ok ())
    (built : requestPartsFrom endpoint config arguments = .ok parts) :
    Contained base endpoint config arguments parts.path ↔
      Containable base endpoint config arguments := by
  obtain ⟨rest, filled, from_⟩ := exists_filledIn accepted built
  constructor
  · intro contained
    obtain ⟨baseBare, pathBare⟩ := from_.bare_iff.mp contained.bare
    exact ⟨baseBare, pathBare, contained.no_dot, from_.filled_iff.mp contained.filled⟩
  · intro containable
    exact ⟨from_.filled_iff.mpr containable.values,
      from_.bare_iff.mpr ⟨containable.base_bare, containable.path_bare⟩,
      from_.inPlace containable⟩

/-- An endpoint of a customer's own system. -/
def ordersEndpoint : ConnectorEndpoint where
  capability := "orders.list"
  method := .get
  path := "/v1/customers/\x7bcustomer_id\x7d/orders"
  description := "Orders of a customer"
  sideEffect := .read
  retry := .safe
  inputSchema := defaultInputSchema
  outputSchema := none

/-- The base URL of that system. -/
def ordersBase : HttpUrl where
  scheme := "https".toList
  authority := "api.example.com".toList
  path := []
  rest := []
  scheme_some := by simp
  scheme_ends := by simp [UrlReference.endsScheme, UrlReference.endsAuthority]
  authority_ends := by simp [UrlReference.endsAuthority]
  path_starts := by simp
  path_ends := by simp
  rest_starts := by simp

/-- The endpoint's only placeholder is no escape if its argument is none. -/
theorem ordersEndpoint_values {text : PyStr} (noEscape : ¬ IsEscape text) :
    ∀ name ∈ placeholders ordersEndpoint.path,
      ∀ value ∈ placeholderValue [] [(py "customer_id", .str text)] name,
        ∀ written, pathText value = .ok written → ¬ IsEscape written := by
  intro name member value found written isText
  have names : placeholders ordersEndpoint.path = ["customer_id"] := by decide +kernel
  rw [names, List.mem_singleton] at member
  subst member
  simp only [placeholderValue, lookup, Option.none_or, if_true, Option.mem_some] at found
  subst found
  obtain rfl := (pure_eq_ok _ _).mp isText
  exact noEscape

/-- A slash of a value stays inside its segment. -/
theorem connector_path_contained_slash :
    ordersEndpoint.validate exampleRuntime = .ok () ∧
      Contained ordersBase ordersEndpoint [] [(py "customer_id", .str (py "a/b"))]
        "/v1/customers/a%2Fb/orders" := by
  have accepted : ordersEndpoint.validate exampleRuntime = .ok () := by decide +kernel
  have built : requestPartsFrom ordersEndpoint [] [(py "customer_id", .str (py "a/b"))] =
      .ok ⟨"/v1/customers/a%2Fb/orders", [], none, none⟩ := by decide +kernel
  exact ⟨accepted, (connector_path_contained accepted built).mpr
    ⟨rfl, (endsPath_iff _).mpr (by decide +kernel), by decide +kernel,
      ordersEndpoint_values (by decide +kernel)⟩⟩

/-- Two dots are left as they are, and the client walks from the customers to all orders. -/
theorem two_dots_leave_segment :
    ¬ ∀ (runtime : Runtime) (base : HttpUrl) (endpoint : ConnectorEndpoint)
        (config arguments : List (PyStr × Json)) (parts : RequestParts),
        endpoint.validate runtime = .ok () →
        requestPartsFrom endpoint config arguments = .ok parts →
        Contained base endpoint config arguments parts.path := by
  intro always
  have built : requestPartsFrom ordersEndpoint [] [(py "customer_id", .str (py ".."))] =
      .ok ⟨"/v1/customers/../orders", [], none, none⟩ := by decide +kernel
  have contained := always exampleRuntime ordersBase ordersEndpoint [] _ _ (by decide +kernel) built
  have resolved : removeDotSegments (pathSegments
      (UrlReference.ofText (ordersBase.text ++ "/v1/customers/../orders".toList)).path) =
      ["v1".toList, "orders".toList] := by decide +kernel
  obtain ⟨requested, inPlace, fills⟩ := contained.inPlace
  have fewer := congrArg List.length (resolved.symm.trans inPlace)
  have length := fills.length_eq
  have template : (pathSegments ordersEndpoint.path.toList).length = 4 := by decide +kernel
  rw [List.length_append] at fewer
  simp only [List.length_cons, List.length_nil] at fewer
  omega

end Nexora.Connector
