import Nexora.Connector.Egress
import Nexora.Tools.Printing

/-!
# Storing what a connector answers

The answer of a provider becomes the result of a tool call: a short answer as the JSON it
denotes or else as a text, a long one as the start of its text. The bound on the answer counts
characters or the bytes of its own encoding; the bound on the result counts the bytes of its
canonical encoding, in which a character takes up to six bytes and a number may grow.
-/

namespace Nexora.Connector

open Nexora.Std Nexora.Tools Nexora.Integration Json

/-- What `json.loads` makes of a text. -/
inductive Loaded where
  | value (value : Json)
  | decodeError
  /-- Any other exception, such as that of a text that nests too deep. -/
  | raised

/-- Longest answer, in bytes, that is read as JSON, and the characters of a longer one that are
kept. -/
def maxAnswer : Nat := 48000

/-- The answer of a provider as data, unless it is read and an exception leaves the call. -/
def answerData (loads : String → Loaded) (body : String) : Option Json :=
  if maxAnswer < utf8Length (py body) then
    some (.str (py (String.ofList (body.toList.take maxAnswer))))
  else
    match loads body with
    | .value value => some value
    | .decodeError => some (.str (py body))
    | .raised => none

/-- What `call_tool_for_context` returns for an answer that succeeded. -/
def toolResult (loads : String → Loaded) (statusCode : Nat) (body : Option String) :
    Option Json :=
  match stated body with
  | none => some (.object [(py "ok", .bool true), (py "status_code", .int statusCode)])
  | some body =>
    (answerData loads body).map fun data =>
      .object [(py "ok", .bool true), (py "status_code", .int statusCode), (py "data", data),
        (py "truncated", .bool (maxAnswer < utf8Length (py body)))]

/-- A call has a result, and the result can be stored. -/
def HasStorableResult (runtime : Runtime) (loads : String → Loaded) (statusCode : Nat)
    (body : Option String) : Prop :=
  ∃ result, toolResult loads statusCode body = some result ∧
    ∃ encoded, canonicalJson runtime result maxResultBytes = .ok encoded

/-- The bytes a text takes inside a JSON string. -/
def escapedLength (text : PyStr) : Nat := utf8Length (text.flatMap escapePoint)

/-- A value that can be a member of a result, within some bytes of its own. -/
def EncodesWithin (runtime : Runtime) (value : Json) (bytes : Nat) : Prop :=
  value.depth < runtime.recursionLimit ∧ value.hasUnencodable = false ∧
    (dumps runtime value).any isSurrogate = false ∧ utf8Length (dumps runtime value) ≤ bytes

/-- The answers whose result can be stored: of a long one, the characters that are kept take at
most 65480 bytes inside a JSON string; of a short one that is no JSON, all of them at most 65479;
and one that is JSON denotes a value that encodes within 65481 bytes. -/
def FitsResult (runtime : Runtime) (loads : String → Loaded) (body : String) : Prop :=
  if maxAnswer < utf8Length (py body) then
    escapedLength (py (String.ofList (body.toList.take maxAnswer))) ≤ 65480
  else
    match loads body with
    | .value value => EncodesWithin runtime value 65481
    | .decodeError => escapedLength (py body) ≤ 65479
    | .raised => False

/-! ## The size of a result -/

theorem utf8Length_quoted (text : PyStr) : utf8Length (quoted text) = escapedLength text + 2 := by
  have quote : utf8Length (py "\"") = 1 := by decide
  simp only [quoted, utf8Length_append, quote, escapedLength]
  omega

/-- How the members every result has are written. -/
theorem dumps_members : quoted (py "ok") ++ py ":" ++ py "true" = py "\"ok\":true" ∧
    quoted (py "status_code") ++ py ":" = py "\"status_code\":" ∧
    py "ok" ≤ py "status_code" := by
  decide

/-- The canonical encoding of a result with data. -/
theorem dumps_result (runtime : Runtime) (statusCode : Nat) (data : Json) (truncated : Bool) :
    dumps runtime (.object [(py "ok", .bool true), (py "status_code", .int statusCode),
      (py "data", data), (py "truncated", .bool truncated)]) =
      py "\x7b\"data\":" ++ dumps runtime data ++ py ",\"ok\":true,\"status_code\":" ++
        py (toString (statusCode : Int)) ++ py ",\"truncated\":" ++
        py (if truncated then "true" else "false") ++ py "\x7d" := by
  have truth : dumps runtime (.bool truncated) = py (if truncated then "true" else "false") := by
    cases truncated <;> rfl
  have sorted (ok status data truncated : PyStr) :
      [(py "ok", ok), (py "status_code", status), (py "data", data),
          (py "truncated", truncated)].insertionSort (fun left right => left.1 ≤ right.1) =
        [(py "data", data), (py "ok", ok), (py "status_code", status),
          (py "truncated", truncated)] := by
    have first : ¬ py "ok" ≤ py "data" := by decide
    have second : ¬ py "status_code" ≤ py "data" := by decide
    have third : py "data" ≤ py "truncated" := by decide
    have fourth : py "status_code" ≤ py "truncated" := by decide
    simp only [List.insertionSort, List.foldr, List.orderedInsert, first, second, third, fourth,
      dumps_members.2.2, if_true, if_false]
  have members : dumpsMembers runtime [(py "ok", .bool true), (py "status_code", .int statusCode),
      (py "data", data), (py "truncated", .bool truncated)] =
      [(py "ok", py "true"), (py "status_code", py (toString (statusCode : Int))),
        (py "data", dumps runtime data),
        (py "truncated", py (if truncated then "true" else "false"))] := by
    rw [← truth]
    rfl
  obtain ⟨ok, status, -⟩ := dumps_members
  have dataKey : quoted (py "data") ++ py ":" = py "\"data\":" := by decide
  have truncatedKey : quoted (py "truncated") ++ py ":" = py "\"truncated\":" := by decide
  rw [dumps, members, sorted]
  simp only [List.map_cons, List.map_nil, ok, status, dataKey, truncatedKey, commaSeparated,
    List.intersperse, List.flatten_cons, List.flatten_nil, List.append_nil]
  have open_ : py "\x7b\"data\":" = py "\x7b" ++ py "\"data\":" := by decide
  have middle : py ",\"ok\":true,\"status_code\":" =
      py "," ++ (py "\"ok\":true" ++ (py "," ++ py "\"status_code\":")) := by decide
  have end_ : py ",\"truncated\":" = py "," ++ py "\"truncated\":" := by decide
  simp only [open_, middle, end_, List.append_assoc]

/-- The canonical encoding of a result without data. -/
theorem dumps_bare (runtime : Runtime) (statusCode : Nat) :
    dumps runtime (.object [(py "ok", .bool true), (py "status_code", .int statusCode)]) =
      py "\x7b\"ok\":true,\"status_code\":" ++ py (toString (statusCode : Int)) ++ py "\x7d" := by
  have sorted (ok status : PyStr) :
      [(py "ok", ok), (py "status_code", status)].insertionSort
        (fun left right => left.1 ≤ right.1) = [(py "ok", ok), (py "status_code", status)] := by
    simp only [List.insertionSort, List.foldr, List.orderedInsert, dumps_members.2.2, if_true]
  have members : dumpsMembers runtime [(py "ok", .bool true), (py "status_code", .int statusCode)] =
      [(py "ok", py "true"), (py "status_code", py (toString (statusCode : Int)))] := rfl
  obtain ⟨ok, status, -⟩ := dumps_members
  have opening : py "\x7b\"ok\":true,\"status_code\":" =
      py "\x7b" ++ (py "\"ok\":true" ++ (py "," ++ py "\"status_code\":")) := by decide
  rw [dumps, members, sorted]
  simp only [List.map_cons, List.map_nil, ok, status, commaSeparated, List.intersperse,
    List.flatten_cons, List.flatten_nil, List.append_nil]
  simp only [opening, List.append_assoc]

variable {statusCode : Nat} {runtime : Runtime}

/-- A status of success is written with three digits. -/
theorem status_text (success : 200 ≤ statusCode ∧ statusCode ≤ 299) :
    utf8Length (py (toString (statusCode : Int))) = 3 ∧
      unencodable (.int (statusCode : Int)) = false := by
  have all : ∀ offset : Fin 100, utf8Length (py (toString ((200 + offset.val : Nat) : Int))) = 3 ∧
      unencodable (.int ((200 + offset.val : Nat) : Int)) = false := by decide +kernel
  obtain ⟨offset, rfl⟩ := Nat.exists_eq_add_of_le success.1
  exact all ⟨offset, by omega⟩

/-- A result with data can be stored exactly if the data fit beside the other members. -/
theorem result_encodes_iff (runtime : Runtime) (success : 200 ≤ statusCode ∧ statusCode ≤ 299)
    (data : Json) (truncated : Bool) :
    (∃ encoded, canonicalJson runtime (.object [(py "ok", .bool true),
        (py "status_code", .int statusCode), (py "data", data), (py "truncated", .bool truncated)])
        maxResultBytes = .ok encoded) ↔
      EncodesWithin runtime data (if truncated then 65482 else 65481) := by
  obtain ⟨digits, encodable⟩ := status_text success
  have depth : depth (.object [(py "ok", .bool true), (py "status_code", .int statusCode),
      (py "data", data), (py "truncated", .bool truncated)]) = data.depth + 1 := by
    simp [Json.depth, depthMembers]
  have numbers : hasUnencodable (.object [(py "ok", .bool true),
      (py "status_code", .int statusCode), (py "data", data),
      (py "truncated", .bool truncated)]) = data.hasUnencodable := by
    simp only [hasUnencodable, anyPart, anyMember, encodable]
    simp [unencodable]
  have letters : (dumps runtime (.object [(py "ok", .bool true),
      (py "status_code", .int statusCode), (py "data", data),
      (py "truncated", .bool truncated)])).any isSurrogate =
        (dumps runtime data).any isSurrogate := by
    simp only [dumps_result, List.any_append, py_noSurrogate, Bool.or_false, Bool.false_or]
  have size : utf8Length (dumps runtime (.object [(py "ok", .bool true),
      (py "status_code", .int statusCode), (py "data", data),
      (py "truncated", .bool truncated)])) =
        utf8Length (dumps runtime data) + if truncated then 54 else 55 := by
    have opening : utf8Length (py "\x7b\"data\":") = 8 := by decide
    have middle : utf8Length (py ",\"ok\":true,\"status_code\":") = 25 := by decide
    have ending : utf8Length (py ",\"truncated\":") = 13 := by decide
    have brace : utf8Length (py "\x7d") = 1 := by decide
    have yes : utf8Length (py "true") = 4 := by decide
    have no : utf8Length (py "false") = 5 := by decide
    simp only [dumps_result, utf8Length_append, opening, middle, ending, brace, digits]
    cases truncated with
    | true =>
      simp only [if_true, yes]
      omega
    | false =>
      simp only [Bool.false_eq_true, if_false, no]
      omega
  simp only [canonicalJson_eq_ok, depth, numbers, letters, size, exists_and_left, EncodesWithin,
    maxResultBytes, exists_eq', and_true, and_assoc]
  apply and_congr Nat.succ_le_iff
  apply and_congr_right
  intro _
  apply and_congr_right
  intro _
  cases truncated <;> simp

/-- A text encodes within what its characters take in a JSON string. -/
theorem text_encodes_iff (nests : 0 < runtime.recursionLimit) (text : String) (bytes : Nat) :
    EncodesWithin runtime (.str (py text)) bytes ↔ escapedLength (py text) + 2 ≤ bytes := by
  have letters := quoted_surrogate (py text)
  rw [py_noSurrogate] at letters
  simp [EncodesWithin, dumps, Json.depth, hasUnencodable, anyPart, nests, letters,
    utf8Length_quoted]

/-- A call that succeeded has a storable result exactly if its answer fits into one. -/
theorem successful_result_storable_iff {runtime : Runtime} (nests : 0 < runtime.recursionLimit)
    (loads : String → Loaded) {statusCode : Nat} (success : 200 ≤ statusCode ∧ statusCode ≤ 299)
    (body : Option String) :
    HasStorableResult runtime loads statusCode body ↔
      ∀ text ∈ stated body, FitsResult runtime loads text := by
  unfold HasStorableResult toolResult
  cases isStated : stated body with
  | none =>
    obtain ⟨digits, encodable⟩ := status_text success
    have opening : utf8Length (py "\x7b\"ok\":true,\"status_code\":") = 25 := by decide +kernel
    have brace : utf8Length (py "\x7d") = 1 := by decide +kernel
    simp only [Option.some.injEq, exists_eq_left', canonicalJson_eq_ok, dumps_bare,
      List.any_append, py_noSurrogate, utf8Length_append, opening, brace, digits]
    have numbers : hasUnencodable (.object [(py "ok", .bool true),
        (py "status_code", .int statusCode)]) = false := by
      simp only [hasUnencodable, anyPart, anyMember, encodable]
      rfl
    simp [numbers, Json.depth, depthMembers, maxResultBytes, Nat.succ_le_iff, nests]
  | some text =>
    simp only [Option.map_eq_some_iff, exists_exists_and_eq_and, Option.mem_some, forall_eq',
      FitsResult, answerData]
    by_cases long : maxAnswer < utf8Length (py text)
    · simp only [long, if_true, decide_true, Option.some.injEq, exists_eq_left',
        result_encodes_iff runtime success, text_encodes_iff nests]
      omega
    · simp only [long, if_false, decide_false]
      cases loads text with
      | value value =>
        simp only [Option.some.injEq, exists_eq_left', result_encodes_iff runtime success,
          Bool.false_eq_true, if_false]
      | decodeError =>
        simp only [Option.some.injEq, exists_eq_left', result_encodes_iff runtime success,
          Bool.false_eq_true, if_false, text_encodes_iff nests]
        omega
      | raised => simp

/-- A list of items that a provider answers with fits. -/
theorem successful_result_storable_iff_list :
    HasStorableResult exampleRuntime
      (fun text => if text = "[1,2]" then .value (.array [.int 1, .int 2]) else .decodeError) 200
      (some "[1,2]") := by
  refine (successful_result_storable_iff (by decide) _ (by decide) _).mpr ?_
  intro text member
  have same : stated (some "[1,2]") = some "[1,2]" := by decide +kernel
  rw [same] at member
  obtain rfl := Option.mem_some.mp member
  have short : ¬ maxAnswer < utf8Length (py "[1,2]") := by decide +kernel
  simp only [FitsResult, short, if_false, if_true]
  exact ⟨by decide +kernel, by decide +kernel, by decide +kernel, by decide +kernel⟩

/-- A text of backslashes, which is no JSON. -/
def backslashes (count : Nat) : String := String.ofList (List.replicate count '\\')

/-- A backslash takes one byte, and two inside a JSON string. -/
theorem backslashes_length (count : Nat) : utf8Length (py (backslashes count)) = count ∧
    escapedLength (py (backslashes count)) = 2 * count := by
  have points : py (backslashes count) = List.replicate count (0x5c : Fin 0x110000) := by
    simp only [py, backslashes, String.toList_ofList, List.map_replicate]
    rfl
  have plain : utf8Length [(0x5c : Fin 0x110000)] = 1 := by decide +kernel
  have escaped : utf8Length (escapePoint 0x5c) = 2 := by decide +kernel
  have all : ∀ count, utf8Length (List.replicate count (0x5c : Fin 0x110000)) = count ∧
      utf8Length ((List.replicate count (0x5c : Fin 0x110000)).flatMap escapePoint) = 2 * count := by
    intro count
    induction count with
    | zero => exact ⟨rfl, rfl⟩
    | succ count ih =>
      rw [List.replicate_succ, List.flatMap_cons, utf8Length_append, escaped,
        ih.2, ← List.singleton_append, utf8Length_append, plain,
        ih.1]
      omega
  rw [escapedLength, points]
  exact all count

/-- A short text that is no JSON is not stored where its characters take too much room. -/
theorem escaped_text_not_storable (nests : 0 < runtime.recursionLimit)
    (success : 200 ≤ statusCode ∧ statusCode ≤ 299) {text : String} (given : text ≠ "")
    (short : utf8Length (py text) ≤ maxAnswer) (long : 65480 ≤ escapedLength (py text)) :
    ¬ HasStorableResult runtime (fun _ => .decodeError) statusCode (some text) := by
  rintro ⟨result, isResult, stored⟩
  have isStated : stated (some text) = some text := by
    simp [stated, given]
  simp only [toolResult, isStated, answerData, if_neg (Nat.not_lt.mpr short), Option.map_some,
    Option.some.injEq] at isResult
  rw [← isResult] at stored
  have fits := (result_encodes_iff runtime success _ _).mp stored
  rw [text_encodes_iff nests, if_neg (by simpa using short)] at fits
  omega

/-- An answer of 40000 bytes whose canonical encoding takes twice as many. -/
theorem escaped_answer_too_large :
    ¬ ∀ (runtime : Runtime) (loads : String → Loaded) (statusCode : Nat) (body : Option String),
        0 < runtime.recursionLimit → 200 ≤ statusCode ∧ statusCode ≤ 299 →
        (∀ text ∈ body, text.length ≤ maxResponseBytes) →
        HasStorableResult runtime loads statusCode body := by
  intro always
  obtain ⟨answer, isAnswer⟩ : ∃ answer, answer = backslashes 40000 := ⟨_, rfl⟩
  obtain ⟨bytes, escaped⟩ := backslashes_length 40000
  have length : (backslashes 40000).length = 40000 := by
    rw [backslashes, String.length_ofList, List.length_replicate]
  rw [← isAnswer] at bytes escaped length
  have given : answer ≠ "" := by
    intro empty
    rw [empty] at length
    simp at length
  have bounded : ∀ text ∈ some answer, text.length ≤ maxResponseBytes := by
    intro text member
    rw [← Option.mem_some.mp member, length, maxResponseBytes]
    omega
  have short : utf8Length (py answer) ≤ maxAnswer := by
    rw [bytes, maxAnswer]
    omega
  exact escaped_text_not_storable (by decide) (by decide) given short (by omega)
    (always exampleRuntime (fun _ => .decodeError) 200 (some answer) (by decide) (by decide) bounded)

end Nexora.Connector
