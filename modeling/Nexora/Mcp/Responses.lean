import Nexora.Data.EventStream
import Nexora.Std.Addresses
import Nexora.Connector.Storing

/-!
# Responses of tool servers

A tool server answers with one JSON message or with an event stream of them. The adapter takes the
message that carries the id of its request.
-/

namespace Nexora.Mcp

open Nexora.Std Nexora.Connector Urllib EventStream Json

/-- An exception raised while a response is decoded. -/
inductive ResponseError where
  /-- `McpAdapterError`, which is not retried. -/
  | adapter (code : String)
  | raised
  deriving DecidableEq, Repr

/-- `json.loads`, of a text and of bytes whose encoding it detects. A text that is no JSON and
bytes that are no text are decode errors. -/
structure JsonLibrary where
  loads : PyStr → Loaded
  loadsBytes : ByteArray → Loaded

/-- A value that was loaded, where only a decode error is handled. -/
def handled : Loaded → Except ResponseError Json
  | .value value => .ok value
  | .decodeError => .error (.adapter "mcp_invalid_response")
  | .raised => .error .raised

/-- `text.split("\n\n")`. -/
def splitBlank : PyStr → List PyStr
  | [] => [[]]
  | [point] => [[point]]
  | first :: second :: rest =>
    if first = 0x0a ∧ second = 0x0a then [] :: splitBlank rest
    else (splitBlank (second :: rest)).modifyHead fun event => first :: event

/-- `startsWith`. -/
def startsWith (text start : PyStr) : Bool := start.isPrefixOf text

/-- What a line holds that starts with `data:`, without the white space at its front. -/
def dataLine? (line : PyStr) : Option PyStr :=
  if startsWith line (py "data:") = true then
    some ((line.drop 5).dropWhile Knowledge.isSpace)
  else none

/-- The data lines of an event. -/
def dataLines (event : PyStr) : List PyStr := (event.splitOn (mark '\n')).filterMap dataLine?

/-- `payload.decode("utf-8")`. -/
def decodeUtf8 (payload : ByteArray) : Option PyStr := (String.fromUTF8? payload).map py

/-- `_decode_json`. -/
def decodeJson (library : JsonLibrary) (payload : ByteArray) : Except ResponseError Json :=
  handled (library.loadsBytes payload)

/-- The message of an event, none of an event without data lines. -/
def eventMessage (library : JsonLibrary) (event : PyStr) : Except ResponseError (Option Json) :=
  if dataLines event = [] then pure none
  else (handled (library.loads (joined (dataLines event)))).map some

/-- `_decode_sse`. -/
def decodeSse (library : JsonLibrary) (payload : ByteArray) : Except ResponseError (List Json) := do
  let text ← orRaise (decodeUtf8 payload) (.adapter "mcp_invalid_response")
  let messages ← (splitBlank (Knowledge.unixNewlines text)).mapM (eventMessage library)
  pure messages.reduceOption

/-- `isinstance(message, dict)` with the member under a key. -/
def member? (message : Json) (key : String) : Option Json :=
  match message with
  | .object members => lookup (py key) members
  | _ => none

/-- `message.get("id") == request_id`. -/
def HasId (requestId : PyStr) (message : Json) : Prop :=
  member? message "id" = some (.str requestId)

instance (requestId : PyStr) (message : Json) : Decidable (HasId requestId message) :=
  inferInstanceAs (Decidable (_ = _))

/-- `message.get("jsonrpc") == "2.0"`. -/
def Declared (message : Json) : Prop := member? message "jsonrpc" = some (.str (py "2.0"))

instance (message : Json) : Decidable (Declared message) := inferInstanceAs (Decidable (_ = _))

/-- `_validate_response_id`. -/
def validateResponseId (message : Json) (requestId : PyStr) : Except ResponseError Unit :=
  raiseIf (¬ Declared message ∨ ¬ HasId requestId message) (.adapter "mcp_invalid_response")

/-- The media type of a response in lower case. The two types it is compared with have no letters
that another alphabet's lower case yields. -/
def mediaType (contentType : PyStr) : PyStr :=
  (Knowledge.strip (partition (mark ';') contentType).1).map Urllib.lower

/-- `_decode_response`. -/
def decodeResponse (library : JsonLibrary) (payload : ByteArray) (contentType requestId : PyStr) :
    Except ResponseError Json :=
  if mediaType contentType = py "application/json" then do
    let message ← decodeJson library payload
    raiseIf (Tools.isObject message = false) (.adapter "mcp_invalid_response")
    validateResponseId message requestId
    pure message
  else if mediaType contentType = py "text/event-stream" then do
    let messages ← decodeSse library payload
    let message ← orRaise (messages.find? fun message => HasId requestId message)
      (.adapter "mcp_response_missing")
    validateResponseId message requestId
    pure message
  else .error (.adapter "mcp_unsupported_content_type")

/-! ## The events of a text -/

/-- The text of events that are given by their lines, each ended by a line feed. -/
def eventsText (events : List (List PyStr)) : PyStr :=
  events.flatMap fun lines => (lines.flatMap fun line => line ++ [0x0a]) ++ [0x0a]

/-- The lines of an event: none of them is blank. -/
def IsEvent (lines : List PyStr) : Prop := ∀ line ∈ lines, line ≠ [] ∧ IsPlain line

/-- Every text has events between its blank lines. -/
theorem splitBlank_ne_nil (text : PyStr) : splitBlank text ≠ [] := by
  induction text using splitBlank.induct with
  | case1 => simp [splitBlank]
  | case2 => simp [splitBlank]
  | case3 first second rest blank ih => simp [splitBlank, blank]
  | case4 first second rest other ih =>
    rw [splitBlank, if_neg other]
    obtain ⟨event, events, isSplit⟩ := List.exists_cons_of_ne_nil ih
    simp [isSplit]

variable {line : PyStr}

/-- A plain text is passed over on the way to a blank line. -/
theorem splitBlank_plain (plain : IsPlain line) {rest : PyStr} :
    splitBlank (line ++ rest) = (splitBlank rest).modifyHead fun event => line ++ event := by
  obtain ⟨event, events, isSplit⟩ := List.exists_cons_of_ne_nil (splitBlank_ne_nil rest)
  induction line with
  | nil =>
    rw [List.nil_append, isSplit]
    rfl
  | cons point others ih =>
    have later := ih fun other member => plain other (by simp [member])
    have noFeed := (plain point (by simp)).1
    cases isRest : others ++ rest with
    | nil =>
      obtain ⟨rfl, rfl⟩ := List.append_eq_nil_iff.mp isRest
      rfl
    | cons second more =>
      rw [List.cons_append, isRest, splitBlank, if_neg fun both => noFeed both.1, ← isRest,
        later, isSplit]
      rfl

variable {text : PyStr}

/-- A line feed in front of a text that does not start with one. -/
theorem splitBlank_feed (starts : text.head? ≠ some 0x0a) :
    splitBlank (0x0a :: text) = (splitBlank text).modifyHead fun event => 0x0a :: event := by
  cases text with
  | nil => rfl
  | cons first rest =>
    have noFeed : first ≠ 0x0a := by
      rintro rfl
      exact starts rfl
    rw [splitBlank, if_neg fun both => noFeed both.2]

theorem splitBlank_blank (rest : PyStr) :
    splitBlank (0x0a :: 0x0a :: rest) = [] :: splitBlank rest := by
  rw [splitBlank, if_pos ⟨rfl, rfl⟩]

variable {lines : List PyStr} {events : List (List PyStr)}

/-- An event with lines is split off at the blank line after it. -/
theorem splitBlank_event (isEvent : IsEvent (line :: lines)) (rest : PyStr) :
    splitBlank (((line :: lines).flatMap fun line => line ++ [0x0a]) ++ 0x0a :: rest) =
      joined (line :: lines) :: splitBlank rest := by
  induction lines generalizing line with
  | nil =>
    have plain := (isEvent line (by simp)).2
    simp only [List.flatMap_cons, List.flatMap_nil, List.append_nil, List.append_assoc,
      List.cons_append, List.nil_append]
    rw [splitBlank_plain plain, splitBlank_blank]
    simp [joined]
  | cons second others ih =>
    have more : IsEvent (second :: others) :=
      fun other member => isEvent other (List.mem_cons_of_mem _ member)
    have later := ih more
    have plain := (isEvent line (by simp)).2
    have starts : (((second :: others).flatMap fun line => line ++ [0x0a]) ++
        0x0a :: rest).head? ≠ some 0x0a := by
      have next := isEvent second (by simp)
      obtain ⟨first, more, rfl⟩ := List.exists_cons_of_ne_nil next.1
      have noFeed := (next.2 first (by simp)).1
      simpa using noFeed
    rw [List.flatMap_cons, List.append_assoc, List.append_assoc, splitBlank_plain plain]
    change List.modifyHead (fun event => line ++ event) (splitBlank (0x0a ::
      (((second :: others).flatMap fun line => line ++ [0x0a]) ++ 0x0a :: rest))) = _
    rw [splitBlank_feed starts, later]
    simp only [List.modifyHead_cons, List.cons.injEq, and_true]
    unfold joined
    rw [List.intercalate_cons_cons]
    simp [mark]

/-- The data lines of an event with lines. -/
theorem dataLines_joined (isEvent : IsEvent (line :: lines)) :
    dataLines (joined (line :: lines)) = (line :: lines).filterMap dataLine? := by
  unfold dataLines joined
  rw [List.splitOn_intercalate]
  · intro part member feed
    exact (isEvent part member).2 _ feed |>.1 rfl
  · simp

/-- A line feed at the front of an event adds no data line. -/
theorem dataLines_feed (event : PyStr) : dataLines (0x0a :: event) = dataLines event := by
  unfold dataLines
  have split : (0x0a :: event).splitOn (mark '\n') = [] :: event.splitOn (mark '\n') := by
    have front : ([] ++ mark '\n' :: event).splitOn (mark '\n') =
        [] :: event.splitOn (mark '\n') :=
      List.splitOn_append_cons_self_of_not_mem (by simp) event
    exact front
  rw [split]
  rfl

/-- The data lines of the events of a text that have some. -/
def blocks (text : PyStr) : List (List PyStr) :=
  ((splitBlank text).map dataLines).filter fun block => block ≠ []

/-- The data lines of given events, where they have some. -/
def shown (events : List (List PyStr)) : List (List PyStr) :=
  (events.map fun lines => lines.filterMap dataLine?).filter fun block => block ≠ []

theorem blocks_blank (rest : PyStr) : blocks (0x0a :: 0x0a :: rest) = blocks rest := by
  unfold blocks
  rw [splitBlank_blank, List.map_cons, List.filter_cons_of_neg]
  simp [dataLines, dataLine?, startsWith, py]

/-- An event with lines, at the front of a text or after a line feed. -/
theorem blocks_event (isEvent : IsEvent (line :: lines)) (rest : PyStr) :
    blocks (((line :: lines).flatMap fun line => line ++ [0x0a]) ++ 0x0a :: rest) =
        ([(line :: lines).filterMap dataLine?].filter fun block => block ≠ []) ++ blocks rest ∧
      blocks (0x0a :: (((line :: lines).flatMap fun line => line ++ [0x0a]) ++ 0x0a :: rest)) =
        ([(line :: lines).filterMap dataLine?].filter fun block => block ≠ []) ++ blocks rest := by
  have starts : (((line :: lines).flatMap fun line => line ++ [0x0a]) ++
      0x0a :: rest).head? ≠ some 0x0a := by
    have first := isEvent line (by simp)
    obtain ⟨point, more, rfl⟩ := List.exists_cons_of_ne_nil first.1
    have noFeed := (first.2 point (by simp)).1
    simpa using noFeed
  have split := splitBlank_event isEvent rest
  unfold blocks
  constructor
  · rw [split, List.map_cons, dataLines_joined isEvent]
    rw [← List.filter_append]
    rfl
  · rw [splitBlank_feed starts, split, List.modifyHead_cons, List.map_cons, dataLines_feed,
      dataLines_joined isEvent, ← List.filter_append]
    rfl

/-- The events of a text, which may stand after a line feed, are found in it. -/
theorem blocks_eventsText (are : ∀ lines ∈ events, IsEvent lines) :
    blocks (eventsText events) = shown events ∧
      blocks (0x0a :: eventsText events) = shown events := by
  induction events with
  | nil => exact ⟨by decide, by decide⟩
  | cons lines rest ih =>
    have later := ih fun other member => are other (by simp [member])
    have written : eventsText (lines :: rest) =
        (lines.flatMap fun line => line ++ [0x0a]) ++ 0x0a :: eventsText rest := by
      simp [eventsText]
    have split : shown (lines :: rest) =
        ([lines.filterMap dataLine?].filter fun block => block ≠ []) ++ shown rest := by
      unfold shown
      rw [List.map_cons, ← List.filter_append]
      rfl
    rw [written, split]
    cases lines with
    | nil =>
      simp only [List.flatMap_nil, List.nil_append]
      rw [blocks_blank, later.2, later.1]
      exact ⟨rfl, rfl⟩
    | cons line others =>
      have event := blocks_event (are (line :: others) (by simp)) (eventsText rest)
      rw [event.1, event.2, later.1]
      exact ⟨rfl, rfl⟩

/-- Events by their lines after a byte order mark, which belongs to the first line. -/
def marked : List (List PyStr) → List (List PyStr)
  | (line :: lines) :: rest => ((0xfeff :: line) :: lines) :: rest
  | events => events

theorem shown_cons (lines : List PyStr) (rest : List (List PyStr)) :
    shown (lines :: rest) =
      ([lines.filterMap dataLine?].filter fun block => block ≠ []) ++ shown rest := by
  unfold shown
  rw [List.map_cons, ← List.filter_append]
  rfl

theorem eventsText_cons (lines : List PyStr) (rest : List (List PyStr)) :
    eventsText (lines :: rest) =
      (lines.flatMap fun line => line ++ [0x0a]) ++ 0x0a :: eventsText rest := by
  simp [eventsText]

/-- A line that starts with a byte order mark is no data line. -/
theorem dataLine?_marked (line : PyStr) : dataLine? (0xfeff :: line) = none := by
  rw [dataLine?, if_neg]
  simp [startsWith, py]

theorem isPlain_mark : IsPlain [0xfeff] := by
  intro point member
  rw [List.mem_singleton.mp member]
  decide

theorem isEvent_marked (isEvent : IsEvent (line :: lines)) :
    IsEvent ((0xfeff :: line) :: lines) := by
  intro other member
  rcases List.mem_cons.mp member with rfl | later
  · refine ⟨by simp, fun point inside => ?_⟩
    rcases List.mem_cons.mp inside with rfl | rest
    · decide
    · exact (isEvent line (by simp)).2 point rest
  · exact isEvent other (by simp [later])

/-- The events of a text after a byte order mark. -/
theorem blocks_marked (are : ∀ lines ∈ events, IsEvent lines) :
    blocks (0xfeff :: eventsText events) = shown (marked events) := by
  have lone : ∀ lines, IsEvent lines → IsEvent ([0xfeff] :: lines) := by
    intro lines isEvent other member
    rcases List.mem_cons.mp member with rfl | later
    · exact ⟨by simp, isPlain_mark⟩
    · exact isEvent other later
  match events with
  | [] => decide
  | (line :: lines) :: rest =>
    have event := isEvent_marked (are (line :: lines) (by simp))
    have later := blocks_eventsText fun other member =>
      are other (List.mem_cons_of_mem _ member)
    have written : 0xfeff :: eventsText ((line :: lines) :: rest) =
        (((0xfeff :: line) :: lines).flatMap fun line => line ++ [0x0a]) ++
          0x0a :: eventsText rest := by
      rw [eventsText_cons]
      rfl
    rw [written, (blocks_event event (eventsText rest)).1, later.1, marked, shown_cons]
  | [[]] => decide
  | [] :: lines :: rest =>
    have event := lone lines (are lines (by simp))
    have later := blocks_eventsText fun other member =>
      are other (List.mem_cons_of_mem _ (List.mem_cons_of_mem _ member))
    have written : 0xfeff :: eventsText ([] :: lines :: rest) =
        (([0xfeff] :: lines).flatMap fun line => line ++ [0x0a]) ++ 0x0a :: eventsText rest := by
      rw [eventsText_cons, eventsText_cons]
      rfl
    rw [written, (blocks_event event (eventsText rest)).1, later.1,
      List.filterMap_cons_none (dataLine?_marked [])]
    have same : marked ([] :: lines :: rest) = [] :: lines :: rest := rfl
    rw [same, shown_cons, shown_cons]
    rfl

/-- The lines of a stream's events as the decoder sees them. -/
def seenEvents (stream : Stream) : List (List PyStr) :=
  if stream.byteOrderMark = true then marked (stream.events.map Event.texts)
  else stream.events.map Event.texts

theorem isEvent_texts (event : Event) : IsEvent event.texts := by
  intro text member
  obtain ⟨line, -, rfl⟩ := List.mem_map.mp member
  exact ⟨line.1.text_ne_nil, line.1.text_plain⟩

/-- The decoder finds the data lines of a stream's events. -/
theorem blocks_stream (stream : Stream) :
    blocks (Knowledge.unixNewlines stream.text) = shown (seenEvents stream) := by
  have plain : ∀ row ∈ stream.events.flatMap Event.rows, IsPlain row.1 := by
    intro row member
    obtain ⟨event, -, inside⟩ := List.mem_flatMap.mp member
    rcases List.mem_append.mp inside with isLine | isBlank
    · obtain ⟨line, -, rfl⟩ := List.mem_map.mp isLine
      exact line.1.text_plain
    · cases List.mem_singleton.mp isBlank
      intro point inBlank
      cases inBlank
  have written : ((stream.events.flatMap Event.rows).flatMap fun row => row.1 ++ [0x0a]) =
      eventsText (stream.events.map Event.texts) := by
    induction stream.events with
    | nil => rfl
    | cons event rest ih =>
      rw [List.flatMap_cons, List.flatMap_append, ih, List.map_cons,
        eventsText_cons]
      simp [Event.rows, Event.texts, List.flatMap_map]
  have are : ∀ lines ∈ stream.events.map Event.texts, IsEvent lines := by
    intro lines member
    obtain ⟨event, -, rfl⟩ := List.mem_map.mp member
    exact isEvent_texts event
  unfold Stream.text seenEvents
  by_cases withMark : stream.byteOrderMark = true
  · rw [if_pos withMark, if_pos withMark, unixNewlines_plain isPlain_mark,
      unixNewlines_rows plain stream.apart, written]
    exact blocks_marked are
  · rw [if_neg withMark, if_neg withMark, List.nil_append, unixNewlines_rows plain stream.apart,
      written]
    exact (blocks_eventsText are).1

/-! ## The messages of a text -/

variable {library : JsonLibrary} {payload : ByteArray}

/-- The messages that blocks of data lines hold. -/
def Holds (library : JsonLibrary) (block : List PyStr) (message : Json) : Prop :=
  library.loads (joined block) = .value message

/-- Events are decoded in order, and those without data lines are passed over. -/
theorem mapM_eventMessage (events : List PyStr) (messages : List Json) :
    (∃ results, events.mapM (eventMessage library) = .ok results ∧
      results.reduceOption = messages) ↔
        List.Forall₂ (Holds library)
          ((events.map dataLines).filter fun block => block ≠ []) messages := by
  induction events generalizing messages with
  | nil =>
    simp only [List.mapM_nil, pure_eq_ok, List.map_nil, List.filter_nil, List.forall₂_nil_left_iff]
    constructor
    · rintro ⟨_, rfl, rfl⟩
      rfl
    · rintro rfl
      exact ⟨[], rfl, rfl⟩
  | cons event rest ih =>
    simp only [List.mapM_cons, bind_eq_ok, pure_eq_ok]
    rw [List.map_cons]
    by_cases silent : dataLines event = []
    · have message : eventMessage library event = .ok none := by
        rw [eventMessage, if_pos silent]
        rfl
      rw [List.filter_cons_of_neg (by simpa using silent), ← ih]
      constructor
      · rintro ⟨_, ⟨first, isFirst, results, isResults, rfl⟩, same⟩
        rw [message, Except.ok.injEq] at isFirst
        rw [← isFirst, List.reduceOption_cons_of_none] at same
        exact ⟨results, isResults, same⟩
      · rintro ⟨results, isResults, same⟩
        exact ⟨_, ⟨none, message, results, isResults, rfl⟩, by
          rw [List.reduceOption_cons_of_none, same]⟩
    · rw [List.filter_cons_of_pos (by simpa using silent), List.forall₂_cons_left_iff]
      have decoded : ∀ first, eventMessage library event = .ok first ↔
          ∃ message, Holds library (dataLines event) message ∧ some message = first := by
        intro first
        unfold Holds
        rw [eventMessage, if_neg silent]
        cases loaded : library.loads (joined (dataLines event)) with
        | value value => simp [handled, Except.map]
        | decodeError => simp [handled, Except.map]
        | raised => simp [handled, Except.map]
      constructor
      · rintro ⟨_, ⟨first, isFirst, results, isResults, rfl⟩, same⟩
        obtain ⟨message, holds, rfl⟩ := (decoded first).mp isFirst
        rw [List.reduceOption_cons_of_some] at same
        exact ⟨message, _, holds, (ih _).mp ⟨results, isResults, rfl⟩, same.symm⟩
      · rintro ⟨message, others, holds, later, rfl⟩
        obtain ⟨results, isResults, same⟩ := (ih others).mpr later
        exact ⟨_, ⟨some message, (decoded _).mpr ⟨message, holds, rfl⟩, results, isResults, rfl⟩,
          by rw [List.reduceOption_cons_of_some, same]⟩

/-- `_decode_sse` returns the messages of a text's blocks. -/
theorem decodeSse_eq_ok (decodes : decodeUtf8 payload = some text) (messages : List Json) :
    decodeSse library payload = .ok messages ↔
      List.Forall₂ (Holds library) (blocks (Knowledge.unixNewlines text)) messages := by
  unfold decodeSse
  rw [decodes]
  simp only [bind_eq_ok, orRaise_eq_ok, pure_eq_ok, Option.some.injEq, exists_eq_left']
  exact mapM_eventMessage _ messages

/-! ## What JSON makes of lines -/

/-- What a JSON text leaves open. White space alone is no value. White space may stand at either
end, and at the start of a line: no string goes on over the end of a line. What is left of a value
without its start is none. -/
structure ReadsJson (library : JsonLibrary) : Prop where
  blank : ∀ text, text.all Knowledge.isSpace = true → library.loads text = .decodeError
  front : ∀ space text value, space.all Knowledge.isSpace = true →
    library.loads (space ++ text) = .value value → library.loads text = .value value
  back : ∀ text space value, space.all Knowledge.isSpace = true →
    library.loads (text ++ space) = .value value → library.loads text = .value value
  line : ∀ before space text value, space.all Knowledge.isSpace = true →
    library.loads (before ++ mark '\n' :: (space ++ text)) = .value value →
      library.loads (before ++ mark '\n' :: text) = .value value
  whole : ∀ before text value other, before.all Knowledge.isSpace = false →
    library.loads (before ++ mark '\n' :: text) = .value value →
      library.loads text ≠ .value other

/-- Lines of which some blank ones are left out, and the others lose the space at their front. -/
inductive Trims : List PyStr → List PyStr → Prop where
  | nil : Trims [] []
  | drop {line : PyStr} {lines kept : List PyStr} (blank : line.all Knowledge.isSpace = true)
      (others : Trims lines kept) : Trims (line :: lines) kept
  | keep {line : PyStr} {lines kept : List PyStr} (others : Trims lines kept) :
      Trims (line :: lines) (line.dropWhile Knowledge.isSpace :: kept)

theorem joined_cons (line : PyStr) (some_ : lines ≠ []) :
    joined (line :: lines) = line ++ mark '\n' :: joined lines :=
  intercalate_cons (mark '\n') line some_

theorem joined_singleton (line : PyStr) : joined [line] = line := List.intercalate_singleton

/-- A line without the space at its front. -/
theorem exists_front (line : PyStr) :
    ∃ space, space.all Knowledge.isSpace = true ∧
      line = space ++ line.dropWhile Knowledge.isSpace :=
  ⟨line.takeWhile Knowledge.isSpace, by
    rw [List.all_eq_true]
    exact fun point member => List.mem_takeWhile_imp member,
    List.takeWhile_append_dropWhile.symm⟩

variable (reads : ReadsJson library) {event : Event} {value message : Json} {kept : List PyStr}
  {messages : List Json} {requestId : PyStr}
include reads

/-- A value is still read from trimmed lines, after a text that space may follow. -/
theorem loads_after_trims (trims : Trims lines kept) {before : PyStr}
    (skips : ∀ space text value, space.all Knowledge.isSpace = true →
      library.loads (before ++ (space ++ text)) = .value value →
        library.loads (before ++ text) = .value value)
    (loaded : library.loads (before ++ joined lines) = .value value) :
    library.loads (before ++ joined kept) = .value value := by
  induction trims generalizing before with
  | nil => exact loaded
  | @drop line lines kept blank others ih =>
    apply ih skips
    by_cases last : lines = []
    · rw [last, joined_singleton] at loaded
      rw [last]
      exact skips line [] value blank (by rwa [List.append_nil])
    · rw [joined_cons line last] at loaded
      apply skips (line ++ [mark '\n']) _ value
      · rw [List.all_append, blank]
        rfl
      · rwa [List.append_assoc]
  | @keep line lines kept others ih =>
    obtain ⟨space, isSpace, split⟩ := exists_front line
    generalize line.dropWhile Knowledge.isSpace = stripped at split ⊢
    by_cases last : lines = []
    · rw [last] at others
      cases others
      rw [last, joined_singleton, split] at loaded
      rw [joined_singleton]
      exact skips space stripped value isSpace loaded
    · rw [joined_cons line last, split, List.append_assoc] at loaded
      have read := skips space _ value isSpace loaded
      have later := @ih (before ++ stripped ++ [mark '\n'])
        (by simpa using reads.line (before ++ stripped)) (by simpa using read)
      by_cases noMore : kept = []
      · rw [noMore, joined_singleton]
        exact reads.back _ [mark '\n'] value (by decide) (by simpa [noMore, joined] using later)
      · rw [joined_cons stripped noMore]
        simpa using later

/-- A value is still read from trimmed lines, of which some are left. -/
theorem loads_trims (trims : Trims lines kept)
    (loaded : library.loads (joined lines) = .value value) :
    kept ≠ [] ∧ library.loads (joined kept) = .value value := by
  have later : library.loads ([] ++ joined kept) = .value value :=
    loads_after_trims reads trims reads.front loaded
  refine ⟨?_, later⟩
  rintro rfl
  have blank := reads.blank [] rfl
  cases blank.symm.trans later

omit reads

/-- Only the field named `data` starts the way the decoder looks for, if it has a colon. -/
theorem startsWith_text (line : Line) :
    startsWith line.text (py "data:") = true ↔ line.name = py "data" ∧ line.value ≠ none := by
  have start : py "data:" = py "data" ++ mark ':' :: [] := rfl
  have noColon : mark ':' ∉ py "data" := by decide
  unfold startsWith Line.text
  rw [List.isPrefixOf_iff_prefix, start]
  cases line.value with
  | none =>
    rw [Option.elim_none, List.append_nil]
    constructor
    · intro starts
      exact absurd (starts.subset (by simp)) line.name_ends
    · rintro ⟨_, valued⟩
      exact absurd rfl valued
  | some given =>
    rw [Option.elim_some, word_prefix noColon line.name_ends]
    constructor
    · rintro ⟨same, _⟩
      exact ⟨same.symm, Option.some_ne_none _⟩
    · rintro ⟨isData, _⟩
      exact ⟨isData.symm, List.nil_prefix⟩

/-- What the decoder takes from a line. -/
theorem dataLine?_text (line : Line) :
    dataLine? line.text =
      if line.name = py "data" then
        line.value.map fun given => given.2.dropWhile Knowledge.isSpace
      else none := by
  unfold dataLine?
  by_cases starts : startsWith line.text (py "data:") = true
  · obtain ⟨isData, valued⟩ := (startsWith_text line).mp starts
    obtain ⟨given, isValue⟩ := Option.ne_none_iff_exists'.mp valued
    have space : Knowledge.isSpace (mark ' ') = true := by decide
    rw [if_pos starts, if_pos isData, isValue, Option.map_some, Line.text, isData, isValue]
    congr 1
    cases spaced : given.1 with
    | false => simp [py, spaced]
    | true =>
      rw [Option.elim_some, if_pos spaced]
      exact List.dropWhile_cons_of_pos space
  · rw [if_neg starts]
    by_cases isData : line.name = py "data"
    · rw [if_pos isData]
      have bare : line.value = none := by
        by_contra valued
        exact starts ((startsWith_text line).mpr ⟨isData, valued⟩)
      rw [bare, Option.map_none]
    · rw [if_neg isData]

/-- The lines the decoder takes from an event are the event's data, trimmed. -/
theorem trims_event (lines : List (Line × LineEnd)) :
    Trims (lines.filterMap fun line => line.1.data?)
      ((lines.map fun line => line.1.text).filterMap dataLine?) := by
  induction lines with
  | nil => exact .nil
  | cons line rest ih =>
    rw [List.map_cons]
    by_cases isData : line.1.name = py "data"
    · cases isValue : line.1.value with
      | none =>
        have data : line.1.data? = some [] := by
          rw [Line.data?, if_pos isData, isValue]
          rfl
        have taken : dataLine? line.1.text = none := by
          rw [dataLine?_text, if_pos isData, isValue]
          rfl
        rw [List.filterMap_cons_some (f := fun line : Line × LineEnd => line.1.data?) data,
          List.filterMap_cons_none taken]
        exact .drop rfl ih
      | some given =>
        have data : line.1.data? = some given.2 := by
          rw [Line.data?, if_pos isData, isValue]
          rfl
        have taken : dataLine? line.1.text =
            some (given.2.dropWhile Knowledge.isSpace) := by
          rw [dataLine?_text, if_pos isData, isValue]
          rfl
        rw [List.filterMap_cons_some (f := fun line : Line × LineEnd => line.1.data?) data,
          List.filterMap_cons_some taken]
        exact .keep ih
    · have data : line.1.data? = none := by
        rw [Line.data?, if_neg isData]
      have taken : dataLine? line.1.text = none := by
        rw [dataLine?_text, if_neg isData]
      rw [List.filterMap_cons_none (f := fun line : Line × LineEnd => line.1.data?) data,
        List.filterMap_cons_none taken]
      exact ih

/-! ## What a stream carries -/

/-- The message an event carries: the JSON value of its data, none if the data fields are empty or
missing. -/
def Carries (library : JsonLibrary) (event : Event) : Option Json → Prop
  | some message => Holds library event.data message
  | none => ∀ value ∈ event.data, value = []

/-- A stream is an encoding of messages. -/
def Encodes (library : JsonLibrary) (stream : Stream) (messages : List Json) : Prop :=
  ∃ carried, List.Forall₂ (Carries library) stream.events carried ∧
    carried.reduceOption = messages

/-- The line that a byte order mark stands directly before. -/
def hiddenLine (stream : Stream) : Option Line :=
  if stream.byteOrderMark = true then
    (stream.events.head?.bind fun event => event.lines.head?).map Prod.fst
  else none

/-- The events of a stream without the line that a byte order mark stands before. -/
def shownEvents (stream : Stream) : List Event :=
  if stream.byteOrderMark = true then
    stream.events.modifyHead fun event => { event with lines := event.lines.tail }
  else stream.events

/-- An event whose data fields hold nothing has none with a colon. -/
def IsBare (event : Event) : Prop :=
  (∀ value ∈ event.data, value.all Knowledge.isSpace = true) →
    ∀ line ∈ event.lines, line.1.name = py "data" → line.1.value = none

/-- No byte order mark stands before a data field that holds something, and the events without
messages are bare. -/
def IsReadable (stream : Stream) : Prop :=
  (∀ line ∈ hiddenLine stream, ∀ value ∈ line.data?, value.all Knowledge.isSpace = true) ∧
    ∀ event ∈ shownEvents stream, IsBare event

/-- The lines the decoder takes from an event. -/
def taken (event : Event) : List PyStr := event.texts.filterMap dataLine?

/-- The decoder takes the lines of the events that are shown. -/
theorem shown_seenEvents (stream : Stream) :
    shown (seenEvents stream) =
      ((shownEvents stream).map taken).filter fun block => block ≠ [] := by
  unfold seenEvents shownEvents shown
  by_cases withMark : stream.byteOrderMark = true
  · rw [if_pos withMark, if_pos withMark]
    cases stream.events with
    | nil => rfl
    | cons event rest =>
      obtain ⟨lines, blank⟩ := event
      cases lines with
      | nil =>
        have same : marked (List.map Event.texts (⟨[], blank⟩ :: rest)) =
            [] :: rest.map Event.texts := by
          cases rest <;> rfl
        rw [same, List.map_cons, List.map_map, List.modifyHead_cons, List.map_cons]
        rfl
      | cons line lines =>
        have hides : ((0xfeff :: line.1.text) :: (lines.map fun line => line.1.text)).filterMap
            dataLine? = (lines.map fun line => line.1.text).filterMap dataLine? :=
          List.filterMap_cons_none (dataLine?_marked _)
        have same : marked (List.map Event.texts (⟨line :: lines, blank⟩ :: rest)) =
            ((0xfeff :: line.1.text) :: (lines.map fun line => line.1.text)) ::
              rest.map Event.texts := rfl
        rw [same, List.map_cons, hides, List.modifyHead_cons, List.map_cons, List.map_map]
        rfl
  · rw [if_neg withMark, if_neg withMark, List.map_map]
    rfl

theorem dropWhile_eq_nil :
    text.dropWhile Knowledge.isSpace = [] ↔ text.all Knowledge.isSpace = true := by
  rw [List.dropWhile_eq_nil_iff, List.all_eq_true]

/-- A line is taken from an event for each of its data fields with a colon. -/
theorem mem_taken :
    text ∈ taken event ↔ ∃ line ∈ event.lines, line.1.name = py "data" ∧
      ∃ given, line.1.value = some given ∧ given.2.dropWhile Knowledge.isSpace = text := by
  unfold taken Event.texts
  rw [List.mem_filterMap]
  constructor
  · rintro ⟨written, member, isTaken⟩
    obtain ⟨line, inside, rfl⟩ := List.mem_map.mp member
    rw [dataLine?_text] at isTaken
    by_cases isData : line.1.name = py "data"
    · rw [if_pos isData, Option.map_eq_some_iff] at isTaken
      exact ⟨line, inside, isData, isTaken⟩
    · rw [if_neg isData] at isTaken
      cases isTaken
  · rintro ⟨line, inside, isData, given, isValue, rfl⟩
    refine ⟨line.1.text, List.mem_map.mpr ⟨line, inside, rfl⟩, ?_⟩
    rw [dataLine?_text, if_pos isData, isValue, Option.map_some]

theorem mem_data :
    text ∈ event.data ↔ ∃ line ∈ event.lines, line.1.name = py "data" ∧
      line.1.value.elim [] Prod.snd = text := by
  unfold Event.data
  rw [List.mem_filterMap]
  constructor
  · rintro ⟨line, inside, isData⟩
    unfold Line.data? at isData
    split at isData
    · exact ⟨line, inside, ‹_›, Option.some.inj isData⟩
    · cases isData
  · rintro ⟨line, inside, isData, rfl⟩
    exact ⟨line, inside, if_pos isData⟩

/-- The data of an event holds something exactly when the decoder takes something from it. -/
theorem data_blank_iff (event : Event) :
    (∀ value ∈ event.data, value.all Knowledge.isSpace = true) ↔
      ∀ line ∈ taken event, line = [] := by
  constructor
  · intro blank text member
    obtain ⟨line, inside, isData, given, isValue, rfl⟩ := mem_taken.mp member
    apply dropWhile_eq_nil.mpr
    apply blank
    exact mem_data.mpr ⟨line, inside, isData, by rw [isValue, Option.elim_some]⟩
  · intro silent text member
    obtain ⟨line, inside, isData, rfl⟩ := mem_data.mp member
    cases isValue : line.1.value with
    | none => rfl
    | some given =>
      apply dropWhile_eq_nil.mp
      exact silent _ (mem_taken.mpr ⟨line, inside, isData, given, isValue, rfl⟩)

/-- An event is bare exactly when the decoder takes no line from it while all lines it would take
are blank. -/
theorem isBare_iff (event : Event) :
    IsBare event ↔ ((∀ line ∈ taken event, line = []) → taken event = []) := by
  unfold IsBare
  rw [data_blank_iff]
  apply imp_congr_right
  intro silent
  rw [List.eq_nil_iff_forall_not_mem]
  constructor
  · intro bare text member
    obtain ⟨line, inside, isData, given, isValue, -⟩ := mem_taken.mp member
    rw [bare line inside isData] at isValue
    cases isValue
  · intro none_ line inside isData
    by_contra valued
    obtain ⟨given, isValue⟩ := Option.ne_none_iff_exists'.mp valued
    exact none_ _ (mem_taken.mpr ⟨line, inside, isData, given, isValue, rfl⟩)

/-! ## The messages a stream carries and the messages that are decoded -/

/-- What the lines taken from an event say of the message it carries. -/
def Slot (library : JsonLibrary) (block : List PyStr) : Option Json → Prop
  | some message => block ≠ [] ∧ Holds library block message
  | none => ∀ line ∈ block, line = []

theorem Trims.blank (trims : Trims lines kept) (blank : ∀ line ∈ lines, line = []) :
    ∀ line ∈ kept, line = [] := by
  induction trims with
  | nil =>
    intro line member
    cases member
  | drop _ _ ih =>
    exact ih fun line member => blank line (List.mem_cons_of_mem _ member)
  | keep _ ih =>
    intro line member
    rcases List.mem_cons.mp member with rfl | later
    · rw [blank _ List.mem_cons_self]
      rfl
    · exact ih (fun line member => blank line (List.mem_cons_of_mem _ member))
        line later

theorem Trims.eq_nil (trims : Trims [] kept) : kept = [] := by
  cases trims
  rfl

section Decoded

variable (reads : ReadsJson library) {carried : List (Option Json)} {stream : Stream}
  {lineEnd : LineEnd}
include reads

theorem slot_of_trims {carried : Option Json} (trims : Trims event.data kept)
    (carries : Carries library event carried) :
    Slot library kept carried := by
  cases carried with
  | none => exact trims.blank carries
  | some message => exact loads_trims reads trims carries

/-- Empty lines hold no message. -/
theorem not_holds_blank {block : List PyStr} (blank : ∀ line ∈ block, line = [])
    (message : Json) : ¬ Holds library block message := by
  intro holds
  have spaces : (joined block).all Knowledge.isSpace = true := by
    clear holds
    induction block with
    | nil => rfl
    | cons line rest ih =>
      have empty := blank line (by simp)
      have later := ih fun other member => blank other (by simp [member])
      by_cases last : rest = []
      · rw [last, empty]
        rfl
      · rw [joined_cons line last, empty]
        rw [List.nil_append, List.all_cons, later]
        rfl
  unfold Holds at holds
  rw [reads.blank _ spaces] at holds
  cases holds

/-- The blocks of a stream hold the messages it carries, in order, exactly when no block is made of
empty lines. -/
theorem holds_iff_of_slots {slots : List (List PyStr)}
    (are : List.Forall₂ (Slot library) slots carried) (messages : List Json) :
    List.Forall₂ (Holds library) (slots.filter fun block => block ≠ []) messages ↔
      (∀ block ∈ slots, (∀ line ∈ block, line = []) → block = []) ∧
        carried.reduceOption = messages := by
  induction are generalizing messages with
  | nil =>
    rw [List.filter_nil, List.forall₂_nil_left_iff]
    constructor
    · rintro rfl
      exact ⟨List.forall_mem_nil _, rfl⟩
    · rintro ⟨_, rfl⟩
      rfl
  | @cons block slot slots carried isSlot others ih =>
    cases slot with
    | none =>
      rw [List.reduceOption_cons_of_none]
      by_cases empty : block = []
      · rw [List.filter_cons_of_neg (by simpa using empty), ih]
        simp [empty]
      · rw [List.filter_cons_of_pos (by simpa using empty), List.forall₂_cons_left_iff]
        constructor
        · rintro ⟨message, _, holds, _⟩
          exact absurd holds (not_holds_blank reads isSlot message)
        · rintro ⟨bare, _⟩
          exact absurd (bare block List.mem_cons_self isSlot) empty
    | some message =>
      obtain ⟨some_, holds⟩ := isSlot
      rw [List.filter_cons_of_pos (by simpa using some_), List.forall₂_cons_left_iff,
        List.reduceOption_cons_of_some]
      constructor
      · rintro ⟨found, rest, foundHolds, later, rfl⟩
        have same : found = message := by
          unfold Holds at holds foundHolds
          rw [holds] at foundHolds
          exact (Loaded.value.inj foundHolds).symm
        obtain ⟨bare, rfl⟩ := (ih rest).mp later
        refine ⟨fun other member => ?_, by rw [same]⟩
        rcases List.mem_cons.mp member with rfl | inside
        · intro blank
          exact absurd holds (not_holds_blank reads blank message)
        · exact bare other inside
      · rintro ⟨bare, rfl⟩
        exact ⟨message, carried.reduceOption, holds, (ih _).mpr
          ⟨fun other member => bare other (List.mem_cons_of_mem _ member), rfl⟩, rfl⟩

/-- The decoder returns what a stream carries, where each event is seen with its message. -/
theorem decodeSse_of_slots (decodes : decodeUtf8 payload = some stream.text)
    (are : List.Forall₂ (Slot library) ((shownEvents stream).map taken) carried)
    (messages : List Json) :
    decodeSse library payload = .ok messages ↔
      (∀ event ∈ shownEvents stream, IsBare event) ∧ carried.reduceOption = messages := by
  rw [decodeSse_eq_ok decodes, blocks_stream, shown_seenEvents, holds_iff_of_slots reads are]
  apply and_congr_left'
  rw [List.forall_mem_map]
  apply forall₂_congr
  intro event _
  exact (isBare_iff event).symm

theorem slots_of_events {events : List Event}
    (carries : List.Forall₂ (Carries library) events carried) :
    List.Forall₂ (Slot library) (events.map taken) carried := by
  rw [List.forall₂_map_left_iff]
  apply carries.imp
  intro event slot isCarried
  exact slot_of_trims reads (trims_event event.lines) isCarried

omit reads in
/-- The data of an event is that of its first line and that of the others. -/
theorem data_cons (line : Line × LineEnd) (lines : List (Line × LineEnd)) (blank : LineEnd) :
    Event.data ⟨line :: lines, blank⟩ = line.1.data?.toList ++ Event.data ⟨lines, blank⟩ := by
  unfold Event.data
  cases isData : line.1.data? with
  | none => exact List.filterMap_cons_none (f := fun line : Line × LineEnd => line.1.data?) isData
  | some value =>
    exact List.filterMap_cons_some (f := fun line : Line × LineEnd => line.1.data?) isData

omit reads in
/-- A line that adds nothing to the data of its event may be left out. -/
theorem trims_tail {line : Line × LineEnd}
    (blank : ∀ value ∈ line.1.data?, value.all Knowledge.isSpace = true)
    (lines : List (Line × LineEnd)) (lineEnd : LineEnd) :
    Trims (Event.data ⟨line :: lines, lineEnd⟩) (taken ⟨lines, lineEnd⟩) := by
  have later := trims_event lines
  rw [data_cons]
  cases isData : line.1.data? with
  | none => exact later
  | some value => exact .drop (blank value isData) later

/-- Without a line that holds something, the rest of its event is not the event's message. -/
theorem not_holds_tail {line : Line × LineEnd} {value : PyStr} (isData : line.1.data? = some value)
    (filled : ¬ value.all Knowledge.isSpace = true) {lines : List (Line × LineEnd)}
    (carries : Holds library (Event.data ⟨line :: lines, lineEnd⟩) message)
    (some_ : taken ⟨lines, lineEnd⟩ ≠ []) (other : Json) :
    ¬ Holds library (taken ⟨lines, lineEnd⟩) other := by
  have trims : Trims (Event.data ⟨lines, lineEnd⟩) (taken ⟨lines, lineEnd⟩) := trims_event lines
  rw [data_cons, isData, Option.toList_some, List.singleton_append] at carries
  have more : Event.data ⟨lines, lineEnd⟩ ≠ [] := by
    intro noMore
    rw [noMore] at trims
    exact some_ trims.eq_nil
  unfold Holds at carries
  rw [joined_cons value more] at carries
  have read : library.loads (value ++ [mark '\n'] ++ joined (taken ⟨lines, lineEnd⟩)) =
      .value message :=
    loads_after_trims reads trims (by simpa using reads.line value) (by simpa using carries)
  exact reads.whole value _ message other (by simpa using filled) (by simpa using read)

/-- A line that is hidden with something in it takes its message with it. -/
theorem hidden_loses {line : Line × LineEnd} {value : PyStr} (isData : line.1.data? = some value)
    (filled : ¬ value.all Knowledge.isSpace = true) {lines : List (Line × LineEnd)}
    {rest : List Event}
    (carries : List.Forall₂ (Carries library) (⟨line :: lines, lineEnd⟩ :: rest) carried) :
    ¬ List.Forall₂ (Holds library)
      (((⟨lines, lineEnd⟩ :: rest).map taken).filter fun block => block ≠ [])
      carried.reduceOption := by
  obtain ⟨slot, later, isCarried, others, rfl⟩ := List.forall₂_cons_left_iff.mp carries
  have inside : value ∈ Event.data ⟨line :: lines, lineEnd⟩ := by
    rw [data_cons, isData]
    simp
  cases slot with
  | none =>
    have empty : value = [] := isCarried value inside
    rw [empty] at filled
    exact absurd rfl filled
  | some message =>
    rw [List.reduceOption_cons_of_some, List.map_cons]
    intro holds
    by_cases some_ : taken ⟨lines, lineEnd⟩ = []
    · rw [List.filter_cons_of_neg (by simpa using some_),
        holds_iff_of_slots reads (slots_of_events reads others)] at holds
      have sameLength := congrArg List.length holds.2
      simp at sameLength
    · rw [List.filter_cons_of_pos (by simpa using some_), List.forall₂_cons] at holds
      exact not_holds_tail reads isData filled isCarried some_ message holds.1

/-- The decoder returns the messages of a stream exactly when the stream is readable. -/
theorem decodeSse_iff (encodes : Encodes library stream messages)
    (decodes : decodeUtf8 payload = some stream.text) :
    decodeSse library payload = .ok messages ↔ IsReadable stream := by
  obtain ⟨carried, carries, rfl⟩ := encodes
  unfold IsReadable
  by_cases withMark : stream.byteOrderMark = true
  · have hidden : hiddenLine stream =
        (stream.events.head?.bind fun event => event.lines.head?).map Prod.fst := if_pos withMark
    have others : shownEvents stream =
        stream.events.modifyHead fun event => { event with lines := event.lines.tail } :=
      if_pos withMark
    cases isEvents : stream.events with
    | nil =>
      rw [isEvents] at hidden others carries
      have slots := slots_of_events reads carries
      rw [decodeSse_of_slots reads decodes (by rwa [others]), hidden]
      simp
    | cons event rest =>
      rw [isEvents] at hidden others carries
      obtain ⟨lines, blank⟩ := event
      cases lines with
      | nil =>
        have slots := slots_of_events reads carries
        rw [decodeSse_of_slots reads decodes (by rwa [others]), hidden]
        simp
      | cons line lines =>
        rw [List.head?_cons, Option.bind_some, List.head?_cons, Option.map_some] at hidden
        rw [List.modifyHead_cons, List.tail_cons] at others
        rw [hidden]
        by_cases spared : ∀ value ∈ line.1.data?, value.all Knowledge.isSpace = true
        · have slots : List.Forall₂ (Slot library) ((shownEvents stream).map taken) carried := by
            obtain ⟨slot, later, isCarried, rest, rfl⟩ := List.forall₂_cons_left_iff.mp carries
            rw [others, List.map_cons]
            exact .cons (slot_of_trims reads (trims_tail spared lines blank) isCarried)
              (slots_of_events reads rest)
          rw [decodeSse_of_slots reads decodes slots]
          constructor
          · rintro ⟨bare, _⟩
            refine ⟨?_, bare⟩
            rintro _ ⟨rfl⟩
            exact spared
          · rintro ⟨_, bare⟩
            exact ⟨bare, rfl⟩
        · have lost : ¬ ∀ shown ∈ some line.1, ∀ value ∈ shown.data?,
              value.all Knowledge.isSpace = true := by
            intro all
            exact spared (all line.1 rfl)
          push Not at spared
          obtain ⟨value, isData, filled⟩ := spared
          have loses := hidden_loses reads isData filled carries
          rw [decodeSse_eq_ok decodes, blocks_stream, shown_seenEvents, others]
          constructor
          · intro holds
            exact absurd holds loses
          · rintro ⟨all, _⟩
            exact absurd all lost
  · have hidden : hiddenLine stream = none := if_neg withMark
    have others : shownEvents stream = stream.events := if_neg withMark
    have slots := slots_of_events reads carries
    rw [decodeSse_of_slots reads decodes (by rwa [others]), hidden]
    simp

end Decoded

/-- The response to a request among the messages of a stream. -/
def responseTo (requestId : PyStr) (messages : List Json) : Except ResponseError Json :=
  match messages.find? fun message => HasId requestId message with
  | none => .error (.adapter "mcp_response_missing")
  | some message =>
    if Declared message then .ok message else .error (.adapter "mcp_invalid_response")

/-- A message is returned only for the request whose id it carries. -/
theorem decodeResponse_hasId {contentType : PyStr}
    (returned : decodeResponse library payload contentType requestId = .ok message) :
    HasId requestId message := by
  have valid : ∀ {found : Json}, validateResponseId found requestId = .ok () →
      HasId requestId found := by
    intro found accepted
    by_contra other
    unfold validateResponseId at accepted
    rw [raiseIf_eq_ok] at accepted
    exact accepted (.inr other)
  unfold decodeResponse at returned
  split at returned
  · simp only [bind_eq_ok, pure_eq_ok] at returned
    obtain ⟨found, _, _, _, ⟨⟩, accepted, rfl⟩ := returned
    exact valid accepted
  · split at returned
    · simp only [bind_eq_ok, pure_eq_ok] at returned
      obtain ⟨_, _, found, _, ⟨⟩, accepted, rfl⟩ := returned
      exact valid accepted
    · cases returned

theorem find?_responds :
    (do
      let message ← orRaise (messages.find? fun message => HasId requestId message)
        (.adapter "mcp_response_missing")
      validateResponseId message requestId
      pure message) = responseTo requestId messages := by
  unfold responseTo validateResponseId
  cases found : messages.find? fun message => HasId requestId message with
  | none => rfl
  | some message =>
    have hasId : HasId requestId message := by simpa using List.find?_some found
    change ((raiseIf (¬ Declared message ∨ ¬ HasId requestId message)
      (ResponseError.adapter "mcp_invalid_response") : Except ResponseError Unit) >>=
        fun _ => pure message) = if Declared message then _ else _
    unfold raiseIf
    by_cases declared : Declared message
    · have valid : ¬ (¬ Declared message ∨ ¬ HasId requestId message) := by simp [declared, hasId]
      rw [if_neg valid, if_pos declared]
      rfl
    · rw [if_pos (.inl declared), if_neg declared]
      rfl

/-- Event streams are decoded to the messages they carry, in order, and the first message with the
id of the request is its response. -/
theorem event_stream_decoded (reads : ReadsJson library) {stream : Stream} {messages : List Json}
    (encodes : Encodes library stream messages) {payload : ByteArray}
    (decodes : decodeUtf8 payload = some stream.text) {contentType : PyStr}
    (isStream : mediaType contentType = py "text/event-stream") (requestId : PyStr) :
    (IsReadable stream →
      decodeSse library payload = .ok messages ∧
        decodeResponse library payload contentType requestId = responseTo requestId messages) ∧
      ∀ message, decodeResponse library payload contentType requestId = .ok message →
        HasId requestId message := by
  refine ⟨fun readable => ?_, fun message => decodeResponse_hasId⟩
  have decoded := (decodeSse_iff reads encodes decodes).mpr readable
  refine ⟨decoded, ?_⟩
  have noJson : py "text/event-stream" ≠ py "application/json" := by decide
  unfold decodeResponse
  rw [if_neg (by rwa [isStream]), if_pos isStream, decoded]
  exact find?_responds

/-! ## Streams -/

section Streams

/-- A library that reads one value, wherever white space stands in its text. -/
def readsOnly (tokens : PyStr) (value : Json) : JsonLibrary where
  loads text :=
    if text.filter (fun point => !Knowledge.isSpace point) = tokens then .value value
    else .decodeError
  loadsBytes _ := .decodeError

variable {tokens : PyStr}

theorem readsOnly_loads (same : text.filter (fun point => !Knowledge.isSpace point) = tokens) :
    (readsOnly tokens value).loads text = .value value := if_pos same

theorem filter_blank {space : PyStr} (blank : space.all Knowledge.isSpace = true) :
    space.filter (fun point => !Knowledge.isSpace point) = [] := by
  rw [List.filter_eq_nil_iff]
  intro point member
  simp [List.all_eq_true.mp blank point member]

theorem readsOnly_reads (some_ : tokens ≠ []) (value : Json) :
    ReadsJson (readsOnly tokens value) where
  blank text blank := by
    simp only [readsOnly]
    rw [filter_blank blank, if_neg some_.symm]
  front space text read blank loaded := by
    simp only [readsOnly] at loaded ⊢
    rwa [List.filter_append, filter_blank blank, List.nil_append] at loaded
  back text space read blank loaded := by
    simp only [readsOnly] at loaded ⊢
    rwa [List.filter_append, filter_blank blank, List.append_nil] at loaded
  line before space text read blank loaded := by
    simp only [readsOnly] at loaded ⊢
    rw [List.filter_append, List.filter_cons, List.filter_append, filter_blank blank,
      List.nil_append] at loaded
    rwa [List.filter_append, List.filter_cons]
  whole before text read other filled loaded := by
    simp only [readsOnly] at loaded ⊢
    have feeds : Knowledge.isSpace (mark '\n') = true := by decide
    rw [List.filter_append, List.filter_cons_of_neg (by simp [feeds])] at loaded
    have shorter : text.filter (fun point => !Knowledge.isSpace point) ≠ tokens := by
      intro same
      rw [same] at loaded
      have front : before.filter (fun point => !Knowledge.isSpace point) ≠ [] := by
        intro blank
        rw [List.filter_eq_nil_iff] at blank
        have all : before.all Knowledge.isSpace = true := by
          rw [List.all_eq_true]
          intro point member
          simpa using blank point member
        rw [all] at filled
        cases filled
      rw [if_neg (by simpa using front)] at loaded
      cases loaded
    rw [if_neg shorter]
    nofun

/-- A data field of one line. -/
def dataField (value : PyStr) (plain : IsPlain value) : Line where
  name := py "data"
  value := some (true, value)
  name_plain := by decide
  name_ends := by decide
  value_plain := by
    intro given isValue
    rw [← Option.some.inj isValue]
    exact plain
  value_starts := by
    intro given isValue noSpace
    rw [← Option.some.inj isValue] at noSpace
    cases noSpace
  filled := .inl (by decide)

/-- A comment. -/
def comment (text : PyStr) (plain : IsPlain text) : Line where
  name := []
  value := some (true, text)
  name_plain := by decide
  name_ends := by decide
  value_plain := by
    intro given isValue
    rw [← Option.some.inj isValue]
    exact plain
  value_starts := by
    intro given isValue noSpace
    rw [← Option.some.inj isValue] at noSpace
    cases noSpace
  filled := .inr (by simp)

theorem decodeUtf8_toByteArray (text : String) :
    decodeUtf8 text.toByteArray = some (py text) := by
  unfold decodeUtf8 String.fromUTF8?
  rw [dif_pos text.isValidUTF8]
  rfl

/-- A message of two lines, in a stream that starts with a byte order mark and a comment and whose
lines end in all three ways. -/
def servedStream : Stream where
  byteOrderMark := true
  events := [{
    lines := [(comment (py "ok") (by decide), .carriageReturn),
      (dataField (py "\x7b\"jsonrpc\":\"2.0\",") (by decide), .both),
      (dataField (py "\"id\":\"r\"\x7d") (by decide), .lineFeed)]
    blank := .lineFeed }]
  apart := by decide

def servedMessage : Json :=
  .object [(py "jsonrpc", .str (py "2.0")), (py "id", .str (py "r"))]

def servedText : String :=
  "\ufeff: ok\rdata: \x7b\"jsonrpc\":\"2.0\",\r\ndata: \"id\":\"r\"\x7d\n\n"

def servedTokens : PyStr := py "\x7b\"jsonrpc\":\"2.0\",\"id\":\"r\"\x7d"

theorem event_stream_decoded_served :
    decodeSse (readsOnly servedTokens servedMessage) servedText.toByteArray = .ok [servedMessage] ∧
      decodeResponse (readsOnly servedTokens servedMessage) servedText.toByteArray
        (py "text/event-stream; charset=utf-8") (py "r") = .ok servedMessage := by
  have reads : ReadsJson (readsOnly servedTokens servedMessage) :=
    readsOnly_reads (by decide) servedMessage
  have encodes : Encodes (readsOnly servedTokens servedMessage) servedStream [servedMessage] := by
    refine ⟨[some servedMessage], .cons ?_ .nil, rfl⟩
    exact readsOnly_loads (by decide)
  have decodes : decodeUtf8 servedText.toByteArray = some servedStream.text := by
    rw [decodeUtf8_toByteArray]
    decide +kernel
  have isStream : mediaType (py "text/event-stream; charset=utf-8") = py "text/event-stream" := by
    decide +kernel
  have decoded := event_stream_decoded reads encodes decodes isStream (py "r")
  have readable : IsReadable servedStream := by
    refine ⟨fun line hidden value isData => ?_, fun event shown_ blank => ?_⟩
    · cases Option.some.inj hidden
      cases isData
    · cases List.mem_singleton.mp shown_
      have filled := blank (py "\x7b\"jsonrpc\":\"2.0\",") (by decide)
      exact absurd filled (by decide)
  obtain ⟨messages, response⟩ := decoded.1 readable
  refine ⟨messages, response.trans ?_⟩
  decide +kernel

/-- A message with an id and no version of the protocol. -/
def undeclaredStream : Stream where
  byteOrderMark := false
  events := [{
    lines := [(dataField (py "\x7b\"id\":\"r\"\x7d") (by decide), .lineFeed)]
    blank := .lineFeed }]
  apart := by decide

def undeclaredMessage : Json := .object [(py "id", .str (py "r"))]

/-- The first message with the id of the request is not returned if it does not declare the version
of the protocol. -/
theorem undeclared_refused :
    ∃ (library : JsonLibrary) (stream : Stream) (payload : ByteArray) (message : Json),
      ReadsJson library ∧ Encodes library stream [message] ∧
        decodeUtf8 payload = some stream.text ∧ HasId (py "r") message ∧
          decodeResponse library payload (py "text/event-stream") (py "r") =
            .error (.adapter "mcp_invalid_response") := by
  refine ⟨readsOnly (py "\x7b\"id\":\"r\"\x7d") undeclaredMessage, undeclaredStream,
    "data: \x7b\"id\":\"r\"\x7d\n\n".toByteArray, undeclaredMessage,
    readsOnly_reads (by decide) undeclaredMessage, ⟨[some undeclaredMessage], .cons ?_ .nil, rfl⟩,
    ?_, by decide, ?_⟩
  · exact readsOnly_loads (by decide)
  · rw [decodeUtf8_toByteArray]
    decide
  · unfold decodeResponse decodeSse
    rw [decodeUtf8_toByteArray]
    decide

end Streams

end Nexora.Mcp
