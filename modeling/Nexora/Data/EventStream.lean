import Nexora.Data.Urllib
import Nexora.Knowledge.Text

/-!
# Event streams

The `text/event-stream` format: an optional byte order mark, then events, each of them lines and a
blank line after these. A line is a comment or a field, and ends in one of three ways. What the
data fields of an event hold is joined with line feeds.
-/

namespace Nexora.EventStream

open Urllib

/-- The end of a line. -/
inductive LineEnd where
  | lineFeed
  | carriageReturn
  | both
  deriving DecidableEq, Repr

def LineEnd.text : LineEnd → PyStr
  | .lineFeed => [0x0a]
  | .carriageReturn => [0x0d]
  | .both => [0x0d, 0x0a]

/-- A text without line ends. -/
def IsPlain (text : PyStr) : Prop := ∀ point ∈ text, point ≠ 0x0a ∧ point ≠ 0x0d

instance (text : PyStr) : Decidable (IsPlain text) :=
  List.decidableBAll (fun point => point ≠ 0x0a ∧ point ≠ 0x0d) text

/-- A field with or without a value, after whose colon a space may stand. A field without a name
is a comment. -/
structure Line where
  name : PyStr
  value : Option (Bool × PyStr)
  name_plain : IsPlain name
  name_ends : mark ':' ∉ name
  value_plain : ∀ given ∈ value, IsPlain given.2
  value_starts : ∀ given ∈ value, given.1 = false → given.2.head? ≠ some (mark ' ')
  filled : name ≠ [] ∨ value ≠ none
  deriving DecidableEq

namespace Line

variable (line : Line)

/-- The line as it is written. -/
def text : PyStr :=
  line.name ++ line.value.elim [] fun given =>
    mark ':' :: if given.1 then mark ' ' :: given.2 else given.2

/-- What the line adds to the data of its event. -/
def data? : Option PyStr :=
  if line.name = py "data" then some (line.value.elim [] Prod.snd) else none

theorem text_plain : IsPlain line.text := by
  intro point member
  unfold text at member
  rw [List.mem_append] at member
  rcases member with inName | inValue
  · exact line.name_plain point inName
  · cases isValue : line.value with
    | none =>
      rw [isValue] at inValue
      cases inValue
    | some given =>
      have plain := line.value_plain given isValue
      rw [isValue, Option.elim_some, List.mem_cons] at inValue
      rcases inValue with rfl | rest
      · decide
      · split at rest
        · rcases List.mem_cons.mp rest with rfl | inside
          · decide
          · exact plain point inside
        · exact plain point rest

theorem text_ne_nil : line.text ≠ [] := by
  unfold text
  rcases line.filled with named | valued
  · simp [named]
  · obtain ⟨given, isValue⟩ := Option.ne_none_iff_exists'.mp valued
    simp [isValue]

end Line

/-- An event: its lines, and how the blank line after them ends. -/
structure Event where
  lines : List (Line × LineEnd)
  blank : LineEnd

namespace Event

variable (event : Event)

/-- The lines of an event as they are written, the blank one last. -/
def rows : List (PyStr × LineEnd) :=
  (event.lines.map fun line => (line.1.text, line.2)) ++ [([], event.blank)]

/-- The lines' texts without the blank one. -/
def texts : List PyStr := event.lines.map fun line => line.1.text

/-- What the data fields of the event hold. -/
def data : List PyStr := event.lines.filterMap fun line => line.1.data?

end Event

/-- Texts with line feeds between them. -/
def joined (texts : List PyStr) : PyStr := [mark '\n'].intercalate texts

/-- A line that ends with a carriage return is not followed by a line feed, which would end the
same line. -/
def Apart (first second : PyStr × LineEnd) : Prop :=
  ¬ (first.2 = .carriageReturn ∧ second.1 = [] ∧ second.2 = .lineFeed)

instance (first second : PyStr × LineEnd) : Decidable (Apart first second) :=
  inferInstanceAs (Decidable (¬ _))

/-- An event stream. -/
structure Stream where
  byteOrderMark : Bool
  events : List Event
  apart : (events.flatMap Event.rows).IsChain Apart

namespace Stream

variable (stream : Stream)

/-- The stream as it is written. -/
def text : PyStr :=
  (if stream.byteOrderMark then [0xfeff] else []) ++
    (stream.events.flatMap Event.rows).flatMap fun row => row.1 ++ row.2.text

end Stream

/-! ## Line ends in one form -/

theorem unixNewlines_plain {text : PyStr} (plain : IsPlain text) (rest : PyStr) :
    Knowledge.unixNewlines (text ++ rest) = text ++ Knowledge.unixNewlines rest := by
  induction text with
  | nil => rfl
  | cons point others ih =>
    have later := ih fun other member => plain other (by simp [member])
    have noReturn := (plain point (by simp)).2
    rw [List.cons_append, List.cons_append, ← later]
    cases others ++ rest with
    | nil => simp [Knowledge.unixNewlines, noReturn]
    | cons second more => simp [Knowledge.unixNewlines, noReturn]

theorem unixNewlines_lineEnd {lineEnd : LineEnd} {rest : PyStr}
    (apart : ¬ (lineEnd = .carriageReturn ∧ rest.head? = some 0x0a)) :
    Knowledge.unixNewlines (lineEnd.text ++ rest) = 0x0a :: Knowledge.unixNewlines rest := by
  cases lineEnd with
  | lineFeed =>
    cases rest <;> simp [LineEnd.text, Knowledge.unixNewlines]
  | carriageReturn =>
    cases rest with
    | nil => rfl
    | cons first others =>
      have noFeed : first ≠ 0x0a := by
        rintro rfl
        exact apart ⟨rfl, rfl⟩
      simp [LineEnd.text, Knowledge.unixNewlines, noFeed]
  | both => simp [LineEnd.text, Knowledge.unixNewlines]

/-- Every line end of written rows becomes a line feed. -/
theorem unixNewlines_rows {rows : List (PyStr × LineEnd)} (plain : ∀ row ∈ rows, IsPlain row.1)
    (apart : rows.IsChain Apart) :
    Knowledge.unixNewlines (rows.flatMap fun row => row.1 ++ row.2.text) =
      rows.flatMap fun row => row.1 ++ [0x0a] := by
  induction rows with
  | nil => rfl
  | cons row others ih =>
    have later := ih (fun other member => plain other (by simp [member]))
      apart.of_cons
    rw [List.flatMap_cons, List.flatMap_cons, List.append_assoc,
      unixNewlines_plain (plain row (by simp)), unixNewlines_lineEnd, later, List.append_assoc]
    · rfl
    · rintro ⟨isReturn, feeds⟩
      cases others with
      | nil => cases feeds
      | cons next more =>
        have separate := (List.isChain_cons_cons.mp apart).1
        rw [List.flatMap_cons, List.append_assoc] at feeds
        cases isText : next.1 with
        | cons first rest =>
          rw [isText] at feeds
          have noFeed := (plain next (by simp) first (by simp [isText])).1
          exact noFeed (Option.some.inj feeds)
        | nil =>
          rw [isText] at feeds
          refine separate ⟨isReturn, isText, ?_⟩
          cases isEnd : next.2 with
          | lineFeed => rfl
          | carriageReturn =>
            rw [isEnd] at feeds
            exact absurd (Option.some.inj feeds) (by decide)
          | both =>
            rw [isEnd] at feeds
            exact absurd (Option.some.inj feeds) (by decide)

end Nexora.EventStream
