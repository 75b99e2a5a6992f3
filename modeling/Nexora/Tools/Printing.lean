import Nexora.Data.Members
import Nexora.Std.Encoding
import Nexora.Tools.Contracts

/-!
# What the encoder prints

A string literal can be read back character by character, so it ends where its closing quote is.
An unpaired surrogate comes out of the encoder as it went in, and nothing else brings one.
-/

namespace Nexora.Tools

open Nexora.Std Json

/-- What a hexadecimal digit stands for. -/
def pointValue (point : Fin 0x110000) : Nat :=
  if point.val < 58 then point.val - 48 else point.val - 87

/-- The code point an escape in a JSON string stands for, with what follows it. -/
def readPoint : PyStr → Option (Fin 0x110000 × PyStr)
  | [] => none
  | first :: rest =>
    if first = 0x5c then
      match rest with
      | [] => none
      | letter :: rest =>
        if letter = 0x22 then some (0x22, rest)
        else if letter = 0x5c then some (0x5c, rest)
        else if letter = 0x6e then some (0x0a, rest)
        else if letter = 0x72 then some (0x0d, rest)
        else if letter = 0x74 then some (0x09, rest)
        else if letter = 0x66 then some (0x0c, rest)
        else if letter = 0x62 then some (0x08, rest)
        else
          match rest with
          | _ :: _ :: high :: low :: rest =>
            some (Fin.ofNat _ (16 * pointValue high + pointValue low), rest)
          | _ => none
    else some (first, rest)

/-- The digit of an escape. -/
def digitPoint (digit : Nat) : Fin 0x110000 := Fin.ofNat _ (Nat.digitChar digit).toNat

/-- A control character without a letter of its own is escaped by its number. -/
theorem escapePoint_control : ∀ value : Fin 32, value.val ∉ [8, 9, 10, 12, 13] →
    escapePoint (value.castLE (by decide)) = [0x5c, 0x75, 0x30, 0x30,
      digitPoint (value.val / 16),
      digitPoint (value.val % 16)] := by
  decide +kernel

/-- Two digits write a number below 32. -/
theorem pointValue_digits : ∀ value : Fin 32,
    (Fin.ofNat _ (16 * pointValue (digitPoint (value.val / 16)) +
      pointValue (digitPoint (value.val % 16))) : Fin 0x110000) =
        value.castLE (by decide) := by
  decide +kernel

/-- An escape of a code point is read back. -/
theorem readPoint_escapePoint (point : Fin 0x110000) (rest : PyStr) :
    readPoint (escapePoint point ++ rest) = some (point, rest) := by
  by_cases control : point.val < 32 ∧ point.val ∉ [8, 9, 10, 12, 13]
  · obtain ⟨small, plain⟩ := control
    rw [show point = Fin.castLE (by decide) (⟨point.val, small⟩ : Fin 32) from rfl,
      escapePoint_control ⟨point.val, small⟩ plain, ← pointValue_digits ⟨point.val, small⟩]
    rfl
  unfold escapePoint
  split_ifs with quote backslash newline return_ tab feed back below
  · subst quote; rfl
  · subst backslash; rfl
  · subst newline; rfl
  · subst return_; rfl
  · subst tab; rfl
  · subst feed; rfl
  · subst back; rfl
  · refine absurd ⟨below, ?_⟩ control
    simp only [Fin.ext_iff] at newline return_ tab feed back
    simp only [List.mem_cons, List.not_mem_nil, or_false]
    omega
  · simp [readPoint, backslash]

theorem escapePoint_selfDelimiting : SelfDelimiting escapePoint :=
  .ofReader readPoint readPoint_escapePoint

/-- A string literal ends at its closing quote. -/
theorem quoted_selfDelimiting : SelfDelimiting quoted := by
  have quote : py "\"" = [0x22] := rfl
  have clean : ∀ point rest other, escapePoint point ++ rest ≠ 0x22 :: other := by
    intro point rest other same
    have read := readPoint_escapePoint point rest
    rw [same] at read
    have isQuote : point = 0x22 := by
      have points := congrArg (fun result => result.map Prod.fst) read
      exact (Option.some.inj points).symm
    subst isQuote
    have heads := congrArg List.head? same
    simp [escapePoint, show py "\\\"" = [0x5c, 0x22] from rfl] at heads
  intro first second rest other same
  simp only [quoted, quote, List.append_assoc, List.singleton_append] at same
  have body := escapePoint_selfDelimiting.terminated 0x22 clean first second rest other
  simp only [List.append_assoc, List.singleton_append] at body
  exact body (List.cons.inj same).2

theorem comma_commaSeparated (texts : List PyStr) (some_ : texts ≠ []) :
    [0x2c] ++ commaSeparated texts = texts.flatMap fun text => [0x2c] ++ text := by
  have comma : py "," = [0x2c] := rfl
  induction texts with
  | nil => exact absurd rfl some_
  | cons text rest ih =>
    cases rest with
    | nil => simp [commaSeparated]
    | cons next others =>
      have following := ih (by simp)
      simp only [commaSeparated, comma] at following ⊢
      rw [List.intersperse_cons_cons, List.flatten_cons, List.flatten_cons, following]
      simp

@[simp]
theorem utf8Length_append (first second : PyStr) :
    utf8Length (first ++ second) = utf8Length first + utf8Length second := by
  simp [utf8Length]

theorem escapePoint_surrogate (point : Fin 0x110000) :
    (escapePoint point).any isSurrogate = isSurrogate point := by
  have low (small : point.val < 0x80) : isSurrogate point = false := by
    simp only [isSurrogate, Bool.and_eq_false_iff, decide_eq_false_iff_not]
    omega
  unfold escapePoint
  split_ifs with quote backslash newline return_ tab feed backspace control
  all_goals try rw [py_noSurrogate, low (by simp_all)]
  · have small : point.val < 0x20 := control
    rw [List.any_append, py_noSurrogate, py_noSurrogate, low (by omega)]
    rfl
  · simp

/-- A JSON string has an unpaired surrogate exactly if its text has one. -/
theorem quoted_surrogate (text : PyStr) : (quoted text).any isSurrogate = text.any isSurrogate := by
  rw [quoted, List.any_append, List.any_append, py_noSurrogate, Bool.or_false, Bool.false_or,
    List.any_flatMap]
  simp only [escapePoint_surrogate]

theorem dumpsItems_eq (runtime : Runtime) (items : List Json) :
    dumpsItems runtime items = items.map (dumps runtime) := by
  induction items with
  | nil => rfl
  | cons item rest ih => rw [dumpsItems, ih, List.map_cons]

theorem dumpsMembers_eq (runtime : Runtime) (members : List (PyStr × Json)) :
    dumpsMembers runtime members = members.map fun member => (member.1, dumps runtime member.2) := by
  induction members with
  | nil => rfl
  | cons member rest ih => rw [dumpsMembers, ih, List.map_cons]

/-- What holds of no comma holds somewhere in texts with commas between them if it holds somewhere
in one of the texts. -/
theorem any_commaSeparated (condition : Fin 0x110000 → Bool) (comma : condition 0x2c = false)
    (texts : List PyStr) :
    (commaSeparated texts).any condition = texts.any fun text => text.any condition := by
  have separator : py "," = [0x2c] := rfl
  induction texts with
  | nil => rfl
  | cons text rest ih =>
    cases rest with
    | nil => simp [commaSeparated]
    | cons next others =>
      rw [commaSeparated] at ih ⊢
      rw [List.intersperse_cons_cons, List.flatten_cons, List.flatten_cons, List.any_append,
        List.any_append, ih, List.any_cons, separator]
      simp [comma]

/-- The encoding of a value has an unpaired surrogate exactly if one of its strings has one. -/
theorem dumps_surrogate (runtime : Runtime) (value : Json) :
    (dumps runtime value).any isSurrogate = value.hasSurrogate := by
  have comma : isSurrogate 0x2c = false := by decide
  induction value using smallerInduction with
  | each value ih =>
    cases value with
    | null => exact py_noSurrogate _
    | bool truth => cases truth <;> exact py_noSurrogate _
    | int number => exact py_noSurrogate _
    | float number =>
      cases number with
      | nan => exact py_noSurrogate _
      | infinite negative => cases negative <;> exact py_noSurrogate _
      | finite number => exact py_noSurrogate _
    | str text => exact quoted_surrogate text
    | array items =>
      rw [dumps, List.any_append, List.any_append, py_noSurrogate, py_noSurrogate,
        any_commaSeparated _ comma, dumpsItems_eq, List.any_map, Bool.false_or, Bool.or_false,
        hasSurrogate, anyPart, anyItem_eq]
      apply any_congr
      intro item present
      exact ih item (sizeOf_item present)
    | object members =>
      rw [dumps, List.any_append, List.any_append, py_noSurrogate, py_noSurrogate,
        any_commaSeparated _ comma, List.any_map, dumpsMembers_eq, Bool.false_or,
        Bool.or_false, hasSurrogate, anyPart, anyMember_eq]
      rw [(List.perm_insertionSort _ _).any_eq, List.any_map]
      apply any_congr
      intro member present
      simp only [Function.comp, List.any_append, quoted_surrogate, py_noSurrogate,
        Bool.or_false]
      rw [ih member.2 (sizeOf_member present)]
      rfl

theorem canonicalJson_eq_ok (runtime : Runtime) (value : Json) (bytes : Nat) (encoded : PyStr) :
    canonicalJson runtime value bytes = .ok encoded ↔
      (value.depth ≤ runtime.recursionLimit ∧ value.hasUnencodable = false) ∧
        (dumps runtime value).any isSurrogate = false ∧
        utf8Length (dumps runtime value) ≤ bytes ∧ dumps runtime value = encoded := by
  simp only [canonicalJson, bind_eq_ok, raiseIf_eq_ok, pure_eq_ok, exists_and_left, exists_const,
    not_or, not_lt, Bool.not_eq_true]

end Nexora.Tools
