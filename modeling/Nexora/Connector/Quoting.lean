import Nexora.Connector.Runtime
import Nexora.Std.Url

/-!
# What a path argument becomes

A value is percent-encoded before it is put into a path. Encoding keeps it inside its segment:
no slash, brace or mark of a query comes out of it. It leaves the dot as it is, though, and an
empty text too. A placeholder is replaced wherever it occurs, which goes segment by segment.
-/

namespace Nexora.Connector

open Nexora.Std Json

/-! ## Percent-encoding -/

/-- A character that `quote` can write. -/
def isQuoted (character : Char) : Bool :=
  character.isAlphanum || character ∈ ['_', '.', '-', '~', '%', '*']

/-- The characters that have a meaning in a URL or in a template are not among them. -/
theorem marks_not_quoted :
    ∀ mark ∈ ['/', '?', '#', '\x7b', '\x7d'], isQuoted mark = false := by
  intro mark member
  simp only [List.mem_cons, List.not_mem_nil, or_false] at member
  rcases member with rfl | rfl | rfl | rfl | rfl <;> decide

theorem digit_quoted (digit : Nat) : isQuoted (Nat.digitChar digit).toUpper = true := by
  by_cases small : digit < 16
  · have listed : ∀ digit : Fin 16, isQuoted (Nat.digitChar digit).toUpper = true := by
      decide +kernel
    exact listed ⟨digit, small⟩
  · have star : Nat.digitChar digit = '*' := by
      unfold Nat.digitChar
      repeat rw [if_neg (by omega)]
    rw [star]
    decide

theorem quoteByte_quoted (byte : Nat) :
    ∀ character ∈ quoteByte byte, isQuoted character = true := by
  intro character member
  unfold quoteByte at member
  dsimp only at member
  split at member
  · rename_i kept
    rw [List.mem_singleton.mp member]
    unfold isQuoted
    rcases kept.2 with letter | mark
    · simp [letter]
    · simp only [List.mem_cons, List.not_mem_nil, or_false] at mark
      rcases mark with mark | mark | mark | mark <;> simp [mark]
  · simp only [List.mem_cons, List.not_mem_nil, or_false] at member
    rcases member with rfl | rfl | rfl
    · decide
    · exact digit_quoted _
    · exact digit_quoted _

/-- A byte that comes out as dots alone is the dot. -/
theorem quoteByte_dots {byte : Nat} (dots : ∀ character ∈ quoteByte byte, character = '.') :
    byte = 46 := by
  unfold quoteByte at dots
  dsimp only at dots
  split at dots
  · rename_i kept
    have same := congrArg Char.toNat (dots _ (List.mem_singleton.mpr rfl))
    rwa [Char.toNat_ofNat, if_pos (.inl (by omega))] at same
  · exact absurd (dots '%' (by simp)) (by decide)

/-- What `quote` writes for one code point. -/
def quotePoint (point : Fin 0x110000) : List Char := (utf8Bytes point.val).flatMap quoteByte

theorem quote_eq_ok (text : PyStr) (quoted : List Char) :
    quote text = .ok quoted ↔
      text.any isSurrogate = false ∧ text.flatMap quotePoint = quoted := by
  simp only [quote, bind_eq_ok, raiseIf_eq_ok, pure_eq_ok, Bool.not_eq_true]
  constructor
  · rintro ⟨_, letters, same⟩
    exact ⟨letters, same⟩
  · rintro ⟨letters, same⟩
    exact ⟨⟨⟩, letters, same⟩

/-- A code point comes out as some character, and as dots alone only if it is the dot. -/
theorem quotePoint_dots {point : Fin 0x110000}
    (dots : ∀ character ∈ quotePoint point, character = '.') : point.val = 46 := by
  have ascii : ∀ byte ∈ utf8Bytes point.val, byte = 46 := by
    intro byte member
    apply quoteByte_dots
    intro character written
    exact dots character (List.mem_flatMap.mpr ⟨byte, member, written⟩)
  unfold utf8Bytes at ascii
  split at ascii
  · exact ascii _ (by simp)
  · split at ascii
    · have first := ascii _ (List.mem_cons_self ..)
      omega
    · split at ascii
      · have first := ascii _ (List.mem_cons_self ..)
        omega
      · have first := ascii _ (List.mem_cons_self ..)
        omega

/-- A text that comes out as dots alone has as many of them. -/
theorem quote_dots {text : PyStr}
    (dots : ∀ character ∈ text.flatMap quotePoint, character = '.') :
    text = List.replicate (text.flatMap quotePoint).length ⟨46, by decide⟩ := by
  induction text with
  | nil => rfl
  | cons point rest ih =>
    have dot : point = ⟨46, by decide⟩ := by
      apply Fin.ext
      apply quotePoint_dots
      intro character member
      exact dots character (by simp [member])
    have others := ih fun character member => dots character (by
      rw [List.flatMap_cons]
      exact List.mem_append_right _ member)
    have one : quotePoint ⟨46, by decide⟩ = ['.'] := by decide
    subst dot
    rw [List.flatMap_cons, one, List.length_append, List.length_singleton, Nat.add_comm,
      List.replicate_succ, ← others]

/-- A text that is exactly one path segment, and none that a client walks over. -/
def IsSegment (text : List Char) : Prop := text ≠ [] ∧ '/' ∉ text ∧ ¬ IsDotSegment text

/-- The values that percent-encoding does not make a segment. -/
def IsEscape (text : PyStr) : Prop := text = [] ∨ text = py "." ∨ text = py ".."

instance (text : PyStr) : Decidable (IsEscape text) := inferInstanceAs (Decidable (_ ∨ _))

variable {quoted : List Char}

/-- A quoted value is a segment unless it is empty or one or two dots. -/
theorem isSegment_quoted {text : PyStr} (isQuote : quote text = .ok quoted) :
    IsSegment quoted ↔ ¬ IsEscape text := by
  obtain ⟨-, rfl⟩ := (quote_eq_ok text quoted).mp isQuote
  have one : quotePoint ⟨46, by decide⟩ = ['.'] := by decide
  constructor
  · rintro ⟨some_, -, ordinary⟩ (rfl | rfl | rfl)
    · exact some_ rfl
    · exact ordinary (.inl (by decide))
    · exact ordinary (.inr (by decide))
  · intro noEscape
    refine ⟨?_, ?_, ?_⟩
    · intro nothing
      apply noEscape
      have same := @quote_dots text (by simp [nothing])
      rw [nothing] at same
      exact .inl same
    · intro slash
      obtain ⟨point, -, member⟩ := List.mem_flatMap.mp slash
      obtain ⟨byte, -, written⟩ := List.mem_flatMap.mp member
      exact absurd (quoteByte_quoted byte '/' written) (by decide)
    · rintro (dot | dots)
      · have same := @quote_dots text (by simp [dot])
        rw [dot] at same
        exact noEscape (.inr (.inl same))
      · have same := @quote_dots text (by simp [dots])
        rw [dots] at same
        exact noEscape (.inr (.inr same))

variable {mark : Char}

/-- No mark of a URL or of a template comes out of a value. -/
theorem quoted_marks {text : PyStr} (isQuote : quote text = .ok quoted)
    (isMark : mark ∈ ['/', '?', '#', '\x7b', '\x7d']) : mark ∉ quoted := by
  obtain ⟨-, rfl⟩ := (quote_eq_ok text quoted).mp isQuote
  intro member
  obtain ⟨point, -, inPoint⟩ := List.mem_flatMap.mp member
  obtain ⟨byte, -, written⟩ := List.mem_flatMap.mp inPoint
  have quotedMark := quoteByte_quoted byte mark written
  rw [marks_not_quoted mark isMark] at quotedMark
  cases quotedMark

/-! ## Replacing -/

section Replacing

variable {pattern replacement : List Char} {others : List (List Char)} {text first : List Char}
  {rest : List Char} {character : Char}

theorem replaceAll_skip (pattern replacement : List Char) (skipped : Nat) (character : Char)
    (rest : List Char) : replaceAll pattern replacement (skipped + 1) (character :: rest) =
      replaceAll pattern replacement skipped rest := by
  rw [replaceAll, if_pos (Nat.succ_pos skipped), Nat.add_sub_cancel]

theorem replaceAll_start (occurs : pattern.isPrefixOf (character :: rest) = true) :
    replaceAll pattern replacement 0 (character :: rest) =
      replacement ++ replaceAll pattern replacement (pattern.length - 1) rest := by
  rw [replaceAll, if_neg (lt_irrefl 0), if_pos occurs]

theorem replaceAll_other (other : ¬ pattern.isPrefixOf (character :: rest) = true) :
    replaceAll pattern replacement 0 (character :: rest) =
      character :: replaceAll pattern replacement 0 rest := by
  rw [replaceAll, if_neg (lt_irrefl 0), if_neg other]

/-- What an occurrence takes of the text after its first character is of the pattern. -/
theorem take_occurrence (absent : mark ∉ pattern)
    (occurs : pattern.isPrefixOf (character :: rest) = true) :
    mark ∉ rest.take (pattern.length - 1) := by
  obtain ⟨after, isAfter⟩ := List.isPrefixOf_iff_prefix.mp occurs
  cases pattern with
  | nil => simp
  | cons head tail =>
    rw [List.cons_append, List.cons.injEq] at isAfter
    rw [List.mem_cons, not_or] at absent
    rw [← isAfter.2]
    simpa using absent.2

/-- Whether a text without slashes stands at the start is decided in the first segment. -/
theorem isPrefixOf_first (noSlash : '/' ∉ pattern) (split : text.splitOn '/' = first :: others) :
    pattern.isPrefixOf text = pattern.isPrefixOf first := by
  induction pattern generalizing text first others with
  | nil => simp
  | cons head tail ih =>
    rw [List.mem_cons, not_or] at noSlash
    cases text with
    | nil =>
      rw [List.splitOn_nil, List.cons.injEq] at split
      rw [← split.1]
    | cons character rest =>
      rw [List.splitOn_cons_eq_if_modifyHead] at split
      by_cases slash : character = '/'
      · subst slash
        simp only [beq_self_eq_true, if_true, List.cons.injEq] at split
        have other : (head == '/') = false := by simpa using Ne.symm noSlash.1
        rw [← split.1, List.isPrefixOf_cons_cons, other, Bool.false_and]
        rfl
      · obtain ⟨firstRest, othersRest, splitRest⟩ :=
          List.exists_cons_of_ne_nil (List.splitOn_ne_nil '/' rest)
        simp only [beq_iff_eq, slash, if_false, splitRest, List.modifyHead_cons,
          List.cons.injEq] at split
        rw [← split.1, List.isPrefixOf_cons_cons, List.isPrefixOf_cons_cons,
          ih noSlash.2 splitRest]

/-- A text without slashes in front becomes part of the first segment. -/
theorem splitOn_append (noSlash : '/' ∉ replacement) (split : text.splitOn '/' = first :: others) :
    (replacement ++ text).splitOn '/' = (replacement ++ first) :: others := by
  induction replacement with
  | nil => exact split
  | cons head tail ih =>
    rw [List.mem_cons, not_or] at noSlash
    rw [List.cons_append, List.splitOn_cons_eq_if_modifyHead,
      ih noSlash.2]
    simp [Ne.symm noSlash.1]

/-- Replacing what holds no slash by what holds none goes segment by segment. -/
theorem splitOn_replaceAll (some_ : pattern ≠ []) (noSlash : '/' ∉ pattern)
    (inSegment : '/' ∉ replacement) (skipped : Nat) (inside : '/' ∉ text.take skipped)
    (split : text.splitOn '/' = first :: others) :
    (replaceAll pattern replacement skipped text).splitOn '/' =
      replaceAll pattern replacement skipped first ::
        others.map (replaceAll pattern replacement 0) := by
  induction text generalizing skipped first others with
  | nil =>
    rw [List.splitOn_nil, List.cons.injEq] at split
    obtain ⟨rfl, rfl⟩ := split
    rfl
  | cons character rest ih =>
    obtain ⟨firstRest, othersRest, splitRest⟩ :=
      List.exists_cons_of_ne_nil (List.splitOn_ne_nil '/' rest)
    have starts := isPrefixOf_first noSlash split
    rw [List.splitOn_cons_eq_if_modifyHead] at split
    by_cases slash : character = '/'
    · -- A slash is neither skipped nor the start of an occurrence.
      subst slash
      have none_ : skipped = 0 := by
        cases skipped with
        | zero => rfl
        | succ count => exact absurd inside (by simp)
      subst none_
      simp only [beq_self_eq_true, if_true, splitRest, List.cons.injEq] at split
      obtain ⟨rfl, rfl⟩ := split
      have noStart : pattern.isPrefixOf ('/' :: rest) = false := by
        rw [starts]
        cases pattern with
        | nil => exact absurd rfl some_
        | cons head tail => rfl
      have others := ih 0 (by simp) splitRest
      rw [replaceAll_other (by simp [noStart]), List.splitOn_cons_eq_if_modifyHead, others]
      simp [replaceAll]
    · simp only [beq_iff_eq, slash, if_false, splitRest, List.modifyHead_cons,
        List.cons.injEq] at split
      obtain ⟨rfl, rfl⟩ := split
      cases skipped with
      | succ count =>
        have within := ih count
          (fun member => inside (by simp [member])) splitRest
        simpa only [replaceAll_skip] using within
      | zero =>
        by_cases occurs : pattern.isPrefixOf (character :: rest) = true
        · have within := splitOn_append inSegment
            (ih _ (take_occurrence noSlash occurs) splitRest)
          rw [replaceAll_start occurs, within, replaceAll_start (starts ▸ occurs)]
        · have within := ih 0 (by simp) splitRest
          have other : ¬ pattern.isPrefixOf (character :: firstRest) = true := by
            rwa [← starts]
          rw [replaceAll_other occurs, List.splitOn_cons_eq_if_modifyHead, within,
            replaceAll_other other]
          simp [slash]

/-- Either nothing was replaced or the replacement is in the outcome. -/
theorem replaceAll_infix (pattern replacement text : List Char) (skipped : Nat) :
    replaceAll pattern replacement skipped text = text.drop skipped ∨
      replacement <:+: replaceAll pattern replacement skipped text := by
  induction text generalizing skipped with
  | nil => exact .inl (by simp [replaceAll])
  | cons character rest ih =>
    cases skipped with
    | succ count =>
      have within := ih count
      simpa only [replaceAll_skip, List.drop_succ_cons] using within
    | zero =>
      by_cases occurs : pattern.isPrefixOf (character :: rest) = true
      · rw [replaceAll_start occurs]
        exact .inr (List.prefix_append ..).isInfix
      · rw [replaceAll_other occurs]
        rcases ih 0 with same | inside
        · exact .inl (by simp [same])
        · exact .inr (List.infix_cons inside)

/-- Nothing is replaced where the pattern does not occur. -/
theorem replaceAll_of_not_infix (absent : ¬ pattern <:+: text) :
    replaceAll pattern replacement 0 text = text := by
  induction text with
  | nil => rfl
  | cons character rest ih =>
    have noStart : ¬ pattern.isPrefixOf (character :: rest) = true := fun occurs =>
      absent (List.isPrefixOf_iff_prefix.mp occurs).isInfix
    rw [replaceAll_other noStart,
      ih fun occurs => absent (List.infix_cons occurs)]

/-- A character of neither pattern nor replacement is in the outcome if it was in the text. -/
theorem mem_replaceAll (some_ : pattern ≠ []) (noPattern : mark ∉ pattern)
    (noReplacement : mark ∉ replacement) (skipped : Nat) (inside : mark ∉ text.take skipped) :
    mark ∈ replaceAll pattern replacement skipped text ↔ mark ∈ text := by
  induction text generalizing skipped with
  | nil => simp [replaceAll]
  | cons character rest ih =>
    cases skipped with
    | succ count =>
      rw [List.take_succ_cons, List.mem_cons, not_or] at inside
      rw [replaceAll_skip, ih count inside.2, List.mem_cons]
      simp [inside.1]
    | zero =>
      by_cases occurs : pattern.isPrefixOf (character :: rest) = true
      · have first : mark ≠ character := by
          obtain ⟨after, isAfter⟩ := List.isPrefixOf_iff_prefix.mp occurs
          obtain ⟨head, tail, rfl⟩ := List.exists_cons_of_ne_nil some_
          rw [List.cons_append, List.cons.injEq] at isAfter
          rintro rfl
          exact noPattern (by simp [isAfter.1])
        rw [replaceAll_start occurs, List.mem_append,
          ih _ (take_occurrence noPattern occurs), List.mem_cons]
        simp [noReplacement, first]
      · rw [replaceAll_other occurs, List.mem_cons, List.mem_cons,
          ih 0 (by simp)]

end Replacing

end Nexora.Connector
