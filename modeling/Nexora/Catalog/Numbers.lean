import Nexora.Catalog.Manifest

/-!
# The text of a version

A version is stored as its text beside its three numbers, and read back from the text where it
is compared. The pattern admits no leading zero, so each text is the text of one version.
-/

namespace Nexora.Catalog

/-- A part of the pattern: decimal digits without a leading zero. -/
def isVersionPart : List Char → Bool
  | [] => false
  | ['0'] => true
  | first :: rest => (first.isDigit && first ≠ '0') && rest.all Char.isDigit

/-- The digits `int` reads at most. -/
def maxIntDigits : Nat := 4300

/-- `int` of a part of the pattern. -/
def readPart (part : List Char) : Option Nat :=
  if isVersionPart part && part.length ≤ maxIntDigits then some (Nat.ofDigitChars 10 part 0)
  else none

namespace Version

/-- The parts of a text that has three of them. -/
def readParts : List (List Char) → Option Version
  | [major, minor, patch] => do
      let first ← readPart major
      let second ← readPart minor
      let third ← readPart patch
      pure ⟨first, second, third⟩
  | _ => none

/-- `Version(text)`. -/
def ofText (text : String) : Except Failure Version :=
  Std.orRaise (readParts (text.toList.splitOn '.')) (.valueError ("Not a semantic version: " ++ text))

/-- `str(version)`. -/
def text (version : Version) : String :=
  toString version.major ++ "." ++ toString version.minor ++ "." ++ toString version.patch

end Version

theorem isVersionPart_toDigits (number : Nat) : isVersionPart (Nat.toDigits 10 number) = true := by
  have positive : ∀ value, 0 < value → ∃ first rest, Nat.toDigits 10 value = first :: rest ∧
      (first.isDigit && first ≠ '0') && rest.all Char.isDigit := by
    intro value
    induction value using Nat.strong_induction_on with
    | _ value ih =>
      intro positive
      rcases Nat.lt_or_ge value 10 with small | large
      · refine ⟨value.digitChar, [], Nat.toDigits_of_lt_base small, ?_⟩
        interval_cases value <;> decide
      · obtain ⟨first, rest, digits, fits⟩ :=
          ih (value / 10) (by omega) (by omega)
        refine ⟨first, rest ++ [(value % 10).digitChar], ?_, ?_⟩
        · rw [Nat.toDigits_of_base_le (by decide) large, digits, List.cons_append]
        · have last : (value % 10).digitChar.isDigit = true := by
            rw [Nat.isDigit_digitChar]
            exact decide_eq_true (Nat.mod_lt _ (by decide))
          simp only [Bool.and_eq_true] at fits ⊢
          refine ⟨fits.1, ?_⟩
          rw [List.all_append, fits.2, List.all_cons, List.all_nil, last]
          rfl
  rcases Nat.eq_zero_or_pos number with rfl | large
  · decide
  · obtain ⟨first, rest, digits, fits⟩ := positive number large
    rw [digits]
    unfold isVersionPart
    split
    · contradiction
    · rfl
    · rename_i same
      obtain ⟨rfl, rfl⟩ := List.cons.inj same
      exact fits

theorem exists_digitChar {letter : Char} (isDigit : letter.isDigit = true) :
    ∃ digit, digit < 10 ∧ letter = digit.digitChar := by
  have range := Char.isDigit_iff_toNat.mp isDigit
  have low : '0'.toNat = 48 := rfl
  have high : '9'.toNat = 57 := rfl
  refine ⟨letter.toNat - 48, by omega, Char.toNat_inj.mp ?_⟩
  rw [Nat.toNat_digitChar_of_lt_ten (by omega)]
  omega

/-- A part of the pattern is the decimal text of its value. -/
theorem toDigits_of_isVersionPart {part : List Char} (fits : isVersionPart part = true) :
    Nat.toDigits 10 (Nat.ofDigitChars 10 part 0) = part := by
  have rising : ∀ rest : List Char, rest.all Char.isDigit = true → ∀ number, 0 < number →
      Nat.toDigits 10 (Nat.ofDigitChars 10 rest number) = Nat.toDigits 10 number ++ rest := by
    intro rest
    induction rest with
    | nil => simp
    | cons letter rest ih =>
      intro digits number positive
      rw [List.all_cons, Bool.and_eq_true] at digits
      obtain ⟨digit, small, rfl⟩ := exists_digitChar digits.1
      rw [Nat.ofDigitChars_cons_digitChar_of_lt_ten small,
        ih digits.2 _ (by omega), Nat.toDigits_of_base_le (by decide) (by omega)]
      have quotient : (10 * number + digit) / 10 = number := by omega
      have remainder : (10 * number + digit) % 10 = digit := by omega
      rw [quotient, remainder, List.append_assoc, List.singleton_append]
  unfold isVersionPart at fits
  split at fits
  case h_1 => cases fits
  case h_2 => decide
  case h_3 first rest _ =>
    simp only [Bool.and_eq_true, decide_eq_true_eq] at fits
    obtain ⟨⟨isDigit, nonzero⟩, digits⟩ := fits
    obtain ⟨digit, small, rfl⟩ := exists_digitChar isDigit
    have positive : 0 < digit := by
      rw [Nat.pos_iff_ne_zero]
      rintro rfl
      exact nonzero rfl
    rw [Nat.ofDigitChars_cons_digitChar_of_lt_ten small, Nat.mul_zero, Nat.zero_add,
      rising rest digits digit positive, Nat.toDigits_of_lt_base small, List.singleton_append]

theorem readPart_eq_some {part : List Char} {number : Nat} :
    readPart part = some number ↔
      part = Nat.toDigits 10 number ∧ (Nat.toDigits 10 number).length ≤ maxIntDigits := by
  unfold readPart
  constructor
  · intro reads
    split at reads
    case isTrue fits =>
      rw [Bool.and_eq_true, decide_eq_true_eq] at fits
      obtain rfl := Option.some.inj reads
      rw [toDigits_of_isVersionPart fits.1]
      exact ⟨rfl, fits.2⟩
    case isFalse => cases reads
  · rintro ⟨rfl, short⟩
    rw [isVersionPart_toDigits, Bool.true_and, if_pos (decide_eq_true short),
      Nat.ofDigitChars_ten_toDigits]

namespace Version

/-- The decimal texts of a version's numbers. -/
def digits (version : Version) : List (List Char) :=
  [Nat.toDigits 10 version.major, Nat.toDigits 10 version.minor, Nat.toDigits 10 version.patch]

theorem toList_text (version : Version) :
    version.text.toList = ['.'].intercalate version.digits := by
  have decimal (number : Nat) : (toString number).toList = Nat.toDigits 10 number := by
    change (Nat.repr number).toList = _
    rw [Nat.repr_eq_ofList_toDigits, String.toList_ofList]
  have dot : (".").toList = ['.'] := rfl
  simp only [text, digits, String.toList_append, decimal, dot, List.intercalate_cons_cons,
    List.intercalate_singleton, List.append_assoc]

theorem splitOn_text (version : Version) : version.text.toList.splitOn '.' = version.digits := by
  rw [toList_text]
  apply List.splitOn_intercalate
  · intro part member dot
    simp only [digits, List.mem_cons, List.not_mem_nil, or_false] at member
    rcases member with rfl | rfl | rfl <;>
      exact absurd (Nat.isDigit_of_mem_toDigits (by decide) (by decide) dot) (by decide)
  · simp [digits]

/-- The numbers have few enough digits for `int` to read them. -/
def Readable (version : Version) : Prop := ∀ part ∈ version.digits, part.length ≤ maxIntDigits

theorem readParts_eq_some {parts : List (List Char)} {version : Version} :
    readParts parts = some version ↔ parts = version.digits ∧ version.Readable := by
  unfold readParts
  split
  case h_1 major minor patch =>
    simp only [Option.bind_eq_bind, Option.bind_eq_some_iff, readPart_eq_some, Option.pure_def,
      Option.some.injEq, digits, Readable, List.cons.injEq, and_true, List.mem_cons,
      List.not_mem_nil, or_false, forall_eq_or_imp, forall_eq]
    constructor
    · rintro ⟨_, ⟨rfl, first⟩, _, ⟨rfl, second⟩, _, ⟨rfl, third⟩, rfl⟩
      exact ⟨⟨rfl, rfl, rfl⟩, first, second, third⟩
    · rintro ⟨⟨rfl, rfl, rfl⟩, first, second, third⟩
      exact ⟨_, ⟨rfl, first⟩, _, ⟨rfl, second⟩, _, ⟨rfl, third⟩, rfl⟩
  case h_2 other =>
    constructor
    · intro impossible
      cases impossible
    · rintro ⟨rfl, -⟩
      exact absurd rfl (other _ _ _)

/-- A text is read as the one version whose text it is. -/
theorem ofText_eq_ok {text : String} {version : Version} :
    ofText text = .ok version ↔ text = version.text ∧ version.Readable := by
  rw [ofText, Std.orRaise_eq_ok, readParts_eq_some]
  constructor
  · rintro ⟨parts, readable⟩
    refine ⟨String.toList_inj.mp ?_, readable⟩
    rw [toList_text, ← parts, List.intercalate_splitOn]
  · rintro ⟨rfl, readable⟩
    exact ⟨splitOn_text version, readable⟩

theorem text_injective : Function.Injective text := by
  intro first second same
  have digits : first.digits = second.digits := by
    rw [← splitOn_text, ← splitOn_text, same]
  have value (number : Nat) : Nat.ofDigitChars 10 (Nat.toDigits 10 number) 0 = number :=
    Nat.ofDigitChars_ten_toDigits
  simp only [Version.digits, List.cons.injEq, and_true] at digits
  obtain ⟨major, minor, patch⟩ := digits
  ext
  · rw [← value first.major, major, value]
  · rw [← value first.minor, minor, value]
  · rw [← value first.patch, patch, value]

end Version

end Nexora.Catalog
