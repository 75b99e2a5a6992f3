import Nexora.Std.Words

/-!
# JavaScript strings

Sequences of UTF-16 code units and the operations on them that the console uses: trimming, the
digits a regular expression knows, and the decimal text of a big integer with its reading back.
-/

namespace Nexora

/-- A JavaScript string: a sequence of UTF-16 code units. -/
abbrev JsString := List (Fin 0x10000)

/-- A text literal of the basic plane as a JavaScript string. -/
def js (text : String) : JsString :=
  text.toList.map fun character => Fin.ofNat 0x10000 character.toNat

namespace JsText

/-- What `\s` matches and `trim` removes. -/
def isSpace (unit : Fin 0x10000) : Bool :=
  (0x09 ≤ unit && unit ≤ 0x0d) || unit = 0x20 || unit = 0xa0 || unit = 0x1680 ||
    (0x2000 ≤ unit && unit ≤ 0x200a) || unit = 0x2028 || unit = 0x2029 || unit = 0x202f ||
    unit = 0x205f || unit = 0x3000 || unit = 0xfeff

/-- `text.trim()`. -/
def trim (text : JsString) : JsString := (text.dropWhile isSpace).rdropWhile isSpace

/-- What `\d` matches. -/
def isDigit (unit : Fin 0x10000) : Bool := 0x30 ≤ unit && unit ≤ 0x39

/-- Whitespace only. -/
def Blank (text : JsString) : Prop := ∀ unit ∈ text, isSpace unit = true

/-- A word with optional whitespace around it. -/
def Spaced (word text : JsString) : Prop :=
  ∃ front back, Blank front ∧ Blank back ∧ text = front ++ word ++ back

section Trimming

variable {word text : JsString}

theorem spaced_trim (text : JsString) : Spaced (trim text) text := by
  refine ⟨text.takeWhile isSpace, (text.dropWhile isSpace).rtakeWhile isSpace, ?_, ?_, ?_⟩
  · exact fun unit member => List.mem_takeWhile_imp member
  · exact fun unit member => List.mem_rtakeWhile_imp member
  · rw [trim, List.append_assoc, List.rdropWhile_append_rtakeWhile,
      List.takeWhile_append_dropWhile]

theorem dropWhile_blank {front rest : JsString} (blank : Blank front)
    (starts : ∀ unit ∈ rest.head?, isSpace unit = false) :
    (front ++ rest).dropWhile isSpace = rest := by
  rw [List.dropWhile_append_of_pos blank]
  cases rest with
  | nil => rfl
  | cons unit rest => rw [List.dropWhile_cons_of_neg (by simp [starts unit rfl])]

theorem trim_spaced (some_ : word ≠ []) (visible : ∀ unit ∈ word, isSpace unit = false)
    (spaced : Spaced word text) : trim text = word := by
  obtain ⟨front, back, frontBlank, backBlank, rfl⟩ := spaced
  have opened : (front ++ word ++ back).dropWhile isSpace = word ++ back := by
    rw [List.append_assoc]
    refine dropWhile_blank frontBlank fun unit isFirst => visible unit ?_
    rw [List.head?_append_of_ne_nil _ some_] at isFirst
    exact List.mem_of_mem_head? isFirst
  rw [trim, opened, List.rdropWhile, List.reverse_append, dropWhile_blank, List.reverse_reverse]
  · exact fun unit member => backBlank unit (List.mem_reverse.mp member)
  · intro unit isLast
    exact visible unit (List.mem_reverse.mp (List.mem_of_mem_head? isLast))

end Trimming

/-- `value.toString()` of a big integer that is not negative. -/
def decimal (value : Nat) : JsString := js (toString value)

/-- `BigInt(text)` of digits. -/
def bigInt (digits : JsString) : Nat :=
  digits.foldl (fun value unit => 10 * value + (unit.val - 0x30)) 0

/-- `Number(value)` of a big integer: the nearest number of 53 binary digits, an even one among
two. -/
def number (value : Nat) : Nat :=
  let step := 2 ^ (value.log2 - 52)
  if step < 2 * (value % step) ∨ step = 2 * (value % step) ∧ value / step % 2 = 1 then
    (value / step + 1) * step
  else value / step * step

variable {value : Nat}

/-- The big integers below two to the fifty-third are numbers. -/
theorem number_eq (small : value < 2 ^ 53) : number value = value := by
  have exponent : value.log2 - 52 = 0 := by
    by_cases zero : value = 0
    · simp [zero]
    · have below := (Nat.log2_lt zero).mpr small
      omega
  simp only [number, exponent, pow_zero, Nat.mod_one, Nat.div_one, Nat.mul_one]
  simp

section Decimals

/-- Digits only. -/
def Digits (text : JsString) : Prop := ∀ unit ∈ text, isDigit unit = true

variable {first second : JsString} {digit : Nat}

theorem digits_append : Digits (first ++ second) ↔ Digits first ∧ Digits second :=
  List.forall_mem_append

/-- The code unit of a digit. -/
def digitUnit (digit : Nat) : Fin 0x10000 := Fin.ofNat 0x10000 (0x30 + digit)

theorem val_digitUnit (small : digit < 10) :
    (digitUnit digit).val = 0x30 + digit := by
  simp only [digitUnit, Fin.val_ofNat]
  omega

theorem isDigit_iff {unit : Fin 0x10000} :
    isDigit unit = true ↔ 0x30 ≤ unit.val ∧ unit.val ≤ 0x39 := by
  simp [isDigit, Fin.le_def]

theorem isDigit_digitUnit (small : digit < 10) :
    isDigit (digitUnit digit) = true := by
  rw [isDigit_iff, val_digitUnit small]
  omega

theorem bigInt_append_singleton (digits : JsString) (last : Fin 0x10000) :
    bigInt (digits ++ [last]) = 10 * bigInt digits + (last.val - 0x30) := by
  rw [bigInt, List.foldl_append]
  rfl

theorem bigInt_append (first second : JsString) :
    bigInt (first ++ second) = bigInt first * 10 ^ second.length + bigInt second := by
  induction second using List.reverseRecOn with
  | nil => simp [bigInt]
  | append_singleton second last ih =>
    rw [← List.append_assoc, bigInt_append_singleton, bigInt_append_singleton,
      ih, List.length_append, List.length_singleton, pow_succ]
    ring

theorem bigInt_lt (digits : Digits first) : bigInt first < 10 ^ first.length := by
  induction first using List.reverseRecOn with
  | nil => simp [bigInt]
  | append_singleton first last ih =>
    obtain ⟨others, atLast⟩ := digits_append.mp digits
    have bound := isDigit_iff.mp (atLast last (List.mem_singleton_self last))
    have before := ih others
    rw [bigInt_append, List.length_append, List.length_singleton, pow_add, pow_one]
    have single : bigInt [last] = last.val - 0x30 := by simp [bigInt]
    rw [single]
    omega

/-- Digits of one length are known from the number they write. -/
theorem bigInt_inj (firstDigits : Digits first) (secondDigits : Digits second)
    (length : first.length = second.length) (same : bigInt first = bigInt second) :
    first = second := by
  induction first generalizing second with
  | nil => exact (List.length_eq_zero_iff.mp length.symm).symm
  | cons unit first ih =>
    cases second with
    | nil => cases length
    | cons other second =>
      obtain ⟨atUnit, firstDigits⟩ := List.forall_mem_cons.mp firstDigits
      obtain ⟨atOther, secondDigits⟩ := List.forall_mem_cons.mp secondDigits
      have lengths : first.length = second.length := by simpa using length
      have firstBound := bigInt_lt firstDigits
      have secondBound := bigInt_lt secondDigits
      rw [← List.singleton_append, bigInt_append, ← @List.singleton_append _ other,
        bigInt_append, lengths] at same
      rw [lengths] at firstBound
      have singles : ∀ unit : Fin 0x10000, bigInt [unit] = unit.val - 0x30 := by simp [bigInt]
      rw [singles, singles] at same
      have power : 0 < 10 ^ second.length := by positivity
      -- The first digit is the quotient by the power, the others are the remainder.
      have heads := congrArg (· / 10 ^ second.length) same
      have tails := congrArg (· % 10 ^ second.length) same
      simp only [Nat.mul_add_mod', Nat.mod_eq_of_lt firstBound,
        Nat.mod_eq_of_lt secondBound] at tails
      rw [Nat.mul_comm, Nat.mul_comm (other.val - 0x30)] at heads
      simp only [Nat.mul_add_div power, Nat.div_eq_of_lt firstBound,
        Nat.div_eq_of_lt secondBound, Nat.add_zero] at heads
      have unitBound := isDigit_iff.mp atUnit
      have otherBound := isDigit_iff.mp atOther
      have sameUnit : unit = other := Fin.ext (by omega)
      rw [sameUnit, ih firstDigits secondDigits lengths tails]

theorem decimal_of_lt (small : value < 10) : decimal value = [digitUnit value] := by
  rw [decimal, js, Nat.toString_eq_repr, Nat.toList_repr, Nat.toDigits_of_lt_base small]
  interval_cases value <;> rfl

theorem decimal_of_le (large : 10 ≤ value) :
    decimal value = decimal (value / 10) ++ [digitUnit (value % 10)] := by
  rw [decimal, js, Nat.toString_eq_repr, Nat.toList_repr, Nat.toDigits_of_base_le (by decide) large,
    List.map_append, List.map_singleton, ← Nat.toList_repr]
  congr 2
  have small : value % 10 < 10 := Nat.mod_lt _ (by decide)
  interval_cases value % 10 <;> rfl

theorem digits_decimal (value : Nat) : Digits (decimal value) := by
  induction value using Nat.strongRecOn with
  | ind value ih =>
    by_cases small : value < 10
    · rw [decimal_of_lt small]
      simpa [Digits] using isDigit_digitUnit small
    · rw [decimal_of_le (by omega), digits_append]
      refine ⟨ih _ (by omega), ?_⟩
      simpa [Digits] using isDigit_digitUnit (Nat.mod_lt value (by decide))

/-- A big integer is read back from its text. -/
theorem bigInt_decimal (value : Nat) : bigInt (decimal value) = value := by
  have single : ∀ digit < 10, bigInt [digitUnit digit] = digit := by
    intro digit small
    have unit := val_digitUnit small
    simp [bigInt, unit]
  induction value using Nat.strongRecOn with
  | ind value ih =>
    by_cases small : value < 10
    · rw [decimal_of_lt small, single value small]
    · rw [decimal_of_le (by omega), bigInt_append, ih _ (by omega),
        single _ (Nat.mod_lt _ (by decide)), List.length_singleton]
      omega

/-- The text of a big integer is no longer than its bound allows. -/
theorem length_decimal_le {width : Nat} (some_ : 0 < width) (bound : value < 10 ^ width) :
    (decimal value).length ≤ width := by
  induction width generalizing value with
  | zero => omega
  | succ width ih =>
    by_cases small : value < 10
    · rw [decimal_of_lt small, List.length_singleton]
      omega
    · rw [pow_succ] at bound
      have wider : 0 < width := by
        rcases Nat.eq_zero_or_pos width with rfl | positive
        · omega
        · exact positive
      have shorter := @ih (value / 10) wider (by omega)
      rw [decimal_of_le (by omega), List.length_append, List.length_singleton]
      omega

/-- A number's text begins with a zero only if it is zero. -/
def NoLeadingZero (text : JsString) : Prop := text.head? = some 0x30 → text = [0x30]

theorem noLeadingZero_decimal (value : Nat) :
    decimal value ≠ [] ∧ NoLeadingZero (decimal value) := by
  have positive : ∀ value, 0 < value → decimal value ≠ [] ∧ (decimal value).head? ≠ some 0x30 := by
    intro value
    induction value using Nat.strongRecOn with
    | ind value ih =>
      intro some_
      by_cases small : value < 10
      · rw [decimal_of_lt small]
        refine ⟨List.cons_ne_nil _ _, ?_⟩
        have unit := val_digitUnit small
        intro isZero
        rw [List.head?_cons, Option.some.injEq] at isZero
        rw [isZero] at unit
        have zero : ((0x30 : Fin 0x10000)).val = 0x30 := rfl
        omega
      · obtain ⟨nonempty, starts⟩ := ih (value / 10) (by omega) (by omega)
        rw [decimal_of_le (by omega)]
        refine ⟨by simp, ?_⟩
        rwa [List.head?_append_of_ne_nil _ nonempty]
  rcases Nat.eq_zero_or_pos value with rfl | some_
  · rw [decimal_of_lt (by decide)]
    exact ⟨List.cons_ne_nil _ _, fun _ => rfl⟩
  · obtain ⟨nonempty, starts⟩ := positive value some_
    exact ⟨nonempty, fun isZero => absurd isZero starts⟩

/-- Digits without a leading zero are the text of the number they write. -/
theorem decimal_bigInt (some_ : first ≠ []) (digits : Digits first)
    (canonical : NoLeadingZero first) : decimal (bigInt first) = first := by
  induction first using List.reverseRecOn with
  | nil => exact absurd rfl some_
  | append_singleton first last ih =>
    obtain ⟨others, atLast⟩ := digits_append.mp digits
    have bound := isDigit_iff.mp (atLast last (List.mem_singleton_self last))
    have single : bigInt [last] = last.val - 0x30 := by simp [bigInt]
    have unit : digitUnit (last.val - 0x30) = last := by
      apply Fin.ext
      rw [val_digitUnit (by omega)]
      omega
    rw [bigInt_append, single, List.length_singleton, pow_one]
    by_cases alone : first = []
    · subst alone
      have zero : bigInt [] = 0 := rfl
      rw [zero, Nat.zero_mul, Nat.zero_add, decimal_of_lt (by omega), unit]
      rfl
    · have starts : first.head? ≠ some 0x30 := by
        intro isZero
        have whole := canonical (by rwa [List.head?_append_of_ne_nil _ alone])
        have lengths := congrArg List.length whole
        have nonempty := List.length_pos_of_ne_nil alone
        simp only [List.length_append, List.length_singleton] at lengths
        omega
      have front := ih alone others fun isZero => absurd isZero starts
      have some_ : 0 < bigInt first := by
        rcases Nat.eq_zero_or_pos (bigInt first) with isZero | positive
        · rw [isZero, decimal_of_lt (by decide)] at front
          rw [← front] at starts
          exact absurd rfl starts
        · exact positive
      rw [decimal_of_le (by omega)]
      have quotient : (bigInt first * 10 + (last.val - 0x30)) / 10 = bigInt first := by omega
      have remainder : (bigInt first * 10 + (last.val - 0x30)) % 10 = last.val - 0x30 := by omega
      rw [quotient, remainder, front, unit]

end Decimals

end JsText

end Nexora
