import Nexora.Data.JsText

/-!
# Accounting units

How the console reads an amount of accounting units into micros and writes one back: the text of
an amount has one decimal separator and at most six decimals, and no step rounds.
-/

namespace Nexora.Console

open JsText

/-- `MICROS_PER_UNIT`. -/
def microsPerUnit : Nat := 1000000

/-- `MAX_LIMIT_MICROS`. -/
def maxLimitMicros : Nat := 1000000000000000

/-- A decimal separator: a dot or a comma. -/
def IsSeparator (unit : Fin 0x10000) : Prop := unit = 0x2e ∨ unit = 0x2c

instance (unit : Fin 0x10000) : Decidable (IsSeparator unit) :=
  inferInstanceAs (Decidable (unit = 0x2e ∨ unit = 0x2c))

/-- `UNITS.exec(text)`: the two groups of a match. -/
def matchUnits (text : JsString) : Option (JsString × Option JsString) :=
  let whole := text.takeWhile isDigit
  if 1 ≤ whole.length ∧ whole.length ≤ 10 then
    match text.dropWhile isDigit with
    | [] => some (whole, none)
    | separator :: fraction =>
      if IsSeparator separator ∧ fraction.all isDigit ∧ 1 ≤ fraction.length ∧
          fraction.length ≤ 6 then some (whole, some fraction)
      else none
  else none

/-- `unitsToMicros`, with the text of its error. -/
def unitsToMicros (value : JsString) : Except JsString Nat :=
  match matchUnits (trim value) with
  | none => .error (js "Invalid amount")
  | some (whole, fraction) =>
    let total := bigInt whole * microsPerUnit + bigInt ((fraction.getD []).rightpad 6 0x30)
    if maxLimitMicros < total then .error (js "Amount is too large") else .ok (number total)

/-- The fewest digits behind which only zeros follow: what `(\d*?)0*$` keeps. -/
def keepDigits : JsString → Option JsString
  | [] => some []
  | unit :: rest =>
    if (unit :: rest).all (· = 0x30) then some []
    else if isDigit unit then (keepDigits rest).map (unit :: ·)
    else none

/-- What `(\d\d)(\d*?)0*$` keeps of a text it matches from the first unit on. -/
def trimmedAt : JsString → Option JsString
  | first :: second :: rest =>
    if isDigit first && isDigit second then
      (keepDigits rest).map fun kept => first :: second :: kept
    else none
  | _ => none

/-- `fraction.replace(/(\d\d)(\d*?)0*$/, "$1$2")`: the first match counts. -/
def trimZeros : JsString → JsString
  | [] => []
  | unit :: rest =>
    match trimmedAt (unit :: rest) with
    | some trimmed => trimmed
    | none => unit :: trimZeros rest

/-- `microsToUnits`, of an amount that is not negative. -/
def microsToUnits (value : Nat) : JsString :=
  let fraction := (decimal (value % microsPerUnit)).leftpad 6 0x30
  decimal (value / microsPerUnit) ++ 0x2e :: trimZeros fraction

/-- `toLimitInput`: the first dot gives way to the language's separator. -/
def toLimitInput (separator : Fin 0x10000) : JsString → JsString
  | [] => []
  | unit :: rest => if unit = 0x2e then separator :: rest else unit :: toLimitInput separator rest

/-- Digits, and perhaps a separator and further digits, write an amount of units. -/
inductive Writes : JsString → ℚ → Prop where
  | whole {whole : JsString} (some_ : whole ≠ []) (digits : Digits whole) :
      Writes whole (bigInt whole)
  | decimal {whole fraction : JsString} {separator : Fin 0x10000} (some_ : whole ≠ [])
      (digits : Digits whole) (separates : IsSeparator separator) (more : fraction ≠ [])
      (decimals : Digits fraction) :
      Writes (whole ++ separator :: fraction)
        (bigInt whole + bigInt fraction / 10 ^ fraction.length)

/-- The decimals of a canonical text: two at least, six at most, and beyond the second no zero
at the end. -/
structure CanonicalFraction (fraction : JsString) : Prop where
  digits : Digits fraction
  two : 2 ≤ fraction.length
  six : fraction.length ≤ 6
  trimmed : fraction.length = 2 ∨ fraction.getLast? ≠ some 0x30

/-- The canonical text of an amount: no leading zero, a dot and such decimals. -/
inductive Canonical : JsString → Prop where
  | mk {whole fraction : JsString} (some_ : whole ≠ []) (digits : Digits whole)
      (leading : NoLeadingZero whole) (decimals : CanonicalFraction fraction) :
      Canonical (whole ++ 0x2e :: fraction)

variable {zeros : Nat}

section Fractions

variable {fraction : JsString}

/-- Trimming takes the zeros behind the second digit. -/
theorem keepDigits_eq {rest : JsString} (digits : Digits rest) :
    ∃ zeros kept, rest = kept ++ List.replicate zeros 0x30 ∧ keepDigits rest = some kept ∧
      kept.getLast? ≠ some 0x30 := by
  induction rest with
  | nil => exact ⟨0, [], rfl, rfl, by simp⟩
  | cons unit rest ih =>
    obtain ⟨isDigit, restDigits⟩ := List.forall_mem_cons.mp digits
    rw [keepDigits]
    by_cases zeros : (unit :: rest).all (· = 0x30) = true
    · refine ⟨(unit :: rest).length, [], ?_, by rw [if_pos zeros], by simp⟩
      rw [List.nil_append]
      exact List.eq_replicate_of_mem (by simpa using zeros)
    · obtain ⟨count, kept, whole, keeps, ends⟩ := ih restDigits
      refine ⟨count, unit :: kept, by rw [whole, List.cons_append], ?_, ?_⟩
      · rw [if_neg zeros, if_pos isDigit, keeps, Option.map_some]
      · cases kept with
        | nil =>
          intro isZero
          rw [List.getLast?_singleton, Option.some.injEq] at isZero
          refine zeros ?_
          rw [whole, isZero]
          simp
        | cons next kept => rwa [List.getLast?_cons_cons]

theorem trimZeros_eq (digits : Digits fraction) (six : fraction.length = 6) :
    ∃ zeros, fraction = trimZeros fraction ++ List.replicate zeros 0x30 ∧
      CanonicalFraction (trimZeros fraction) := by
  obtain ⟨first, second, rest, rfl⟩ : ∃ first second rest, fraction = first :: second :: rest := by
    cases fraction with
    | nil => cases six
    | cons first rest =>
      cases rest with
      | nil => cases six
      | cons second rest => exact ⟨first, second, rest, rfl⟩
  obtain ⟨atFirst, others⟩ := List.forall_mem_cons.mp digits
  obtain ⟨atSecond, restDigits⟩ := List.forall_mem_cons.mp others
  obtain ⟨zeros, kept, whole, keeps, ends⟩ := keepDigits_eq restDigits
  have trimmed : trimZeros (first :: second :: rest) = first :: second :: kept := by
    rw [trimZeros, trimmedAt, atFirst, atSecond, keeps]
    rfl
  have length := congrArg List.length whole
  simp only [List.length_append, List.length_replicate] at length
  simp only [List.length_cons] at six
  rw [trimmed]
  refine ⟨zeros, by rw [whole, List.cons_append, List.cons_append], ?_, ?_, ?_, ?_⟩
  · intro unit member
    refine digits unit ?_
    rw [whole]
    simp only [List.mem_cons, List.mem_append] at member ⊢
    tauto
  · simp
  · simp only [List.length_cons]
    omega
  · cases kept with
    | nil => exact .inl rfl
    | cons next kept =>
      refine .inr ?_
      rwa [List.getLast?_cons_cons, List.getLast?_cons_cons]

/-- What is left of the zeros is known. -/
theorem canonicalFraction_unique {first second : JsString} {others : Nat}
    (firstCanonical : CanonicalFraction first) (secondCanonical : CanonicalFraction second)
    (same : first ++ List.replicate zeros 0x30 = second ++ List.replicate others 0x30) :
    first = second := by
  -- Of two such texts the longer one would end with a zero.
  have notLonger : ∀ {shorter longer : JsString} {many few : Nat},
      CanonicalFraction shorter → CanonicalFraction longer →
      shorter ++ List.replicate many 0x30 = longer ++ List.replicate few 0x30 →
      ¬ shorter.length < longer.length := by
    intro shorter longer many few short long isSame less
    have rest : List.replicate many 0x30 =
        longer.drop shorter.length ++ List.replicate few 0x30 := by
      have dropped := congrArg (List.drop shorter.length) isSame
      rwa [List.drop_left, List.drop_append_of_le_length less.le] at dropped
    have nonempty : longer.drop shorter.length ≠ [] := by
      intro nothing
      have length := congrArg List.length nothing
      simp only [List.length_drop, List.length_nil] at length
      omega
    have last : (longer.drop shorter.length).getLast nonempty = 0x30 := by
      refine List.eq_of_mem_replicate (n := many) ?_
      rw [rest]
      exact List.mem_append_left _ (List.getLast_mem nonempty)
    rcases long.trimmed with two | ends
    · have enough := short.two
      omega
    · refine ends ?_
      rw [List.getLast_drop] at last
      rw [List.getLast?_eq_some_getLast (List.ne_nil_of_drop_ne_nil nonempty), last]
  have lengths : first.length = second.length := by
    have one := notLonger firstCanonical secondCanonical same
    have other := notLonger secondCanonical firstCanonical same.symm
    omega
  exact (List.append_inj same lengths).1

end Fractions

theorem bigInt_replicate (count : Nat) : bigInt (List.replicate count 0x30) = 0 := by
  induction count with
  | zero => rfl
  | succ count ih =>
    rw [List.replicate_succ', bigInt_append_singleton, ih]
    rfl

theorem digits_replicate (count : Nat) : Digits (List.replicate count 0x30) := by
  intro unit member
  rw [List.eq_of_mem_replicate member]
  rfl

theorem bigInt_rightpad (fraction : JsString) :
    bigInt (fraction.rightpad 6 0x30) = bigInt fraction * 10 ^ (6 - fraction.length) := by
  rw [List.rightpad, bigInt_append, bigInt_replicate, List.length_replicate, Nat.add_zero]

/-- The decimals of an amount before its zeros are taken. -/
theorem leftpad_decimal {rest : Nat} (bound : rest < microsPerUnit) :
    Digits ((decimal rest).leftpad 6 0x30) ∧ ((decimal rest).leftpad 6 0x30).length = 6 ∧
      bigInt ((decimal rest).leftpad 6 0x30) = rest := by
  have short : (decimal rest).length ≤ 6 :=
    length_decimal_le (by decide) (by rw [microsPerUnit] at bound; omega)
  refine ⟨digits_append.mpr ⟨digits_replicate _, digits_decimal rest⟩, ?_, ?_⟩
  · rw [List.leftpad, List.length_append, List.length_replicate]
    omega
  · rw [List.leftpad, bigInt_append, bigInt_replicate, bigInt_decimal]
    omega

/-- The text of an amount: its whole units, and decimals that write the rest. -/
theorem microsToUnits_eq (value : Nat) : ∃ fraction zeros, CanonicalFraction fraction ∧
    microsToUnits value = decimal (value / microsPerUnit) ++ 0x2e :: fraction ∧
      (decimal (value % microsPerUnit)).leftpad 6 0x30 =
        fraction ++ List.replicate zeros 0x30 := by
  have bound : value % microsPerUnit < microsPerUnit := Nat.mod_lt _ (by decide)
  obtain ⟨digits, six, -⟩ := leftpad_decimal bound
  obtain ⟨zeros, whole, canonical⟩ := trimZeros_eq digits six
  exact ⟨_, zeros, canonical, rfl, whole⟩

variable {value : Nat}

/-- The decimals of an amount's text, filled up to six, write its rest. -/
theorem bigInt_decimals {fraction : JsString}
    (padded : (decimal (value % microsPerUnit)).leftpad 6 0x30 =
      fraction ++ List.replicate zeros 0x30) :
    bigInt (fraction.rightpad 6 0x30) = value % microsPerUnit := by
  have bound : value % microsPerUnit < microsPerUnit := Nat.mod_lt _ (by decide)
  obtain ⟨-, six, writes⟩ := leftpad_decimal bound
  rw [padded, List.length_append, List.length_replicate] at six
  have count : zeros = 6 - fraction.length := by omega
  rw [← writes, padded, List.rightpad, count]

section Reading

variable {whole other fraction further text : JsString} {separator mark : Fin 0x10000}

theorem isDigit_separator (separates : IsSeparator separator) : isDigit separator = false := by
  rcases separates with rfl | rfl <;> rfl

/-- A text is split at its first unit that is no digit. -/
theorem takeWhile_units (digits : Digits whole) (separates : IsSeparator separator) :
    (whole ++ separator :: fraction).takeWhile isDigit = whole ∧
      (whole ++ separator :: fraction).dropWhile isDigit = separator :: fraction := by
  have stops : ¬ isDigit separator = true := by simp [isDigit_separator separates]
  constructor
  · rw [List.takeWhile_append_of_pos digits, List.takeWhile_cons_of_neg stops, List.append_nil]
  · rw [List.dropWhile_append_of_pos digits, List.dropWhile_cons_of_neg stops]

theorem matchUnits_eq_some {found : JsString × Option JsString} :
    matchUnits text = some found ↔
      Digits found.1 ∧ 1 ≤ found.1.length ∧ found.1.length ≤ 10 ∧
        (text = found.1 ∧ found.2 = none ∨
          ∃ separator fraction, IsSeparator separator ∧ Digits fraction ∧ 1 ≤ fraction.length ∧
            fraction.length ≤ 6 ∧ text = found.1 ++ separator :: fraction ∧
            found.2 = some fraction) := by
  constructor
  · intro matched
    rw [matchUnits] at matched
    have digits : Digits (text.takeWhile isDigit) := fun unit => List.mem_takeWhile_imp
    have split := @List.takeWhile_append_dropWhile _ isDigit text
    split at matched
    next bounds =>
      cases rest : text.dropWhile isDigit with
      | nil =>
        rw [rest] at matched split
        rw [List.append_nil] at split
        obtain rfl := Option.some.inj matched
        exact ⟨digits, bounds.1, bounds.2, .inl ⟨split.symm, rfl⟩⟩
      | cons separator fraction =>
        rw [rest] at matched split
        dsimp only at matched
        split at matched
        next inside =>
          obtain ⟨separates, decimals, some_, short⟩ := inside
          obtain rfl := Option.some.inj matched
          exact ⟨digits, bounds.1, bounds.2, .inr ⟨separator, fraction, separates,
            List.all_eq_true.mp decimals, some_, short, split.symm, rfl⟩⟩
        next => cases matched
    next => cases matched
  · obtain ⟨whole, option⟩ := found
    rintro ⟨digits, some_, short, ⟨rfl, rfl⟩ |
      ⟨separator, fraction, separates, decimals, more, six, rfl, rfl⟩⟩
    · have all : text.takeWhile isDigit = text := List.takeWhile_eq_self_iff.mpr digits
      have nothing : text.dropWhile isDigit = [] := List.dropWhile_eq_nil_iff.mpr digits
      simp only [matchUnits, all, nothing]
      rw [if_pos ⟨some_, short⟩]
    · obtain ⟨takes, leaves⟩ := @takeWhile_units whole fraction separator digits separates
      simp only [matchUnits, takes, leaves]
      rw [if_pos ⟨some_, short⟩, if_pos ⟨separates, List.all_eq_true.mpr decimals, more, six⟩]

/-- An amount is accepted with its micros. -/
theorem unitsToMicros_eq_ok {value : JsString} {micros : Nat} :
    unitsToMicros value = .ok micros ↔
      ∃ whole fraction, matchUnits (trim value) = some (whole, fraction) ∧
        micros = bigInt whole * microsPerUnit + bigInt ((fraction.getD []).rightpad 6 0x30) ∧
        micros ≤ maxLimitMicros := by
  have exact : ∀ total, total ≤ maxLimitMicros → number total = total := by
    intro total bound
    refine number_eq ?_
    rw [maxLimitMicros] at bound
    omega
  rw [unitsToMicros]
  constructor
  · intro accepted
    split at accepted
    · cases accepted
    next whole fraction found =>
      dsimp only at accepted
      split at accepted
      · cases accepted
      next bound =>
        have small := Nat.le_of_not_lt bound
        rw [exact _ small, Except.ok.injEq] at accepted
        exact ⟨whole, fraction, found, accepted.symm, by omega⟩
  · rintro ⟨whole, fraction, found, rfl, bound⟩
    rw [found]
    dsimp only
    rw [if_neg (Nat.not_lt.mpr bound), exact _ bound]

/-- The amount a text writes is one. -/
theorem Writes.unique {first second : ℚ} (one : Writes text first) (two : Writes text second) :
    first = second := by
  -- A text that ends with its whole units has no separator.
  have never : ∀ {digits whole fraction : JsString} {separator : Fin 0x10000}, Digits digits →
      IsSeparator separator → digits = whole ++ separator :: fraction → False := by
    intro digits whole fraction separator isDigits separates same
    have atSeparator := isDigits separator (by simp [same])
    rw [isDigit_separator separates] at atSeparator
    cases atSeparator
  generalize same : text = again at two
  cases one with
  | whole some_ digits =>
    cases two with
    | whole => rw [same]
    | decimal _ _ separates => exact absurd same (never digits separates)
  | decimal some_ digits separates more decimals =>
    cases two with
    | whole _ otherDigits => exact absurd same.symm (never otherDigits separates)
    | decimal _ otherDigits otherSeparates =>
      have takes := congrArg (List.takeWhile isDigit) same
      have leaves := congrArg (List.dropWhile isDigit) same
      rw [(takeWhile_units digits separates).1, (takeWhile_units otherDigits otherSeparates).1]
        at takes
      rw [(takeWhile_units digits separates).2, (takeWhile_units otherDigits otherSeparates).2,
        List.cons.injEq] at leaves
      rw [takes, leaves.2]

/-- The micros of whole units and at most six decimals. -/
theorem cast_micros (whole fraction : JsString) (short : fraction.length ≤ 6) :
    ((bigInt whole * microsPerUnit + bigInt (fraction.rightpad 6 0x30) : Nat) : ℚ) =
      (bigInt whole + bigInt fraction / 10 ^ fraction.length) * microsPerUnit := by
  obtain ⟨rest, six⟩ := Nat.exists_eq_add_of_le short
  have left : 6 - fraction.length = rest := by omega
  have power : (microsPerUnit : ℚ) = 10 ^ fraction.length * 10 ^ rest := by
    rw [← pow_add, ← six, microsPerUnit]
    norm_num
  rw [bigInt_rightpad, left]
  push_cast
  rw [power]
  field_simp

end Reading

/-- An amount's text is read back, whichever separator stands in it. -/
theorem unitsToMicros_digits {fraction : JsString} {separator : Fin 0x10000}
    (bound : value ≤ maxLimitMicros) (separates : IsSeparator separator)
    (canonical : CanonicalFraction fraction)
    (padded : (decimal (value % microsPerUnit)).leftpad 6 0x30 =
      fraction ++ List.replicate zeros 0x30) :
    unitsToMicros (decimal (value / microsPerUnit) ++ separator :: fraction) = .ok value := by
  have visible : ∀ unit ∈ decimal (value / microsPerUnit) ++ separator :: fraction,
      isSpace unit = false := by
    have ofDigit : ∀ unit, isDigit unit = true → isSpace unit = false := by
      intro unit digit
      have inside := isDigit_iff.mp digit
      simp only [isSpace, Bool.or_eq_false_iff, Bool.and_eq_false_iff, decide_eq_false_iff_not,
        Fin.le_def, Fin.ext_iff]
      norm_num
      omega
    intro unit member
    rcases List.mem_append.mp member with inWhole | inRest
    · exact ofDigit unit (digits_decimal _ unit inWhole)
    · rcases List.mem_cons.mp inRest with rfl | inFraction
      · rcases separates with rfl | rfl <;> rfl
      · exact ofDigit unit (canonical.digits unit inFraction)
  have trimmed : trim (decimal (value / microsPerUnit) ++ separator :: fraction) =
      decimal (value / microsPerUnit) ++ separator :: fraction :=
    trim_spaced (by simp) visible ⟨[], [], by simp [Blank], by simp [Blank], by simp⟩
  have short : (decimal (value / microsPerUnit)).length ≤ 10 := by
    refine length_decimal_le (by decide) ?_
    rw [maxLimitMicros] at bound
    rw [microsPerUnit]
    omega
  have two := canonical.two
  rw [unitsToMicros_eq_ok, trimmed]
  refine ⟨decimal (value / microsPerUnit), some fraction, matchUnits_eq_some.mpr
    ⟨digits_decimal _, List.length_pos_of_ne_nil (noLeadingZero_decimal _).1, short,
      .inr ⟨separator, fraction, separates, canonical.digits, by omega, canonical.six, rfl, rfl⟩⟩,
    ?_, bound⟩
  rw [Option.getD_some, bigInt_decimals padded, bigInt_decimal, microsPerUnit]
  omega

theorem toLimitInput_digits {whole fraction : JsString} {separator : Fin 0x10000}
    (digits : Digits whole) :
    toLimitInput separator (whole ++ 0x2e :: fraction) = whole ++ separator :: fraction := by
  induction whole with
  | nil => rw [List.nil_append, toLimitInput, if_pos rfl, List.nil_append]
  | cons unit whole ih =>
    obtain ⟨isDigit, digits⟩ := List.forall_mem_cons.mp digits
    have other : unit ≠ 0x2e := by
      rintro rfl
      cases isDigit
    rw [List.cons_append, toLimitInput, if_neg other, ih digits,
      List.cons_append]

/-- What an accepted text writes, in micros. -/
theorem unitsToMicros_writes {text : JsString} (accepted : unitsToMicros text = .ok value) :
    ∃ amount, Writes (trim text) amount ∧ (value : ℚ) = amount * microsPerUnit := by
  obtain ⟨whole, found, matched, isMicros, -⟩ := unitsToMicros_eq_ok.mp accepted
  obtain ⟨digits, some_, -, form⟩ := matchUnits_eq_some.mp matched
  have nonempty : whole ≠ [] := List.ne_nil_of_length_pos some_
  rcases form with ⟨same, isNone⟩ |
    ⟨separator, fraction, separates, decimals, more, short, same, isSome⟩
  · dsimp only at same isNone
    rw [same]
    refine ⟨bigInt whole, .whole nonempty digits, ?_⟩
    have filled := cast_micros whole [] (Nat.zero_le _)
    rw [isNone, Option.getD_none] at isMicros
    rw [isMicros, filled]
    simp [bigInt]
  · dsimp only at same isSome
    rw [same]
    refine ⟨_, .decimal nonempty digits separates (List.ne_nil_of_length_pos more) decimals, ?_⟩
    rw [isSome, Option.getD_some] at isMicros
    rw [isMicros, cast_micros whole fraction short]

/-- A canonical text of an amount is the one the console writes. -/
theorem canonical_unique {text : JsString} {amount : ℚ} (canonical : Canonical text)
    (writes : Writes text amount) (micros : (value : ℚ) = amount * microsPerUnit) :
    text = microsToUnits value := by
  obtain @⟨whole, fraction, some_, digits, leading, decimals⟩ := canonical
  have two := decimals.two
  have form := Writes.decimal some_ digits (.inl rfl) (List.ne_nil_of_length_pos (by omega))
    decimals.digits
  rw [writes.unique form, ← cast_micros whole fraction decimals.six, Nat.cast_inj] at micros
  have small : bigInt (fraction.rightpad 6 0x30) < microsPerUnit := by
    have length : (fraction.rightpad 6 0x30).length = 6 := by
      have six := decimals.six
      rw [List.rightpad, List.length_append, List.length_replicate]
      omega
    have below := @bigInt_lt (fraction.rightpad 6 0x30)
      (digits_append.mpr ⟨decimals.digits, digits_replicate _⟩)
    rwa [length] at below
  have quotient : value / microsPerUnit = bigInt whole := by
    rw [micros, Nat.mul_comm, Nat.mul_add_div (by decide), Nat.div_eq_of_lt small, Nat.add_zero]
  have remainder : value % microsPerUnit = bigInt (fraction.rightpad 6 0x30) := by
    rw [micros, Nat.mul_add_mod', Nat.mod_eq_of_lt small]
  obtain ⟨written, zeros, isCanonical, same, padded⟩ := microsToUnits_eq value
  -- Both texts have the same six digits behind the dot.
  have filled : (decimal (value % microsPerUnit)).leftpad 6 0x30 = fraction.rightpad 6 0x30 := by
    obtain ⟨isDigits, six, writesRest⟩ := leftpad_decimal (Nat.mod_lt value (by decide))
    refine bigInt_inj isDigits (digits_append.mpr ⟨decimals.digits, digits_replicate _⟩) ?_ ?_
    · have short := decimals.six
      rw [six, List.rightpad, List.length_append, List.length_replicate]
      omega
    · rw [writesRest, remainder]
  rw [padded] at filled
  rw [same, canonicalFraction_unique isCanonical decimals filled, quotient,
    decimal_bigInt some_ digits leading]

/-- Amounts are converted exactly: an amount in micros is read back from its text, also as the
limit field shows it, and the text of an accepted amount is the only canonical one of its
value. -/
theorem units_exact :
    (∀ value ≤ maxLimitMicros, unitsToMicros (microsToUnits value) = .ok value) ∧
      (∀ text value, unitsToMicros text = .ok value → ∃ amount, Writes (trim text) amount ∧
        Canonical (microsToUnits value) ∧ Writes (microsToUnits value) amount ∧
          ∀ other, Canonical other → Writes other amount → other = microsToUnits value) ∧
      ∀ value ≤ maxLimitMicros, ∀ separator, IsSeparator separator →
        unitsToMicros (toLimitInput separator (microsToUnits value)) = .ok value := by
  refine ⟨?_, ?_, ?_⟩
  · intro value bound
    obtain ⟨fraction, zeros, canonical, same, padded⟩ := microsToUnits_eq value
    rw [same]
    exact unitsToMicros_digits bound (.inl rfl) canonical padded
  · intro text value accepted
    obtain ⟨amount, writes, micros⟩ := unitsToMicros_writes accepted
    obtain ⟨fraction, zeros, canonical, same, padded⟩ := microsToUnits_eq value
    obtain ⟨some_, leading⟩ := noLeadingZero_decimal (value / microsPerUnit)
    have two := canonical.two
    have isAmount : amount = bigInt (decimal (value / microsPerUnit)) +
        bigInt fraction / 10 ^ fraction.length := by
      have units : (microsPerUnit : ℚ) ≠ 0 := by
        rw [microsPerUnit]
        norm_num
      refine mul_right_cancel₀ units ?_
      rw [← micros, ← cast_micros _ _ canonical.six, bigInt_decimal, bigInt_decimals padded,
        Nat.cast_inj, microsPerUnit]
      omega
    refine ⟨amount, writes, ?_, ?_, ?_⟩
    · rw [same]
      exact .mk some_ (digits_decimal _) leading canonical
    · rw [same, isAmount]
      exact .decimal some_ (digits_decimal _) (.inl rfl) (List.ne_nil_of_length_pos (by omega))
        canonical.digits
    · intro other isCanonical otherWrites
      exact canonical_unique isCanonical otherWrites micros
  · intro value bound separator separates
    obtain ⟨fraction, zeros, canonical, same, padded⟩ := microsToUnits_eq value
    rw [same, toLimitInput_digits (digits_decimal _)]
    exact unitsToMicros_digits bound separates canonical padded

example : unitsToMicros (js " 02,5 ") = .ok 2500000 ∧ microsToUnits 2500000 = js "2.50" := by
  decide +kernel

end Nexora.Console
