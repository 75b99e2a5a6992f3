import Nexora.Data.Failure

/-!
# The text of an identifier

An identifier of 128 bits has a text of 36 characters, and no two have the same one. So a
text that begins with an identifier's is an identifier's in one way only.
-/

namespace Nexora

/-- What a hexadecimal digit stands for. -/
def hexValue (digit : Char) : Nat :=
  if digit.toNat < 58 then digit.toNat - 48 else digit.toNat - 87

/-- The number hexadecimal digits write, after another one. -/
def ofHex (digits : List Char) (prior : Nat) : Nat :=
  digits.foldl (fun value digit => 16 * value + hexValue digit) prior

theorem hexValue_digitChar {digit : Nat} (small : digit < 16) :
    hexValue digit.digitChar = digit := by
  interval_cases digit <;> rfl

theorem ofHex_append (first second : List Char) (prior : Nat) :
    ofHex (first ++ second) prior = ofHex second (ofHex first prior) := by
  simp [ofHex]

theorem ofHex_zeros (count : Nat) : ofHex (List.replicate count '0') 0 = 0 := by
  induction count with
  | zero => rfl
  | succ count ih =>
    rw [List.replicate_succ, ofHex, List.foldl_cons]
    exact ih

/-- The hexadecimal digits of a number write it. -/
theorem ofHex_toDigits (number : Nat) : ofHex (Nat.toDigits 16 number) 0 = number := by
  induction number using Nat.strong_induction_on with
  | _ number ih =>
    rw [Nat.toDigits_eq_if (by decide)]
    split
    case isTrue small => simp [ofHex, hexValue_digitChar small]
    case isFalse large =>
      rw [ofHex_append, ih (number / 16) (by omega)]
      simp only [ofHex, List.foldl_cons, List.foldl_nil,
        hexValue_digitChar (Nat.mod_lt number (by decide))]
      omega

/-- The 32 hexadecimal digits of an identifier. -/
def Uuid.digits (id : Uuid) : List Char :=
  List.replicate (32 - (Nat.toDigits 16 id).length) '0' ++ Nat.toDigits 16 id

theorem Uuid.length_digits {id : Uuid} (bounded : id < 2 ^ 128) : (Uuid.digits id).length = 32 := by
  have few : (Nat.toDigits 16 id).length ≤ 32 :=
    (Nat.length_toDigits_le_iff (by decide) (by decide)).mpr (by norm_num at bounded ⊢; exact bounded)
  simp only [Uuid.digits, List.length_append, List.length_replicate]
  omega

theorem Uuid.ofHex_digits (id : Uuid) : ofHex (Uuid.digits id) 0 = id := by
  rw [Uuid.digits, ofHex_append, ofHex_zeros, ofHex_toDigits]

/-- The digits of an identifier's text in their groups. -/
theorem Uuid.toList_text (id : Uuid) : (Uuid.text id).toList =
    (Uuid.digits id).take 8 ++ '-' :: (((Uuid.digits id).drop 8).take 4 ++
      '-' :: (((Uuid.digits id).drop 12).take 4 ++ '-' :: (((Uuid.digits id).drop 16).take 4 ++
        '-' :: ((Uuid.digits id).drop 20).take 12))) := by
  simp [Uuid.text, Uuid.digits, List.append_assoc]

theorem Uuid.length_text {id : Uuid} (bounded : id < 2 ^ 128) :
    (Uuid.text id).toList.length = 36 := by
  have digits := Uuid.length_digits bounded
  simp only [Uuid.toList_text, List.length_append, List.length_cons, List.length_take,
    List.length_drop]
  omega

/-- A text of 32 digits in groups of 8, 4, 4, 4 and 12 is the text of one list of digits. -/
theorem groups_injective {first second : List Char} (firstLength : first.length = 32)
    (secondLength : second.length = 32)
    (same : first.take 8 ++ '-' :: ((first.drop 8).take 4 ++ '-' :: ((first.drop 12).take 4 ++
        '-' :: ((first.drop 16).take 4 ++ '-' :: (first.drop 20).take 12))) =
      second.take 8 ++ '-' :: ((second.drop 8).take 4 ++ '-' :: ((second.drop 12).take 4 ++
        '-' :: ((second.drop 16).take 4 ++ '-' :: (second.drop 20).take 12)))) :
    first = second := by
  obtain ⟨one, same⟩ := List.append_inj same (by simp [firstLength, secondLength])
  obtain ⟨two, same⟩ := List.append_inj (List.cons.inj same).2
    (by simp [firstLength, secondLength])
  obtain ⟨three, same⟩ := List.append_inj (List.cons.inj same).2
    (by simp [firstLength, secondLength])
  obtain ⟨four, same⟩ := List.append_inj (List.cons.inj same).2
    (by simp [firstLength, secondLength])
  have five := (List.cons.inj same).2
  rw [List.take_of_length_le (by simp [firstLength]),
    List.take_of_length_le (by simp [secondLength])] at five
  have regroup : ∀ digits : List Char, digits = digits.take 8 ++ ((digits.drop 8).take 4 ++
      ((digits.drop 12).take 4 ++ ((digits.drop 16).take 4 ++ digits.drop 20))) := by
    intro digits
    conv_lhs => rw [← List.take_append_drop 8 digits, ← List.take_append_drop 4 (digits.drop 8),
      List.drop_drop, ← List.take_append_drop 4 (digits.drop 12), List.drop_drop,
      ← List.take_append_drop 4 (digits.drop 16), List.drop_drop]
  rw [regroup first, regroup second, one, two, three, four, five]

/-- No two identifiers have the same text. -/
theorem Uuid.text_injective {first second : Uuid} (firstBounded : first < 2 ^ 128)
    (secondBounded : second < 2 ^ 128) (same : Uuid.text first = Uuid.text second) :
    first = second := by
  have texts := congrArg String.toList same
  rw [Uuid.toList_text, Uuid.toList_text] at texts
  have digits := groups_injective (Uuid.length_digits firstBounded)
    (Uuid.length_digits secondBounded) texts
  rw [← Uuid.ofHex_digits first, digits, Uuid.ofHex_digits]

end Nexora
