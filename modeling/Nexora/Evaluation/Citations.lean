import Nexora.Connector.Quoting
import Nexora.Data.Members
import Nexora.Std.Encoding
import Nexora.Std.Sorting

/-!
# Citations

The identifier an evaluation cites retrieved evidence by names one source and one version:
percent-encoding can be undone, and never writes the sign that stands between the two.
-/

namespace Nexora.Evaluation

open Nexora.Std Nexora.Connector Json

/-- `retrieval_citation_id`; a text with an unpaired surrogate cannot be encoded. -/
def retrievalCitationId (sourceKey sourceVersion : PyStr) : Option PyStr := do
  let key ← (quote sourceKey).toOption
  let version ← (quote sourceVersion).toOption
  pure (py (String.ofList ("rag:".toList ++ key ++ '@' :: version)))

/-- The citations of a run's stored chunks: the sorted set of their identifiers. -/
def runCitations (chunks : List (PyStr × PyStr)) : Option (List PyStr) := do
  let identifiers ← chunks.mapM fun chunk => retrievalCitationId chunk.1 chunk.2
  pure (orderBy id identifiers.dedup)

section Encoding

/-- Bytes are told apart by how they are written, whatever follows them. -/
theorem quoteByte_inj {first second : Nat} (small : first < 256) (other : second < 256)
    {rest others : List Char} (same : quoteByte first ++ rest = quoteByte second ++ others) :
    first = second ∧ rest = others := by
  have digits : ∀ one two : Fin 16,
      (Nat.digitChar one).toUpper = (Nat.digitChar two).toUpper → one = two := by decide +kernel
  have percent : ∀ byte, byte < 0x80 ∧ ((Char.ofNat byte).isAlphanum ∨
      Char.ofNat byte ∈ ['_', '.', '-', '~']) → Char.ofNat byte ≠ '%' := by
    rintro byte ⟨-, kept⟩ isPercent
    rw [isPercent] at kept
    exact absurd kept (by decide)
  unfold quoteByte at same
  dsimp only at same
  split at same <;> split at same
  · rename_i firstKept secondKept
    simp only [List.singleton_append, List.cons.injEq] at same
    have codes := congrArg Char.toNat same.1
    rw [Char.toNat_ofNat, Char.toNat_ofNat, if_pos (.inl (by omega)),
      if_pos (.inl (by omega))] at codes
    exact ⟨codes, same.2⟩
  · rename_i kept notKept
    simp only [List.cons_append, List.nil_append, List.cons.injEq] at same
    exact absurd same.1 (percent first kept)
  · rename_i notKept kept
    simp only [List.cons_append, List.nil_append, List.cons.injEq] at same
    exact absurd same.1.symm (percent second kept)
  · simp only [List.cons_append, List.nil_append, List.cons.injEq, true_and] at same
    obtain ⟨highs, lows, rests⟩ := same
    have high := digits ⟨first / 16, by omega⟩ ⟨second / 16, by omega⟩ highs
    have low := digits ⟨first % 16, by omega⟩ ⟨second % 16, by omega⟩ lows
    simp only [Fin.mk.injEq] at high low
    exact ⟨by omega, rests⟩

theorem quoteByte_ne_nil (byte : Nat) : quoteByte byte ≠ [] := by
  unfold quoteByte
  dsimp only
  split <;> exact List.cons_ne_nil _ _

theorem utf8Bytes_lt {point : Nat} (isPoint : point < 0x110000) :
    ∀ byte ∈ utf8Bytes point, byte < 256 := by
  unfold utf8Bytes
  intro byte member
  split at member
  · simp only [List.mem_singleton] at member
    omega
  · split at member
    · simp only [List.mem_cons, List.not_mem_nil, or_false] at member
      omega
    · split at member
      · simp only [List.mem_cons, List.not_mem_nil, or_false] at member
        omega
      · simp only [List.mem_cons, List.not_mem_nil, or_false] at member
        omega

/-- The first byte of a code point tells how many follow it. -/
theorem utf8Bytes_inj {first second : Nat} (isPoint : first < 0x110000)
    (isOther : second < 0x110000) {rest others : List Nat}
    (same : utf8Bytes first ++ rest = utf8Bytes second ++ others) :
    first = second ∧ rest = others := by
  unfold utf8Bytes at same
  split at same <;> [skip; split at same <;> [skip; split at same]] <;>
    (split at same <;> [skip; split at same <;> [skip; split at same]]) <;>
    simp only [List.cons_append, List.nil_append, List.cons.injEq] at same <;>
    first
      | (exfalso; omega)
      | exact ⟨by omega, by simp_all only⟩

theorem utf8Bytes_ne_nil (point : Nat) : utf8Bytes point ≠ [] := by
  unfold utf8Bytes
  split <;> [skip; split <;> [skip; split]] <;> exact List.cons_ne_nil _ _

/-- Percent-encoding can be undone. -/
theorem quotePoint_inj {first second : PyStr}
    (same : first.flatMap quotePoint = second.flatMap quotePoint) : first = second := by
  have bytes : ∀ text : PyStr, ∀ byte ∈ text.flatMap fun point => utf8Bytes point.val,
      byte < 256 := by
    intro text byte member
    obtain ⟨point, -, written⟩ := List.mem_flatMap.mp member
    exact utf8Bytes_lt point.isLt byte written
  have encoded : ∀ text : PyStr, text.flatMap quotePoint =
      (text.flatMap fun point => utf8Bytes point.val).flatMap quoteByte := by
    intro text
    rw [List.flatMap_assoc]
    rfl
  rw [encoded, encoded] at same
  have sameBytes := flatMap_inj (fun _ _ small other _ _ => quoteByte_inj small other)
    (fun byte _ => quoteByte_ne_nil byte) (bytes first) (bytes second) same
  have points : ∀ one two : Fin 0x110000, True → True → ∀ rest others : List Nat,
      utf8Bytes one.val ++ rest = utf8Bytes two.val ++ others → one = two ∧ rest = others := by
    intro one two _ _ rest others isSame
    obtain ⟨samePoint, sameRest⟩ := utf8Bytes_inj one.isLt two.isLt isSame
    exact ⟨Fin.ext samePoint, sameRest⟩
  exact flatMap_inj points (fun point _ => utf8Bytes_ne_nil point.val) (fun _ _ => trivial)
    (fun _ _ => trivial) sameBytes

end Encoding

theorem retrievalCitationId_eq_some {sourceKey sourceVersion identifier : PyStr} :
    retrievalCitationId sourceKey sourceVersion = some identifier ↔
      sourceKey.any isSurrogate = false ∧ sourceVersion.any isSurrogate = false ∧
        py (String.ofList ("rag:".toList ++ sourceKey.flatMap quotePoint ++
          '@' :: sourceVersion.flatMap quotePoint)) = identifier := by
  have toOption : ∀ (text : PyStr) (quoted : List Char),
      (quote text).toOption = some quoted ↔ quote text = .ok quoted := by
    intro text quoted
    cases quote text <;> simp [Except.toOption]
  simp only [retrievalCitationId, Option.bind_eq_bind, Option.bind_eq_some_iff, Option.pure_def,
    Option.some.injEq, toOption, quote_eq_ok]
  constructor
  · rintro ⟨key, ⟨keyClean, rfl⟩, version, ⟨versionClean, rfl⟩, same⟩
    exact ⟨keyClean, versionClean, same⟩
  · rintro ⟨keyClean, versionClean, same⟩
    exact ⟨_, ⟨keyClean, rfl⟩, _, ⟨versionClean, rfl⟩, same⟩

/-- The separator is no part of what stands before and after it. -/
theorem at_notMem (text : PyStr) : '@' ∉ text.flatMap quotePoint := by
  intro member
  obtain ⟨point, -, inPoint⟩ := List.mem_flatMap.mp member
  obtain ⟨byte, -, inByte⟩ := List.mem_flatMap.mp inPoint
  exact absurd (quoteByte_quoted byte _ inByte) (by decide)

theorem retrievalCitationId_inj {firstKey firstVersion secondKey secondVersion identifier : PyStr}
    (first : retrievalCitationId firstKey firstVersion = some identifier)
    (second : retrievalCitationId secondKey secondVersion = some identifier) :
    firstKey = secondKey ∧ firstVersion = secondVersion := by
  obtain ⟨-, -, isFirst⟩ := retrievalCitationId_eq_some.mp first
  obtain ⟨-, -, isSecond⟩ := retrievalCitationId_eq_some.mp second
  have same := String.ofList_injective (py_injective (isFirst.trans isSecond.symm))
  simp only [List.append_assoc, List.append_cancel_left_eq] at same
  rw [List.append_cons_inj_of_notMem (at_notMem _) (at_notMem _)] at same
  exact ⟨quotePoint_inj same.1, quotePoint_inj same.2.2⟩

/-- What is read from a list is read from one of its items. -/
theorem mem_mapM {α β : Type} {read : α → Option β} {items : List α} {values : List β}
    (isRead : items.mapM read = some values) (value : β) :
    value ∈ values ↔ ∃ item ∈ items, read item = some value := by
  induction items generalizing values with
  | nil =>
    rw [List.mapM_nil, Option.pure_def, Option.some.injEq] at isRead
    simp [← isRead]
  | cons item rest ih =>
    simp only [List.mapM_cons, Option.bind_eq_bind, Option.bind_eq_some_iff, Option.pure_def,
      Option.some.injEq] at isRead
    obtain ⟨first, isFirst, others, areOthers, rfl⟩ := isRead
    rw [List.exists_mem_cons_iff, List.mem_cons, ih areOthers, isFirst,
      Option.some.injEq, eq_comm]

/-- What a run cites is what its stored chunks are identified by. -/
theorem mem_runCitations {chunks : List (PyStr × PyStr)} {citations : List PyStr}
    (cited : runCitations chunks = some citations) (text : PyStr) :
    text ∈ citations ↔ ∃ chunk ∈ chunks, retrievalCitationId chunk.1 chunk.2 = some text := by
  simp only [runCitations, Option.bind_eq_bind, Option.bind_eq_some_iff, Option.pure_def,
    Option.some.injEq] at cited
  obtain ⟨identifiers, isIdentified, rfl⟩ := cited
  rw [mem_orderBy, List.mem_dedup]
  exact mem_mapM isIdentified text

/-- An identifier names one source and one version, and a run cites exactly the sources and
versions of its chunks. -/
theorem citations_name_sources {sourceKey sourceVersion identifier : PyStr}
    (named : retrievalCitationId sourceKey sourceVersion = some identifier) :
    (∀ otherKey otherVersion, retrievalCitationId otherKey otherVersion = some identifier ↔
      otherKey = sourceKey ∧ otherVersion = sourceVersion) ∧
    ∀ chunks citations, runCitations chunks = some citations →
      (identifier ∈ citations ↔ (sourceKey, sourceVersion) ∈ chunks) := by
  have names : ∀ otherKey otherVersion,
      retrievalCitationId otherKey otherVersion = some identifier ↔
        otherKey = sourceKey ∧ otherVersion = sourceVersion := by
    intro otherKey otherVersion
    constructor
    · exact fun other => retrievalCitationId_inj other named
    · rintro ⟨rfl, rfl⟩
      exact named
  refine ⟨names, fun chunks citations cited => ?_⟩
  rw [mem_runCitations cited]
  constructor
  · rintro ⟨⟨key, version⟩, member, found⟩
    obtain ⟨rfl, rfl⟩ := (names key version).mp found
    exact member
  · exact fun member => ⟨_, member, named⟩

theorem citations_name_sources_handbook :
    (∀ otherKey otherVersion,
      retrievalCitationId otherKey otherVersion = some (py "rag:handbook%2Fops@v%201") ↔
        otherKey = py "handbook/ops" ∧ otherVersion = py "v 1") ∧
    ∀ chunks citations, runCitations chunks = some citations →
      (py "rag:handbook%2Fops@v%201" ∈ citations ↔
        (py "handbook/ops", py "v 1") ∈ chunks) :=
  citations_name_sources (by decide)

end Nexora.Evaluation
