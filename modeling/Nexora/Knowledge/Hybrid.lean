import Nexora.Std.Reciprocals
import Nexora.Knowledge.Visibility

/-!
# Hybrid retrieval

The hybrid query beside the vector query. Both take the nearest passages from one order by
distance, the hybrid one more of them, and a ranking that matches nothing contributes nothing.
-/

namespace Nexora.Knowledge

open Nexora.Std Nexora.Workspace

/-- Rows that are in order are ordered as they come. -/
theorem orderBy_eq_self {α κ : Type} [LinearOrder κ] {key : α → κ} {rows : List α}
    (sorted : rows.Pairwise fun left right => key left ≤ key right) : orderBy key rows = rows :=
  List.Pairwise.insertionSort_eq sorted

namespace Engine

variable {Distance Rank : Type} [LinearOrder Distance] [LinearOrder Rank]
  (engine : Engine Distance Rank)

/-- An index scan in strict order yields rows once, the nearest first. -/
def ScansInOrder : Prop :=
  ∀ (Row : Type) (efSearch : Nat) (key : Row → Distance) (rows : List Row),
    (engine.hnswScan efSearch key rows).Subperm rows ∧
      (engine.hnswScan efSearch key rows).Pairwise fun left right => key left ≤ key right

/-- A numeric quotient keeps sixteen digits after the point. -/
def DividesExactly : Prop :=
  ∀ number : Nat, 0 < number → |engine.reciprocal number - 1 / number| ≤ 1 / 10 ^ 16

end Engine

/-- The number a ranking divides by for a passage, when it ranks the passage. -/
def divisor (ranked : List Passage) (passage : Passage) : Option Nat :=
  (rowNumber ranked passage).map fun rank => hybridRrfK + rank

/-- The sum of `1 / (60 + rank)` over the rankings that contain a passage. -/
def reciprocalRanks (vectorRanked lexicalRanked : List Passage) (passage : Passage) : ℚ :=
  share (divisor vectorRanked passage) + share (divisor lexicalRanked passage)

theorem divisor_within {ranked : List Passage} (few : ranked.length ≤ hybridMaxCandidates)
    (passage : Passage) : Within (hybridRrfK + hybridMaxCandidates) (divisor ranked passage) := by
  intro value isDivisor
  obtain ⟨rank, isRank, rfl⟩ := Option.map_eq_some_iff.mp isDivisor
  unfold rowNumber at isRank
  split at isRank
  case isTrue member =>
    obtain rfl := Option.some.inj isRank
    have inside := List.idxOf_lt_length_iff.mpr member
    have some_ : 0 < hybridRrfK := by decide
    omega
  case isFalse => cases isRank

section Ranking

variable {Distance Rank : Type} [LinearOrder Distance] [LinearOrder Rank]
  (engine : Engine Distance Rank) (query : Query)

omit [LinearOrder Distance] [LinearOrder Rank] in
theorem contribution_eq (ranked : List Passage) (passage : Passage) :
    contribution engine ranked passage = rounded engine.reciprocal (divisor ranked passage) := by
  unfold contribution divisor
  cases rowNumber ranked passage <;> rfl

/-- The passages in the order the candidate queries read them. -/
def nearest (rows : List Passage) : List Passage :=
  match query.efSearch with
  | none => orderBy (vectorDistance engine query) rows
  | some efSearch => engine.hnswScan efSearch (vectorDistance engine query) rows

omit [LinearOrder Rank] in
theorem vectorPool_eq (limit : Nat) (rows : List Passage) :
    vectorPool engine query limit rows = (nearest engine query rows).take limit := by
  unfold vectorPool nearest
  cases query.efSearch <;> rfl

variable {engine query}

omit [LinearOrder Distance] [LinearOrder Rank] in
/-- A fused score is in the order of the reciprocal ranks. -/
theorem fusedScore_lt (divides : engine.DividesExactly) {vectorRanked lexicalRanked : List Passage}
    (fewVectors : vectorRanked.length ≤ hybridMaxCandidates)
    (fewLexical : lexicalRanked.length ≤ hybridMaxCandidates) {first second : Passage}
    (less : reciprocalRanks vectorRanked lexicalRanked first <
      reciprocalRanks vectorRanked lexicalRanked second) :
    fusedScore engine vectorRanked lexicalRanked first <
      fusedScore engine vectorRanked lexicalRanked second := by
  simp only [fusedScore, contribution_eq]
  refine rounded_lt (by norm_num) divides (by decide) ?_ (divisor_within fewVectors first)
    (divisor_within fewLexical first) (divisor_within fewVectors second)
    (divisor_within fewLexical second) less
  norm_num [hybridRrfK, hybridMaxCandidates]

/-- The next rank counts for less. -/
theorem reciprocalRanks_lt {ranked : List Passage} (once : ranked.Nodup) :
    ranked.Pairwise fun first second =>
      reciprocalRanks ranked [] second < reciprocalRanks ranked [] first := by
  have atIndex : ∀ index, (inside : index < ranked.length) →
      reciprocalRanks ranked [] ranked[index] = 1 / ((hybridRrfK + (index + 1) : Nat) : ℚ) := by
    intro index inside
    have ranks : rowNumber ranked ranked[index] = some (index + 1) := by
      rw [rowNumber, if_pos (List.getElem_mem inside), once.idxOf_getElem index inside]
    rw [reciprocalRanks, divisor, ranks]
    simp [divisor, rowNumber, share]
  rw [List.pairwise_iff_getElem]
  intro index later indexInside laterInside before
  rw [atIndex index indexInside, atIndex later laterInside]
  refine one_div_lt_one_div_of_lt ?_ ?_
  · exact_mod_cast Nat.add_pos_left (by decide) _
  · exact_mod_cast (by omega : hybridRrfK + (index + 1) < hybridRrfK + (later + 1))

section Nearest

variable {rows : List Passage}

omit [LinearOrder Rank] in
/-- The candidate queries read each passage once, the nearest first. -/
theorem nearest_inOrder (scans : engine.ScansInOrder) :
    (nearest engine query rows).Subperm rows ∧ (nearest engine query rows).Pairwise
      fun left right => vectorDistance engine query left ≤ vectorDistance engine query right := by
  unfold nearest
  split
  · exact ⟨(orderBy_perm _ rows).subperm, orderBy_sorted _ rows⟩
  · exact scans _ _ _ rows

omit [LinearOrder Rank] in
theorem nearest_rising (scans : engine.ScansInOrder) (once : rows.Nodup)
    (distinct : Distinguishes (vectorDistance engine query) rows) :
    (nearest engine query rows).Nodup ∧ (nearest engine query rows).Pairwise
      fun left right => vectorDistance engine query left < vectorDistance engine query right := by
  obtain ⟨fewer, inOrder⟩ := @nearest_inOrder _ _ _ engine query rows scans
  have nodup : (nearest engine query rows).Nodup := by
    obtain ⟨listed, same, sublist⟩ := fewer
    exact same.nodup_iff.mp (once.sublist sublist)
  refine ⟨nodup, ?_⟩
  have both := inOrder.and nodup
  refine both.imp_of_mem ?_
  intro left right leftMember rightMember ⟨below, apart⟩
  refine lt_of_le_of_ne below fun same => apart ?_
  exact distinct left (fewer.subset leftMember) right (fewer.subset rightMember) same

omit [LinearOrder Rank] in
/-- Passages in the order of their distances are in that order already. -/
theorem byDistance_eq_self {passages : List Passage} (rising : passages.Pairwise fun left right =>
      vectorDistance engine query left < vectorDistance engine query right) :
    byDistance engine query passages = passages := by
  refine orderBy_eq_self (rising.imp ?_)
  intro left right below
  exact Prod.Lex.toLex_le_toLex.mpr (.inl below)

/-- No visible passage matches the query's text, or the text has no lexeme. -/
def MatchesNothing (engine : Engine Distance Rank) (query : Query) (rows : List Passage) : Prop :=
  engine.isEmptyQuery query.lexicalQuery = true ∨
    ∀ passage ∈ rows, engine.matchesQuery passage.chunk.content query.lexicalQuery = false

omit [LinearOrder Distance] in
theorem lexicalPool_eq_nil (nothing : MatchesNothing engine query rows) (limit : Nat) :
    lexicalPool engine query limit rows = [] := by
  have none : (rows.filter fun passage => !engine.isEmptyQuery query.lexicalQuery &&
      engine.matchesQuery passage.chunk.content query.lexicalQuery) = [] := by
    rw [List.filter_eq_nil_iff]
    intro passage member
    rcases nothing with empty | unmatched
    · simp [empty]
    · simp [unmatched passage member]
  rw [lexicalPool, none]
  exact List.take_nil

theorem le_candidateLimit {limit : Nat} (small : limit ≤ 50) : limit ≤ candidateLimit limit := by
  unfold candidateLimit
  have most : hybridMaxCandidates = 200 := rfl
  omega

theorem candidateLimit_le (limit : Nat) : candidateLimit limit ≤ hybridMaxCandidates :=
  Nat.min_le_left _ _

/-- A hybrid query that matches nothing returns the nearest passages. -/
theorem hybrid_eq_nearest (scans : engine.ScansInOrder) (divides : engine.DividesExactly)
    (once : rows.Nodup) (distinct : Distinguishes (vectorDistance engine query) rows)
    (nothing : MatchesNothing engine query rows) (small : query.limit ≤ 50) :
    ∃ score : Passage → PyFloat, hybrid engine query rows =
      ((nearest engine query rows).take query.limit).map fun passage =>
        passage.retrieved (score passage) := by
  obtain ⟨nodup, rising⟩ := nearest_rising scans once distinct
  have pool : byDistance engine query (vectorPool engine query (candidateLimit query.limit) rows) =
      (nearest engine query rows).take (candidateLimit query.limit) := by
    rw [vectorPool_eq]
    exact byDistance_eq_self (rising.sublist (List.take_sublist _ _))
  have few : ((nearest engine query rows).take (candidateLimit query.limit)).length ≤
      hybridMaxCandidates := (List.length_take_le _ _).trans (candidateLimit_le _)
  have ranked : orderBy (fun passage => toLex (OrderDual.toDual (fusedScore engine
      ((nearest engine query rows).take (candidateLimit query.limit)) [] passage), passage.place))
      ((nearest engine query rows).take (candidateLimit query.limit)) =
        (nearest engine query rows).take (candidateLimit query.limit) := by
    refine orderBy_eq_self ((reciprocalRanks_lt (nodup.sublist (List.take_sublist _ _))).imp ?_)
    intro first second less
    exact Prod.Lex.toLex_le_toLex.mpr (.inl (fusedScore_lt divides few (by simp) less))
  refine ⟨fun passage => engine.double (fusedScore engine
    ((nearest engine query rows).take (candidateLimit query.limit)) [] passage), ?_⟩
  simp only [hybrid, pool, lexicalPool_eq_nil nothing, List.filter_nil, List.append_nil]
  rw [ranked, List.take_take, Nat.min_eq_left (le_candidateLimit small)]

omit [LinearOrder Rank] in
/-- A vector query returns the nearest passages. -/
theorem vectorOnly_eq_nearest (scans : engine.ScansInOrder) (once : rows.Nodup)
    (distinct : Distinguishes (vectorDistance engine query) rows) :
    ∃ score : Passage → PyFloat, vectorOnly engine query rows =
      ((nearest engine query rows).take query.limit).map fun passage =>
        passage.retrieved (score passage) := by
  obtain ⟨-, rising⟩ := nearest_rising scans once distinct
  refine ⟨fun passage => engine.similarity (vectorDistance engine query passage), ?_⟩
  rw [vectorOnly, vectorPool_eq, byDistance_eq_self (rising.sublist (List.take_sublist _ _))]

/-- Chunks of the two pools, the greatest sums of reciprocal ranks first. -/
def RankedByPools (engine : Engine Distance Rank) (query : Query) (rows : List Passage)
    (chunks : List RetrievedChunk) : Prop :=
  ∃ (passages : List Passage) (score : Passage → PyFloat),
    chunks = passages.map (fun passage => passage.retrieved (score passage)) ∧
    (∀ passage ∈ passages,
      passage ∈ vectorPool engine query (candidateLimit query.limit) rows ∨
        passage ∈ lexicalPool engine query (candidateLimit query.limit) rows) ∧
    passages.Pairwise fun first second =>
      reciprocalRanks
          (byDistance engine query (vectorPool engine query (candidateLimit query.limit) rows))
          (lexicalPool engine query (candidateLimit query.limit) rows) second ≤
        reciprocalRanks
          (byDistance engine query (vectorPool engine query (candidateLimit query.limit) rows))
          (lexicalPool engine query (candidateLimit query.limit) rows) first

/-- What a hybrid query returns is ranked by its pools. -/
theorem hybrid_ranked (divides : engine.DividesExactly) (rows : List Passage) :
    RankedByPools engine query rows (hybrid engine query rows) := by
  have fewVectors : (byDistance engine query
      (vectorPool engine query (candidateLimit query.limit) rows)).length ≤
      hybridMaxCandidates := by
    rw [byDistance, (orderBy_perm _ _).length_eq, vectorPool_eq]
    exact (List.length_take_le _ _).trans (candidateLimit_le _)
  have fewLexical : (lexicalPool engine query (candidateLimit query.limit) rows).length ≤
      hybridMaxCandidates := (List.length_take_le _ _).trans (candidateLimit_le _)
  refine ⟨_, _, rfl, ?_, ?_⟩
  · intro passage member
    have fused := (mem_orderBy _).mp (List.mem_of_mem_take member)
    rcases List.mem_append.mp fused with vector | lexical
    · exact .inl ((mem_orderBy _).mp vector)
    · exact .inr (List.mem_of_mem_filter lexical)
  · refine ((orderBy_sorted _ _).sublist (List.take_sublist _ _)).imp ?_
    intro first second inOrder
    by_contra less
    have scores := fusedScore_lt divides fewVectors fewLexical (not_le.mp less)
    rcases Prod.Lex.toLex_le_toLex.mp inOrder with above | ⟨same, -⟩
    · exact lt_asymm scores above
    · exact scores.ne (congrArg OrderDual.ofDual same)

end Nearest

end Ranking

/-- A chunk without its score. -/
def RetrievedChunk.unscored (chunk : RetrievedChunk) : RetrievedChunk :=
  { chunk with score := .nan }

/-- The arguments of the vector query alone. -/
def RetrieveArguments.withoutText (arguments : RetrieveArguments) : RetrieveArguments :=
  { arguments with queryText := none }

/-- The vector query alone. -/
def Query.withoutText (query : Query) : Query := { query with lexicalQuery := [] }

variable {arguments : RetrieveArguments}

theorem RetrieveArguments.check_withoutText
    (short : arguments.lexicalQuery.length ≤ hybridQueryMaxChars) :
    arguments.withoutText.check = arguments.check.map Query.withoutText := by
  have noText : ¬ hybridQueryMaxChars < arguments.withoutText.lexicalQuery.length := by
    simp [withoutText, lexicalQuery]
  have ann : arguments.withoutText.checkAnn = arguments.checkAnn := rfl
  have raises : ∀ raised, (raiseIf (hybridQueryMaxChars < arguments.lexicalQuery.length) raised :
      Except Raised PUnit) = .ok ⟨⟩ := fun raised => (raiseIf_eq_ok _ _ _).mpr (by omega)
  have spares : ∀ raised, (raiseIf (hybridQueryMaxChars < arguments.withoutText.lexicalQuery.length)
      raised : Except Raised PUnit) = .ok ⟨⟩ := fun raised => (raiseIf_eq_ok _ _ _).mpr noText
  unfold RetrieveArguments.check
  have limit : arguments.withoutText.limit = arguments.limit := rfl
  have model : arguments.withoutText.embeddingModel = arguments.embeddingModel := rfl
  have embedding : arguments.withoutText.queryEmbedding = arguments.queryEmbedding := rfl
  rw [raises, spares]
  simp only [ann, limit, model, embedding]
  -- The other checks are the same ones.
  cases raiseIf (¬ (1 ≤ arguments.limit ∧ arguments.limit ≤ 50))
    (Raised.value "limit must be between 1 and 50") with
  | error raised => rfl
  | ok _ => 
    cases raiseIf (¬ (1 ≤ arguments.embeddingModel.length ∧ arguments.embeddingModel.length ≤ 255))
      (Raised.value "embedding_model must be between 1 and 255 characters") with
    | error raised => rfl
    | ok _ =>
      cases checkVector arguments.queryEmbedding with
      | error raised => rfl
      | ok _ => cases arguments.checkAnn <;> rfl

section Retrieving

variable {Distance Rank : Type} [LinearOrder Distance] [LinearOrder Rank]
  {engine : Engine Distance Rank} {query : Query} {rows : List Passage}

/-- A query whose text matches nothing finds what the vector query finds. -/
theorem answer_unscored (scans : engine.ScansInOrder) (divides : engine.DividesExactly)
    (once : rows.Nodup) (distinct : Distinguishes (vectorDistance engine query) rows)
    (nothing : query.lexicalQuery = [] ∨ MatchesNothing engine query rows)
    (small : query.limit ≤ 50) :
    (query.answer engine rows).map RetrievedChunk.unscored =
      (query.withoutText.answer engine rows).map RetrievedChunk.unscored := by
  by_cases blank : query.lexicalQuery = []
  · have same : query.withoutText = query := by
      rw [Query.withoutText, ← blank]
    rw [same]
  · have other : query.withoutText.answer engine rows = vectorOnly engine query rows := rfl
    obtain ⟨score, fused⟩ :=
      hybrid_eq_nearest scans divides once distinct (nothing.resolve_left blank) small
    obtain ⟨similarity, plain⟩ := vectorOnly_eq_nearest scans once distinct
    rw [other, Query.answer, if_neg blank, fused, plain, List.map_map, List.map_map]
    rfl

theorem check_limit (checked : arguments.check = .ok query) :
    query.limit ≤ 50 := by
  simp only [RetrieveArguments.check, bind_eq_ok, raiseIf_eq_ok, pure_eq_ok, not_not] at checked
  obtain ⟨_, ⟨-, small⟩, _, -, _, -, _, -, _, -, rfl⟩ := checked
  exact small

/-- A checked text is short enough for a hybrid query. -/
theorem check_text (checked : arguments.check = .ok query) :
    arguments.lexicalQuery.length ≤ hybridQueryMaxChars := by
  simp only [RetrieveArguments.check, bind_eq_ok, raiseIf_eq_ok, not_lt] at checked
  obtain ⟨_, -, _, -, _, -, _, -, _, fits, -⟩ := checked
  exact fits

/-- A query returns what it finds. -/
theorem runQuery_eq_ok {store : Store} {principal : Principal} {workspaceId : Uuid}
    {chunks : List RetrievedChunk}
    (ok : store.runQuery engine principal workspaceId query = .ok chunks) :
    chunks = query.answer engine
      (store.visible principal workspaceId query.embeddingModel query.embedding.length) := by
  unfold Store.runQuery at ok
  cases efSearch : query.efSearch with
  | none =>
    simp only [efSearch, bind_eq_ok, pure_eq_ok] at ok
    obtain ⟨_, -, same⟩ := ok
    exact same.symm
  | some search =>
    simp only [efSearch, bind_eq_ok, pure_eq_ok] at ok
    obtain ⟨_, -, _, -, same⟩ := ok
    exact same.symm

/-- A query that finds the same as another one after the same checks. -/
theorem runQuery_congr {Result : Type} (store : Store) (principal : Principal) (workspaceId : Uuid)
    {other : Query} (shown : List RetrievedChunk → Result)
    (model : other.embeddingModel = query.embeddingModel)
    (embedding : other.embedding = query.embedding) (efSearch : other.efSearch = query.efSearch)
    (answers : shown (query.answer engine
        (store.visible principal workspaceId query.embeddingModel query.embedding.length)) =
      shown (other.answer engine
        (store.visible principal workspaceId query.embeddingModel query.embedding.length))) :
    (store.runQuery engine principal workspaceId query).map shown =
      (store.runQuery engine principal workspaceId other).map shown := by
  unfold Store.runQuery
  rw [model, embedding, efSearch]
  cases store.authorizeRetrieve principal workspaceId with
  | error raised => rfl
  | ok _ =>
    cases query.efSearch with
    | none => exact congrArg Except.ok answers
    | some search =>
      cases store.verifyHnswIndex engine.sha256 query.embeddingModel query.embedding.length with
      | error raised => rfl
      | ok _ => exact congrArg Except.ok answers

end Retrieving

/-- The rows a retrieval ranks. -/
def Store.ranked (store : Store) (principal : Principal) (workspaceId : Uuid)
    (arguments : RetrieveArguments) : List Passage :=
  store.visible principal workspaceId arguments.embeddingModel arguments.queryEmbedding.length

/-- Where no visible chunk matches the query's text, hybrid retrieval finds the chunks of the
vector query in its order; in general it ranks chunks of its two pools by the sums of their
reciprocal ranks. -/
theorem hybrid_degrades_to_vector {Distance Rank : Type} [LinearOrder Distance]
    [LinearOrder Rank] (engine : Engine Distance Rank) (scans : engine.ScansInOrder)
    (divides : engine.DividesExactly) (store : Store) (principal : Principal) (workspaceId : Uuid)
    (arguments : RetrieveArguments) (query : Query) (checked : arguments.check = .ok query) :
    (DistinctDistances engine store principal workspaceId arguments →
      (query.lexicalQuery = [] ∨
        MatchesNothing engine query (store.ranked principal workspaceId arguments)) →
        (store.retrieve engine principal workspaceId arguments).map
            (List.map RetrievedChunk.unscored) =
          (store.retrieve engine principal workspaceId arguments.withoutText).map
            (List.map RetrievedChunk.unscored)) ∧
    (query.lexicalQuery ≠ [] → ∀ chunks,
      store.retrieve engine principal workspaceId arguments = .ok chunks →
        RankedByPools engine query (store.ranked principal workspaceId arguments) chunks) := by
  obtain ⟨model, embedding, -⟩ := check_fields checked
  constructor
  · intro distinct nothing
    have without : arguments.withoutText.check = .ok query.withoutText := by
      rw [RetrieveArguments.check_withoutText (check_text checked), checked]
      rfl
    rw [Store.retrieve, Store.retrieve, checked, without]
    refine runQuery_congr store principal workspaceId _ rfl rfl rfl ?_
    rw [model, embedding]
    refine answer_unscored scans divides (nodup_visible _ _ _ _ _) ?_ nothing (check_limit checked)
    unfold vectorDistance
    rw [embedding]
    exact distinct
  · intro texts chunks ok
    rw [Store.retrieve, checked] at ok
    obtain rfl := runQuery_eq_ok ok
    rw [Query.answer, if_neg texts, model, embedding]
    exact hybrid_ranked divides _

/-- A quotient rounded to twenty digits after the point. -/
def twentyDigits (number : Nat) : ℚ := ((10 ^ 20 + number / 2) / number : Nat) / 10 ^ 20

theorem abs_twentyDigits_sub {number : Nat} (positive : 0 < number) :
    |twentyDigits number - 1 / number| ≤ 1 / 10 ^ 16 := by
  have above : (10 ^ 20 + number / 2) / number * number ≤ 10 ^ 20 + number :=
    (Nat.div_mul_le_self _ _).trans (by omega)
  have below : 10 ^ 20 ≤ (10 ^ 20 + number / 2) / number * number + number := by
    have whole := Nat.div_add_mod' (10 ^ 20 + number / 2) number
    have rest := Nat.mod_lt (10 ^ 20 + number / 2) positive
    omega
  unfold twentyDigits
  generalize (10 ^ 20 + number / 2) / number = quotient at above below ⊢
  have wide : (0 : ℚ) < number := by exact_mod_cast positive
  have upper : (quotient : ℚ) * number ≤ 10 ^ 20 + number := by exact_mod_cast above
  have lower : (10 : ℚ) ^ 20 ≤ quotient * number + number := by exact_mod_cast below
  have difference : (quotient : ℚ) / 10 ^ 20 - 1 / number =
      (quotient * number - 10 ^ 20) / (10 ^ 20 * number) := by
    field_simp
  rw [difference, abs_le, le_div_iff₀ (by positivity), div_le_iff₀ (by positivity)]
  constructor
  · linarith
  · linarith

/-- The significands of a vector. -/
def weigh (vector : Embedding) : Nat :=
  (vector.map fun
    | .finite value => value.significand
    | _ => 0).sum

/-- An engine that compares significands, and whose index scan is exact. -/
def exactEngine : Engine Nat Nat where
  distance stored asked := weigh stored - weigh asked
  similarity _ := .nan
  isEmptyQuery text := text = []
  matchesQuery content text := content = text
  lexicalScore _ _ := 0
  reciprocal := twentyDigits
  double _ := .nan
  hnswScan _ key rows := orderBy key rows
  sha256 _ := 0

theorem exactEngine_scansInOrder : exactEngine.ScansInOrder := by
  intro Row efSearch key rows
  exact ⟨(orderBy_perm key rows).subperm, orderBy_sorted key rows⟩

theorem exactEngine_dividesExactly : exactEngine.DividesExactly := by
  intro number positive
  exact abs_twentyDigits_sub positive

/-- A number of a vector. -/
def numeral (significand : Nat) (odd : significand % 2 = 1) (small : significand < 2 ^ 53) :
    PyFloat :=
  .finite ⟨false, significand, 0, .inl odd, small, by decide⟩

/-- A chunk of the one source of the workspace. -/
def chunkOf (index : Nat) (embedding : Embedding) : RagChunk where
  workspaceId := 7
  sourceId := 1
  sourceVersion := py "1"
  chunkIndex := index
  startOffset := 0
  endOffset := 5
  content := py "chunk"
  contentHash := 0
  metadata := .null
  accessScope := .workspace
  embeddingModel := py "m"
  embeddingDimensions := 1
  embedding := embedding

/-- Three chunks of a source, the last one nearest. -/
def threeChunks : Store :=
  { Store.empty with
    memberships := Table.empty.put (7, ⟨"nexora", "owner"⟩) .owner
    sources := Table.empty.put 1 ⟨7, py "source", py "1", py "Source", 0, .workspace, true⟩
    chunks := ((Table.empty.put 11 (chunkOf 0 [numeral 7 rfl (by decide)])).put 12
      (chunkOf 1 [numeral 5 rfl (by decide)])).put 13 (chunkOf 2 [numeral 3 rfl (by decide)]) }

/-- A query for two chunks whose text no chunk has. -/
def unmatched : RetrieveArguments where
  embeddingModel := py "m"
  queryEmbedding := [numeral 1 rfl (by decide)]
  queryText := some (py " words ")
  limit := 2
  annDimensions := none
  hnswEfSearch := none

/-- `hybrid_degrades_to_vector` applies to a text that no chunk matches. -/
theorem hybrid_degrades_to_vector_unmatched :
    (threeChunks.retrieve exactEngine ⟨"nexora", "owner"⟩ 7 unmatched).map
        (List.map RetrievedChunk.unscored) =
      (threeChunks.retrieve exactEngine ⟨"nexora", "owner"⟩ 7 unmatched.withoutText).map
        (List.map RetrievedChunk.unscored) ∧
    ((threeChunks.retrieve exactEngine ⟨"nexora", "owner"⟩ 7 unmatched.withoutText).map
        (List.map RetrievedChunk.id)).toOption = some [13, 12] := by
  have rows : ∀ left ∈ threeChunks.ranked ⟨"nexora", "owner"⟩ 7 unmatched,
      ∀ right ∈ threeChunks.ranked ⟨"nexora", "owner"⟩ 7 unmatched,
        exactEngine.distance left.chunk.embedding unmatched.queryEmbedding =
          exactEngine.distance right.chunk.embedding unmatched.queryEmbedding → left = right := by
    decide +kernel
  have contents : ∀ passage ∈ threeChunks.ranked ⟨"nexora", "owner"⟩ 7 unmatched,
      exactEngine.matchesQuery passage.chunk.content (py "words") = false := by
    decide +kernel
  exact ⟨(hybrid_degrades_to_vector exactEngine exactEngine_scansInOrder
    exactEngine_dividesExactly threeChunks ⟨"nexora", "owner"⟩ 7 unmatched
    ⟨py "m", [numeral 1 rfl (by decide)], 2, py "words", none⟩ rfl).1 rows (.inr (.inr contents)),
    by decide +kernel⟩

end Nexora.Knowledge
