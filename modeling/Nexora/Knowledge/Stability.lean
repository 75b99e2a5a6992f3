import Nexora.Knowledge.Snapshots

/-!
# One evidence for all attempts of a run

The attempts of a run read and write its evidence in any order, while sources are indexed again,
deleted or hidden in between. Whichever of them gets evidence gets the same: what has been given
once is never replaced, and an attempt that has retrieved something else is refused.
-/

namespace Nexora.Knowledge

open Nexora.Std

variable {store next : ExecutorStore} {sha256 : PyStr → Nat} {context : Run.ExecutionContext}
  {runId : Uuid} {first second : RunRetrievalSnapshot} {row : RunRetrieval}
  {chunks : List RetrievedChunk} {clock : Instant} {tokens : Nat}

/-- The evidence of a run can be no other than a snapshot. -/
def Fixes (store : ExecutorStore) (runId : Uuid) (snapshot : RunRetrievalSnapshot) : Prop :=
  ∃ row, store.retrievals.find? runId = some row ∧
    snapshot.embeddingInputTokens = row.embeddingInputTokens ∧
    snapshot.chunkCount = row.chunkCount ∧
    ∀ kept, store.contexts.find? runId = some kept → kept.2 = snapshot.contextText

theorem read_of_save
    (saved : store.saveRetrieval sha256 context chunks tokens clock = .ok (next, first)) :
    store.insertRetrieval sha256 context chunks tokens = .ok next ∧
      ∃ row, next.retrieval context = some (row, some first.contextText) ∧
        first = ⟨first.contextText, row.embeddingInputTokens, row.chunkCount⟩ := by
  simp only [ExecutorStore.saveRetrieval, bind_eq_ok, orRaise_eq_ok, pure_eq_ok] at saved
  obtain ⟨_, -, _, -, written, inserted, ⟨row, text⟩, found, text, rfl, _, -, same⟩ := saved
  cases same
  exact ⟨inserted, row, found, rfl⟩

theorem Fixes.inserted (fixes : Fixes store runId first)
    (inserted : store.insertRetrieval sha256 context chunks tokens = .ok next) :
    Fixes next runId first := by
  obtain ⟨row, present, same, count, texts⟩ := fixes
  unfold ExecutorStore.insertRetrieval at inserted
  split at inserted
  · cases inserted
    exact ⟨row, present, same, count, texts⟩
  next free =>
    have other : runId ≠ context.runId := by
      rintro rfl
      rw [free] at present
      cases present
    simp only [bind_eq_ok, pure_eq_ok] at inserted
    obtain ⟨_, -, _, -, rfl⟩ := inserted
    refine ⟨row, ?_, same, count, fun kept there => texts kept ?_⟩
    · rw [Table.find?_put_ne _ _ other]
      exact present
    · rwa [Table.find?_put_ne _ _ other] at there

/-- No step gives a run other evidence. -/
theorem Fixes.step {label : EvidenceStep} (fixes : Fixes store runId first)
    (step : (evidence sha256).Step store label next) : Fixes next runId first := by
  cases label with
  | save context chunks tokens clock =>
    obtain ⟨_, saved⟩ := step
    exact fixes.inserted (read_of_save saved).1
  | clear ended =>
    subst step
    obtain ⟨row, present, same, count, texts⟩ := fixes
    exact ⟨row, present, same, count, fun kept there => texts kept (Table.of_find?_erase there).2⟩
  | change runs knowledge =>
    subst step
    exact fixes

end Nexora.Knowledge
