import Nexora.Knowledge.System
import Nexora.Knowledge.Trimming

/-!
# Chunking

What the loop of `chunk_text` keeps: everything before the offset it has reached lies in a
chunk, unless it is white space, and each chunk is the text between its offsets.
-/

namespace Nexora.Knowledge

open Nexora.Std

/-- A chunk is what is left of the text between two offsets when white space around it is
dropped. -/
structure TextChunk.CutFrom (chunk : TextChunk) (normalized : PyStr) (start stop : Nat) : Prop where
  begins : start ≤ chunk.startOffset
  proper : chunk.startOffset < chunk.endOffset
  ends : chunk.endOffset ≤ stop
  content : chunk.content = slice normalized chunk.startOffset chunk.endOffset
  trimmed : strip chunk.content = chunk.content
  first : ∀ point ∈ normalized[chunk.startOffset]?, isSpace point = false
  last : ∀ point ∈ normalized[chunk.endOffset - 1]?, isSpace point = false
  covers : ∀ index, start ≤ index → index < stop → ∀ point ∈ normalized[index]?,
    isSpace point = false → chunk.startOffset ≤ index ∧ index < chunk.endOffset

section Window

variable {sha256 : PyStr → Nat} {normalized : PyStr} {chunkIndex start stop : Nat}

/-- Between two offsets there is a chunk or nothing but white space. -/
theorem chunkBetween_cases (ordered : start ≤ stop) (inside : stop ≤ normalized.length) :
    (∃ chunk, chunkBetween sha256 normalized chunkIndex start stop = some chunk ∧
      chunk.chunkIndex = chunkIndex ∧ chunk.CutFrom normalized start stop) ∨
    (chunkBetween sha256 normalized chunkIndex start stop = none ∧
      ∀ index, start ≤ index → index < stop → ∀ point ∈ normalized[index]?,
        isSpace point = true) := by
  obtain ⟨front, middle, back, trimmed⟩ := exists_trimmed isSpace (slice normalized start stop)
  obtain ⟨before, after, whole, length⟩ : ∃ before after, normalized =
      before ++ (front ++ middle ++ back) ++ after ∧ before.length = start := by
    refine ⟨normalized.take start, normalized.drop stop, ?_, ?_⟩
    · rw [← trimmed.whole, append_slice ordered]
    · rw [List.length_take]
      omega
  have width : (front ++ middle ++ back).length = stop - start := by
    rw [← trimmed.whole, slice, List.length_drop, List.length_take]
    omega
  simp only [List.length_append] at width
  have atWindow : ∀ index, start ≤ index → index < stop →
      normalized[index]? = (front ++ middle ++ back)[index - start]? := by
    intro index low high
    rw [whole, List.getElem?_append_left (by simp; omega),
      List.getElem?_append_right (by omega), length]
  by_cases some_ : middle = []
  · refine .inr ⟨?_, ?_⟩
    · rw [chunkBetween, strip, trimmed.trim_eq, if_pos some_]
    · intro index low high point isPoint
      rw [atWindow index low high, some_, List.append_nil] at isPoint
      exact (List.mem_append.mp (List.mem_of_getElem? isPoint)).elim
        (trimmed.front_met point) (trimmed.back_met point)
  · have filled : 0 < middle.length := List.length_pos_iff.mpr some_
    refine .inl ⟨⟨chunkIndex, start + front.length, start + front.length + middle.length, middle,
      sha256 middle⟩, ?_, rfl, ?_⟩
    · have left : (slice normalized start stop).length -
          ((slice normalized start stop).dropWhile isSpace).length = front.length := by
        rw [trimmed.dropWhile_eq some_, trimmed.whole]
        simp only [List.length_append]
        omega
      have right : ((slice normalized start stop).rdropWhile isSpace).length =
          front.length + middle.length := by
        rw [trimmed.rdropWhile_eq some_, List.length_append]
      rw [chunkBetween, strip, trimmed.trim_eq, if_neg some_, left, right, Nat.add_assoc]
    · have atMiddle : ∀ index, index < middle.length →
          normalized[start + front.length + index]? = middle[index]? := by
        intro index low
        rw [atWindow _ (by omega) (by omega), List.append_assoc,
          List.getElem?_append_right (by omega), List.getElem?_append_left (by omega)]
        congr 1
        omega
      refine ⟨by simp, by simp [filled], by simp; omega, ?_, ?_, ?_, ?_, ?_⟩
      · have around := slice_append (before ++ front) middle (back ++ after)
        simp only [List.length_append, length] at around
        rw [whole]
        simpa only [List.append_assoc] using around.symm
      · rw [strip, ← trimmed.trim_eq, trim_trim]
      · intro point isPoint
        have isFirst := atMiddle 0 filled
        rw [Nat.add_zero] at isFirst
        rw [isFirst, ← List.head?_eq_getElem?] at isPoint
        exact trimmed.first point isPoint
      · intro point isPoint
        have isLast := atMiddle (middle.length - 1) (by omega)
        rw [show start + front.length + (middle.length - 1) =
          start + front.length + middle.length - 1 by omega] at isLast
        rw [isLast, ← List.getLast?_eq_getElem?] at isPoint
        exact trimmed.last point isPoint
      · intro index low high point isPoint visible
        rw [atWindow index low high] at isPoint
        have notFront : ¬ index - start < front.length := by
          intro short
          rw [List.append_assoc, List.getElem?_append_left short] at isPoint
          have met := trimmed.front_met point (List.mem_of_getElem? isPoint)
          rw [visible] at met
          cases met
        have notBack : ¬ front.length + middle.length ≤ index - start := by
          intro long
          rw [List.getElem?_append_right (by simpa using long)] at isPoint
          have met := trimmed.back_met point (List.mem_of_getElem? isPoint)
          rw [visible] at met
          cases met
        dsimp only
        omega

end Window

section Cuts

variable {normalized : PyStr} {maxChars start stop : Nat}

theorem rfind_succ (text : PyStr) (point : Fin 0x110000) (low high : Nat) :
    rfind text point low (high + 1) =
      if low ≤ high ∧ text[high]? = some point then (high : Int)
      else rfind text point low high := by
  simp only [rfind, List.range_succ, List.reverse_append, List.reverse_singleton,
    List.singleton_append, List.find?_cons]
  by_cases here : low ≤ high ∧ text[high]? = some point
  · simp [here]
  · have fails : (decide (low ≤ high) && decide (text[high]? = some point)) = false := by
      rw [Bool.and_eq_false_iff, decide_eq_false_iff_not, decide_eq_false_iff_not]
      exact not_and_or.mp here
    rw [if_neg here, fails]

/-- A search finds the last place before its bound where the point occurs. -/
theorem rfind_cases (text : PyStr) (point : Fin 0x110000) (low high : Nat) :
    (rfind text point low high = -1 ∧
      ∀ index, low ≤ index → index < high → text[index]? ≠ some point) ∨
    ∃ place : Nat, rfind text point low high = place ∧ low ≤ place ∧ place < high ∧
      text[place]? = some point ∧
      ∀ index, place < index → index < high → text[index]? ≠ some point := by
  induction high with
  | zero => exact .inl ⟨rfl, fun index _ below => absurd below (Nat.not_lt_zero _)⟩
  | succ high ih =>
    rw [rfind_succ]
    by_cases here : low ≤ high ∧ text[high]? = some point
    · rw [if_pos here]
      refine .inr ⟨high, rfl, here.1, Nat.lt_succ_self _, here.2, ?_⟩
      intro index after below
      omega
    · rw [if_neg here]
      have notHere : ∀ index, low ≤ index → index = high → text[index]? ≠ some point := by
        rintro index above rfl found
        exact here ⟨above, found⟩
      rcases ih with
        ⟨none, others⟩ | ⟨place, found, above, below, isPoint, others⟩
      · refine .inl ⟨none, fun index above below => ?_⟩
        rcases Nat.lt_succ_iff_lt_or_eq.mp below with earlier | last
        · exact others index above earlier
        · exact notHere index above last
      · refine .inr ⟨place, found, above, by omega, isPoint, fun index after below => ?_⟩
        rcases Nat.lt_succ_iff_lt_or_eq.mp below with earlier | last
        · exact others index after earlier
        · exact notHere index (by omega) last

/-- A place a chunk may be cut at. -/
def Breaks (normalized : PyStr) (index : Nat) : Prop :=
  normalized[index]? = some 0x0a ∨ normalized[index]? = some 0x20

/-- The end of a chunk that more text follows: at the last break of its second half, or where
there is none. -/
theorem chunkEnd_cases (long : start + maxChars < normalized.length) (half : 2 ≤ maxChars) :
    (start + maxChars / 2 ≤ chunkEnd normalized maxChars start ∧
      chunkEnd normalized maxChars start < start + maxChars ∧
      Breaks normalized (chunkEnd normalized maxChars start) ∧
      ∀ index, chunkEnd normalized maxChars start < index → index < start + maxChars →
        ¬ Breaks normalized index) ∨
    (chunkEnd normalized maxChars start = start + maxChars ∧
      ∀ index, start + maxChars / 2 ≤ index → index < start + maxChars →
        ¬ Breaks normalized index) := by
  have hard : min normalized.length (start + maxChars) = start + maxChars := by omega
  have lines := rfind_cases normalized 0x0a (start + maxChars / 2) (start + maxChars)
  have blanks := rfind_cases normalized 0x20 (start + maxChars / 2) (start + maxChars)
  have isEnd : chunkEnd normalized maxChars start =
      if (start : Int) < max (rfind normalized 0x0a (start + maxChars / 2) (start + maxChars))
          (rfind normalized 0x20 (start + maxChars / 2) (start + maxChars)) then
        (max (rfind normalized 0x0a (start + maxChars / 2) (start + maxChars))
          (rfind normalized 0x20 (start + maxChars / 2) (start + maxChars))).toNat
      else start + maxChars := by
    rw [chunkEnd, hard]
    simp only [if_pos long]
  rw [isEnd]
  rcases lines with ⟨noLine, lines⟩ | ⟨line, isLine, lineLow, lineHigh, atLine, lines⟩ <;>
    rcases blanks with ⟨noBlank, blanks⟩ | ⟨blank, isBlank, blankLow, blankHigh, atBlank, blanks⟩
  case inl.inl =>
    refine .inr ⟨?_, fun index low high => ?_⟩
    · rw [noLine, noBlank, if_neg (by omega)]
    · exact not_or.mpr ⟨lines index low high, blanks index low high⟩
  case inl.inr =>
    refine .inl ?_
    rw [noLine, isBlank, if_pos (by omega)]
    have same : (max (-1) (blank : Int)).toNat = blank := by omega
    rw [same]
    refine ⟨blankLow, blankHigh, .inr atBlank, fun index after below => ?_⟩
    exact not_or.mpr ⟨lines index (by omega) below, blanks index after below⟩
  case inr.inl =>
    refine .inl ?_
    rw [isLine, noBlank, if_pos (by omega)]
    have same : (max (line : Int) (-1)).toNat = line := by omega
    rw [same]
    refine ⟨lineLow, lineHigh, .inl atLine, fun index after below => ?_⟩
    exact not_or.mpr ⟨lines index after below, blanks index (by omega) below⟩
  case inr.inr =>
    refine .inl ?_
    rw [isLine, isBlank, if_pos (by omega)]
    have same : (max (line : Int) (blank : Int)).toNat = max line blank := by omega
    rw [same]
    have breaks : Breaks normalized (max line blank) := by
      rcases max_choice line blank with same | same
      · exact .inl (same.symm ▸ atLine)
      · exact .inr (same.symm ▸ atBlank)
    refine ⟨by omega, by omega, breaks, fun index after below => ?_⟩
    exact not_or.mpr ⟨lines index (by omega) below, blanks index (by omega) below⟩

/-- The last chunk ends with the text. -/
theorem chunkEnd_last (short : normalized.length ≤ start + maxChars) :
    chunkEnd normalized maxChars start = normalized.length := by
  have hard : min normalized.length (start + maxChars) = normalized.length := by omega
  rw [chunkEnd, hard]
  simp

theorem chunkEnd_le (half : 2 ≤ maxChars) :
    chunkEnd normalized maxChars start ≤ min normalized.length (start + maxChars) := by
  rcases Nat.lt_or_ge (start + maxChars) normalized.length with long | short
  · rcases chunkEnd_cases long half with ⟨-, below, -⟩ | ⟨same, -⟩ <;> omega
  · rw [chunkEnd_last short]
    omega

/-- A chunk that starts later does not end earlier. -/
theorem chunkEnd_mono (half : 2 ≤ maxChars) {later : Nat} (after : start ≤ later) :
    chunkEnd normalized maxChars start ≤ chunkEnd normalized maxChars later := by
  have bounded := @chunkEnd_le normalized maxChars start half
  rcases Nat.lt_or_ge (later + maxChars) normalized.length with long | short
  · rcases chunkEnd_cases long half with ⟨low, high, -, last⟩ | ⟨same, -⟩
    · -- Between the later cut and the earlier one there would be a break.
      by_contra earlier
      rcases chunkEnd_cases (show start + maxChars < normalized.length by omega) half with
        ⟨-, below, breaks, -⟩ | ⟨same, none⟩
      · exact last _ (by omega) (by omega) breaks
      · rcases chunkEnd_cases long half with ⟨_, _, breaks, -⟩ | ⟨laterSame, -⟩
        · exact none _ (by omega) (by omega) breaks
        · omega
    · omega
  · rw [chunkEnd_last short]
    omega

end Cuts

/-- A point of the text that is no white space. -/
def Visible (normalized : PyStr) (index : Nat) : Prop :=
  ∃ point ∈ normalized[index]?, isSpace point = false

/-- The chunks of the text up to an offset. -/
structure Chunked (normalized : PyStr) (maxChars reached : Nat) (chunks : List TextChunk) :
    Prop where
  numbered : chunks.map TextChunk.chunkIndex = List.range chunks.length
  cut : ∀ chunk ∈ chunks, ∃ start stop, chunk.CutFrom normalized start stop ∧
    stop ≤ reached ∧ stop ≤ start + maxChars
  covered : ∀ index, index < reached → Visible normalized index →
    ∃ chunk ∈ chunks, chunk.startOffset ≤ index ∧ index < chunk.endOffset
  rising : chunks.Pairwise fun before after =>
    before.startOffset ≤ after.startOffset ∧ before.endOffset ≤ after.endOffset

section Loop

variable {sha256 : PyStr → Nat} {normalized : PyStr} {maxChars overlapChars start reached : Nat}
  {chunks : List TextChunk} {chunk : TextChunk}

/-- Every chunk so far starts no later than the rest of the text. -/
def Begun (normalized : PyStr) (start : Nat) (chunks : List TextChunk) : Prop :=
  ∀ chunk ∈ chunks, ∀ index, start ≤ index → Visible normalized index → chunk.startOffset ≤ index

theorem TextChunk.CutFrom.visible_first {stop : Nat} (cut : chunk.CutFrom normalized start stop)
    (inside : stop ≤ normalized.length) :
    Visible normalized chunk.startOffset := by
  have low : chunk.startOffset < normalized.length := by
    have proper := cut.proper
    have ends := cut.ends
    omega
  exact ⟨_, List.getElem?_eq_getElem low, cut.first _ (List.getElem?_eq_getElem low)⟩

theorem TextChunk.CutFrom.visible_last {stop : Nat} (cut : chunk.CutFrom normalized start stop)
    (inside : stop ≤ normalized.length) :
    Visible normalized (chunk.endOffset - 1) := by
  have low : chunk.endOffset - 1 < normalized.length := by
    have proper := cut.proper
    have ends := cut.ends
    omega
  exact ⟨_, List.getElem?_eq_getElem low, cut.last _ (List.getElem?_eq_getElem low)⟩

/-- A round adds the chunk that starts at its offset, if there is one. -/
theorem Chunked.step (chunked : Chunked normalized maxChars reached chunks)
    (begun : Begun normalized start chunks) (behind : start ≤ reached)
    (half : 2 ≤ maxChars) (inside : start < normalized.length)
    (onward : reached ≤ chunkEnd normalized maxChars start) :
    Chunked normalized maxChars (chunkEnd normalized maxChars start)
        (chunks ++ (chunkBetween sha256 normalized chunks.length start
          (chunkEnd normalized maxChars start)).toList) ∧
      ∀ next, start ≤ next → Begun normalized next
        (chunks ++ (chunkBetween sha256 normalized chunks.length start
          (chunkEnd normalized maxChars start)).toList) := by
  have bounded := @chunkEnd_le normalized maxChars start half
  have further := lt_chunkEnd (show 0 < maxChars by omega) inside
  generalize chunkEnd normalized maxChars start = stop at *
  have within : stop ≤ normalized.length := by omega
  have earlier : ∀ chunk ∈ chunks, ∃ low high, chunk.CutFrom normalized low high ∧
      high ≤ stop ∧ high ≤ low + maxChars := by
    intro chunk member
    obtain ⟨low, high, cut, early, short⟩ := chunked.cut chunk member
    exact ⟨low, high, cut, by omega, short⟩
  have begins : ∀ next, start ≤ next → Begun normalized next chunks :=
    fun next after chunk member index low => begun chunk member index (by omega)
  rcases @chunkBetween_cases sha256 normalized chunks.length start stop further.le within with
    ⟨chunk, found, isIndex, cut⟩ | ⟨none, blank⟩
  · rw [found, Option.toList_some]
    have starts := cut.begins
    have proper := cut.proper
    have ends := cut.ends
    refine ⟨⟨?_, ?_, ?_, ?_⟩, ?_⟩
    · rw [List.map_append, chunked.numbered, List.map_singleton, isIndex, List.length_append,
        List.length_singleton, List.range_succ]
    · intro other member
      rcases List.mem_append.mp member with before | last
      · exact earlier other before
      · obtain rfl := List.mem_singleton.mp last
        exact ⟨start, stop, cut, le_rfl, by omega⟩
    · intro index low visible
      rcases Nat.lt_or_ge index start with before | here
      · obtain ⟨other, member, holds⟩ := chunked.covered index (by omega) visible
        exact ⟨other, List.mem_append_left _ member, holds⟩
      · obtain ⟨point, isPoint, shown⟩ := visible
        exact ⟨chunk, by simp, cut.covers index here low point isPoint shown⟩
    · rw [List.pairwise_append]
      refine ⟨chunked.rising, List.pairwise_singleton _ _, ?_⟩
      intro before member after last
      obtain rfl := List.mem_singleton.mp last
      obtain ⟨low, high, beforeCut, early, -⟩ := chunked.cut before member
      have beforeProper := beforeCut.proper
      have beforeEnds := beforeCut.ends
      refine ⟨begun before member _ starts (cut.visible_first within), ?_⟩
      rcases Nat.lt_or_ge (before.endOffset - 1) start with away | overlapping
      · omega
      · obtain ⟨point, isPoint, shown⟩ := beforeCut.visible_last (by omega)
        have inWindow := cut.covers _ overlapping (by omega) point isPoint shown
        omega
    · intro next after other member index low visible
      rcases List.mem_append.mp member with before | last
      · exact begins next after other before index low visible
      · obtain rfl := List.mem_singleton.mp last
        rcases Nat.lt_or_ge index stop with here | beyond
        · obtain ⟨point, isPoint, shown⟩ := visible
          exact (cut.covers index (by omega) here point isPoint shown).1
        · omega
  · rw [none, Option.toList_none, List.append_nil]
    refine ⟨⟨chunked.numbered, earlier, ?_, chunked.rising⟩, begins⟩
    intro index low visible
    rcases Nat.lt_or_ge index start with before | here
    · exact chunked.covered index (by omega) visible
    · obtain ⟨point, isPoint, shown⟩ := visible
      rw [blank index here low point isPoint] at shown
      cases shown

/-- The offset after a round that ends at another. -/
def nextStart (overlapChars start stop : Nat) : Nat :=
  if stop ≤ start + overlapChars then stop else stop - overlapChars

theorem nextStart_bounds {stop : Nat} (further : start < stop) :
    start < nextStart overlapChars start stop ∧ nextStart overlapChars start stop ≤ stop ∧
      stop ≤ nextStart overlapChars start stop + overlapChars := by
  unfold nextStart
  split <;> omega

/-- What every round keeps holds when the loop ends. -/
theorem chunkLoop_rule {keeps : Nat → List TextChunk → Prop} {final : List TextChunk → Prop}
    (half : 2 ≤ maxChars)
    (ends : ∀ start chunks, start < normalized.length → keeps start chunks →
      chunkEnd normalized maxChars start = normalized.length →
      final (chunks ++ (chunkBetween sha256 normalized chunks.length start
        normalized.length).toList))
    (continues : ∀ start chunks, start < normalized.length → keeps start chunks →
      chunkEnd normalized maxChars start < normalized.length →
      keeps (nextStart overlapChars start (chunkEnd normalized maxChars start))
        (chunks ++ (chunkBetween sha256 normalized chunks.length start
          (chunkEnd normalized maxChars start)).toList))
    (rounds : Nat) (enough : normalized.length - start ≤ rounds)
    (inside : start < normalized.length) (kept : keeps start chunks) :
    final (chunkLoop sha256 normalized maxChars overlapChars rounds start chunks) := by
  induction rounds generalizing start chunks with
  | zero => omega
  | succ rounds ih =>
    have bounded := @chunkEnd_le normalized maxChars start half
    have further := lt_chunkEnd (show 0 < maxChars by omega) inside
    rw [chunkLoop, if_pos inside]
    dsimp only
    by_cases last : normalized.length ≤ chunkEnd normalized maxChars start
    · have same : chunkEnd normalized maxChars start = normalized.length := by omega
      rw [if_pos last, same]
      exact ends start chunks inside kept same
    · have bounds := @nextStart_bounds overlapChars start _ further
      rw [if_neg last]
      apply ih
      · change _ - nextStart overlapChars start _ ≤ _
        omega
      · change nextStart overlapChars start _ < _
        omega
      · exact continues start chunks inside kept (by omega)

/-- What the rounds of the loop keep. -/
structure Halfway (normalized : PyStr) (maxChars overlapChars start : Nat)
    (chunks : List TextChunk) (reached : Nat) : Prop where
  chunked : Chunked normalized maxChars reached chunks
  begun : Begun normalized start chunks
  behind : start ≤ reached
  onward : reached ≤ chunkEnd normalized maxChars start
  overlap : reached ≤ start + overlapChars

theorem Halfway.next (halfway : Halfway normalized maxChars overlapChars start chunks reached)
    (half : 2 ≤ maxChars) (inside : start < normalized.length) :
    Halfway normalized maxChars overlapChars
      (nextStart overlapChars start (chunkEnd normalized maxChars start))
      (chunks ++ (chunkBetween sha256 normalized chunks.length start
        (chunkEnd normalized maxChars start)).toList)
      (chunkEnd normalized maxChars start) := by
  have further := lt_chunkEnd (show 0 < maxChars by omega) inside
  obtain ⟨after, before, overlap⟩ := @nextStart_bounds overlapChars start _ further
  obtain ⟨chunked, begun⟩ := @Chunked.step sha256 _ _ _ _ _ halfway.chunked halfway.begun
    halfway.behind half inside halfway.onward
  exact ⟨chunked, begun _ after.le, before, chunkEnd_mono half after.le, overlap⟩

theorem halfway_zero (normalized : PyStr) (maxChars overlapChars : Nat) :
    Halfway normalized maxChars overlapChars 0 [] 0 := by
  refine ⟨⟨rfl, by simp, by simp, List.Pairwise.nil⟩, ?_, le_rfl, Nat.zero_le _, Nat.zero_le _⟩
  intro chunk member
  cases member

/-- The chunks of a document cover it. -/
theorem chunked_chunkLoop (half : 2 ≤ maxChars) (some_ : normalized ≠ []) :
    Chunked normalized maxChars normalized.length
      (chunkLoop sha256 normalized maxChars overlapChars normalized.length 0 []) := by
  let keeps := fun start chunks =>
    ∃ reached, Halfway normalized maxChars overlapChars start chunks reached
  apply @chunkLoop_rule _ _ _ _ _ _ keeps _ half
  · rintro start chunks inside ⟨reached, halfway⟩ last
    have chunked := (@Halfway.next sha256 _ _ _ _ _ _ halfway half inside).chunked
    rwa [last] at chunked
  · rintro start chunks inside ⟨reached, halfway⟩ -
    exact ⟨_, halfway.next half inside⟩
  · omega
  · exact List.length_pos_iff.mpr some_
  · exact ⟨0, halfway_zero normalized maxChars overlapChars⟩

/-- The later chunk ends after the earlier one, unless it repeats a part of it: then the chunks
overlap, and white space that fills what is left of the second half follows them. -/
def Advances (normalized : PyStr) (maxChars overlapChars : Nat) (before after : TextChunk) : Prop :=
  before.endOffset < after.endOffset ∨
    (before.endOffset = after.endOffset ∧ 0 < overlapChars ∧
      ∀ further ≤ maxChars / 2 - overlapChars,
        ∃ point ∈ normalized[before.endOffset + further]?, isSpace point = true)

theorem Breaks.isSpace {index : Nat} (breaks : Breaks normalized index) :
    ∃ point ∈ normalized[index]?, isSpace point = true := by
  rcases breaks with line | blank
  · exact ⟨_, line, by decide⟩
  · exact ⟨_, blank, by decide⟩

/-- A chunk that ends where an earlier one does is followed by white space up to its cut. -/
theorem TextChunk.CutFrom.blank_after {stop index : Nat} (cut : chunk.CutFrom normalized start stop)
    (within : stop ≤ normalized.length) (after : chunk.endOffset ≤ index) (below : index < stop) :
    ∃ point ∈ normalized[index]?, isSpace point = true := by
  have begins := cut.begins
  have proper := cut.proper
  have isPoint : normalized[index]? = some normalized[index] := List.getElem?_eq_getElem (by omega)
  refine ⟨_, isPoint, ?_⟩
  by_contra visible
  have covered := cut.covers index (by omega) below _ isPoint (Bool.eq_false_of_not_eq_true visible)
  omega

/-- The chunk of a round advances on those of the rounds before. -/
theorem Halfway.advances (halfway : Halfway normalized maxChars overlapChars start chunks reached)
    (half : 2 ≤ maxChars) (overlap : overlapChars < maxChars)
    (inside : start < normalized.length) (unfinished : reached < normalized.length)
    (last : Visible normalized (normalized.length - 1)) :
    ∀ before ∈ chunks, ∀ after ∈ chunkBetween sha256 normalized chunks.length start
        (chunkEnd normalized maxChars start),
      Advances normalized maxChars overlapChars before after := by
  intro before member after found
  have bounded := @chunkEnd_le normalized maxChars start half
  have further := lt_chunkEnd (show 0 < maxChars by omega) inside
  have behind := halfway.behind
  have onward := halfway.onward
  have overlapping := halfway.overlap
  obtain ⟨low, high, beforeCut, early, -⟩ := halfway.chunked.cut before member
  have beforeEnds := beforeCut.ends
  have rising := (@Halfway.next sha256 _ _ _ _ _ _ halfway half inside).chunked.rising
  rw [Option.mem_def] at found
  rw [found, Option.toList_some, List.pairwise_append] at rising
  have noEarlier := (rising.2.2 before member after (by simp)).2
  rcases @chunkBetween_cases sha256 normalized chunks.length start _ further.le (by omega) with
    ⟨chunk, isChunk, -, cut⟩ | ⟨none, -⟩
  · rw [isChunk, Option.some.injEq] at found
    subst found
    have begins := cut.begins
    have proper := cut.proper
    have ends := cut.ends
    rcases Nat.lt_or_ge before.endOffset chunk.endOffset with later | notLater
    · exact .inl later
    · have same : before.endOffset = chunk.endOffset := by omega
      refine .inr ⟨same, by omega, fun beyond few => ?_⟩
      rw [same]
      rcases Nat.lt_or_ge (start + maxChars) normalized.length with long | short
      · rcases chunkEnd_cases long half with ⟨halfway, -, breaks, -⟩ | ⟨hardCut, -⟩
        · -- The cut is at a break, which is white space as well.
          rcases Nat.lt_or_ge (chunk.endOffset + beyond) (chunkEnd normalized maxChars start) with
            below | atCut
          · exact cut.blank_after (by omega) (by omega) below
          · have isCut : chunk.endOffset + beyond = chunkEnd normalized maxChars start := by omega
            rw [isCut]
            exact breaks.isSpace
        · exact cut.blank_after (by omega) (by omega) (by omega)
      · -- The last window ends with a visible point, which its chunk ends with.
        have isLast := chunkEnd_last short
        obtain ⟨point, isPoint, visible⟩ := last
        have covered :=
          cut.covers (normalized.length - 1) (by omega) (by omega) point isPoint visible
        omega
  · rw [none] at found
    cases found

end Loop

section Normal

theorem unixNewlines_of_notMem {text : PyStr} (none : 0x0d ∉ text) : unixNewlines text = text := by
  induction text using unixNewlines.induct with
  | case1 => rfl
  | case2 point =>
    have other : point ≠ 0x0d := fun same => none (by simp [same])
    rw [unixNewlines, if_neg other]
  | case3 first second rest met ih =>
    have isReturn : first = 0x0d := by
      simp only [Bool.and_eq_true, decide_eq_true_eq] at met
      exact met.1
    exact absurd (by simp [isReturn]) none
  | case4 first second rest notMet ih =>
    have other : first ≠ 0x0d := fun same => none (by simp [same])
    rw [unixNewlines, if_neg notMet, if_neg other, ih]
    exact fun member => none (List.mem_cons_of_mem _ member)

theorem notMem_unixNewlines (text : PyStr) : 0x0d ∉ unixNewlines text := by
  induction text using unixNewlines.induct with
  | case1 => exact List.not_mem_nil
  | case2 point =>
    rw [unixNewlines, List.mem_singleton]
    split <;> intro same
    · exact absurd same (by decide)
    · rename_i other
      exact other same.symm
  | case3 first second rest met ih =>
    rw [unixNewlines, if_pos met, List.mem_cons, not_or]
    exact ⟨by decide, ih⟩
  | case4 first second rest notMet ih =>
    rw [unixNewlines, if_neg notMet, List.mem_cons, not_or]
    refine ⟨?_, ih⟩
    split
    · decide
    · rename_i other
      exact fun same => other same.symm

theorem normalizeDocument_eq_ok {text normalized : PyStr} :
    normalizeDocument text = .ok normalized ↔
      strip (unixNewlines text) = normalized ∧ normalized ≠ [] := by
  simp only [normalizeDocument, bind_eq_ok, raiseIf_eq_ok, pure_eq_ok, exists_const]
  constructor
  · rintro ⟨some_, same⟩
    exact ⟨same, same ▸ some_⟩
  · rintro ⟨same, some_⟩
    exact ⟨same.symm ▸ some_, same⟩

/-- A normal document is its own normal form. -/
theorem normalizeDocument_normalized {text normalized : PyStr}
    (normal : normalizeDocument text = .ok normalized) :
    normalizeDocument normalized = .ok normalized := by
  rw [normalizeDocument_eq_ok] at normal ⊢
  obtain ⟨same, some_⟩ := normal
  have unix : unixNewlines normalized = normalized := by
    apply unixNewlines_of_notMem
    rw [← same]
    intro member
    have sublist : (strip (unixNewlines text)).Sublist (unixNewlines text) :=
      (List.rdropWhile_prefix _ _).sublist.trans (List.dropWhile_sublist _)
    exact notMem_unixNewlines text (sublist.subset member)
  rw [unix, ← same]
  exact ⟨trim_trim isSpace _, same ▸ some_⟩

/-- A normal document ends with a visible point. -/
theorem visible_last {text normalized : PyStr}
    (normal : normalizeDocument text = .ok normalized) :
    Visible normalized (normalized.length - 1) := by
  obtain ⟨same, some_⟩ := normalizeDocument_eq_ok.mp normal
  obtain ⟨front, middle, back, trimmed⟩ := exists_trimmed isSpace (unixNewlines text)
  have isMiddle : middle = normalized := trimmed.trim_eq.symm.trans same
  subst isMiddle
  refine ⟨middle.getLast some_, ?_, ?_⟩
  · rw [Option.mem_def, ← List.getLast?_eq_getElem?, List.getLast?_eq_some_getLast some_]
  · exact trimmed.last _ (List.getLast?_eq_some_getLast some_)

end Normal

section Document

variable {sha256 : PyStr → Nat} {text normalized : PyStr} {maxChars overlapChars : Nat}

/-- Chunking a document from its normal form. -/
theorem chunkText_eq (bounds : 200 ≤ maxChars ∧ maxChars ≤ 4000) (overlap : overlapChars < maxChars)
    (normal : normalizeDocument text = .ok normalized) :
    chunkText sha256 text maxChars overlapChars =
        .ok (chunkLoop sha256 normalized maxChars overlapChars normalized.length 0 []) := by
  have some_ := (normalizeDocument_eq_ok.mp normal).2
  have filled : chunkLoop sha256 normalized maxChars overlapChars normalized.length 0 [] ≠ [] := by
    intro nothing
    have chunked := @chunked_chunkLoop sha256 normalized maxChars overlapChars (by omega) some_
    have length := List.length_pos_iff.mpr some_
    obtain ⟨chunk, member, -⟩ := chunked.covered _ (by omega) (visible_last normal)
    rw [nothing] at member
    cases member
  simp only [chunkText, bind_eq_ok, raiseIf_eq_ok, pure_eq_ok, not_not]
  exact ⟨(), bounds, (), overlap, normalized, normal, (), filled, rfl⟩

theorem chunkText_ok {chunks : List TextChunk}
    (cut : chunkText sha256 text maxChars overlapChars = .ok chunks) :
    (200 ≤ maxChars ∧ maxChars ≤ 4000) ∧ overlapChars < maxChars := by
  simp only [chunkText, bind_eq_ok, raiseIf_eq_ok, not_not] at cut
  obtain ⟨_, bounds, _, overlap, _⟩ := cut
  exact ⟨bounds, overlap⟩

/-- The repository cuts the normal form of the document, and there is a vector for each chunk. -/
theorem prepare_chunks {arguments : IndexArguments} {prepared : PreparedIndex}
    (valid : arguments.prepare sha256 = .ok prepared) :
    ∃ normalized, normalizeDocument arguments.text = .ok normalized ∧
      chunkText sha256 normalized arguments.maxChars arguments.overlapChars =
        .ok prepared.chunks ∧
      arguments.embeddings.length = prepared.chunks.length := by
  simp only [IndexArguments.prepare, bind_eq_ok, ofValue_eq_ok, raiseIf_eq_ok, pure_eq_ok] at valid
  obtain ⟨_, _, _, _, _, _, _, _, normalized, normal, chunks, isCut, _, _, _, counted, _, _, _, _,
    _, _, _, _, _, _, _, _, rfl⟩ := valid
  exact ⟨normalized, normal, isCut, not_not.mp counted⟩

/-- What the chunks of a normal document are. -/
structure ChunksOf (normalized : PyStr) (maxChars : Nat) (chunks : List TextChunk) : Prop where
  numbered : chunks.map TextChunk.chunkIndex = List.range chunks.length
  content : ∀ chunk ∈ chunks,
    chunk.content = slice normalized chunk.startOffset chunk.endOffset
  filled : ∀ chunk ∈ chunks, chunk.content ≠ []
  trimmed : ∀ chunk ∈ chunks, strip chunk.content = chunk.content
  short : ∀ chunk ∈ chunks, chunk.content.length ≤ maxChars
  ordered : chunks.Pairwise fun before after => before.startOffset ≤ after.startOffset
  covers : ∀ index point, normalized[index]? = some point → isSpace point = false →
    ∃ chunk ∈ chunks, chunk.startOffset ≤ index ∧ index < chunk.endOffset

theorem Chunked.chunksOf {chunks : List TextChunk}
    (chunked : Chunked normalized maxChars normalized.length chunks) :
    ChunksOf normalized maxChars chunks := by
  have sized : ∀ chunk ∈ chunks, 0 < chunk.content.length ∧ chunk.content.length ≤ maxChars := by
    intro chunk member
    obtain ⟨start, stop, cut, within, short⟩ := chunked.cut chunk member
    have begins := cut.begins
    have proper := cut.proper
    have ends := cut.ends
    have length : chunk.content.length = chunk.endOffset - chunk.startOffset := by
      rw [cut.content, slice, List.length_drop, List.length_take]
      omega
    omega
  refine ⟨chunked.numbered, ?_, ?_, ?_, fun chunk member => (sized chunk member).2, ?_, ?_⟩
  · intro chunk member
    obtain ⟨_, _, cut, -⟩ := chunked.cut chunk member
    exact cut.content
  · intro chunk member
    exact List.length_pos_iff.mp (sized chunk member).1
  · intro chunk member
    obtain ⟨_, _, cut, -⟩ := chunked.cut chunk member
    exact cut.trimmed
  · exact chunked.rising.imp And.left
  · intro index point isPoint visible
    have inside := (List.getElem?_eq_some_iff.mp isPoint).1
    exact chunked.covered index inside ⟨point, isPoint, visible⟩

/-- Chunking loses nothing of a document but white space, whatever bounds it is given, and the
chunks a job's document is embedded by are those the repository stores. -/
theorem chunkText_lossless (bounds : 200 ≤ maxChars ∧ maxChars ≤ 4000)
    (overlap : overlapChars < maxChars) (normal : normalizeDocument text = .ok normalized) :
    ∃ chunks, chunkText sha256 text maxChars overlapChars = .ok chunks ∧
      ChunksOf normalized maxChars chunks ∧
      (∀ rounds, normalized.length ≤ rounds →
        chunkLoop sha256 normalized maxChars overlapChars rounds 0 [] = chunks) ∧
      chunkText sha256 normalized maxChars overlapChars = .ok chunks ∧
      ∀ (session : Session) (pipeline : RagEmbeddingPipeline) (replies : Nat → EmbeddingReply)
        (vectors : List Embedding) (inputTokens : Nat) (prepared : PreparedIndex),
        session.job.textContent = text → session.job.maxChars = maxChars →
        session.job.overlapChars = overlapChars →
        (session.indexArguments pipeline vectors inputTokens).prepare sha256 = .ok prepared →
        prepared.chunks = chunks ∧
          session.embed pipeline sha256 replies = pipeline.embedTexts
            (py "knowledge-ingestion:" ++ py (Uuid.text session.jobId) ++ py ":index")
            (prepared.chunks.map TextChunk.content) replies := by
  have isCut := @chunkText_eq sha256 text normalized maxChars overlapChars bounds overlap normal
  have isCutAgain := @chunkText_eq sha256 _ _ maxChars overlapChars bounds overlap
    (normalizeDocument_normalized normal)
  have some_ := (normalizeDocument_eq_ok.mp normal).2
  refine ⟨_, isCut, (chunked_chunkLoop (by omega) some_).chunksOf, ?_, isCutAgain, ?_⟩
  · intro rounds enough
    induction rounds, enough using Nat.le_induction with
    | base => rfl
    | succ rounds enough ih =>
      rw [chunkLoop_succ sha256 normalized overlapChars (by omega) rounds 0 [] (by omega)]
      exact ih
  · intro session pipeline replies vectors inputTokens prepared isText isMax isOverlap valid
    obtain ⟨again, normalAgain, stored, -⟩ := prepare_chunks valid
    simp only [Session.indexArguments, isText, isMax, isOverlap] at normalAgain stored
    have sameNormal : again = normalized := Except.ok.inj (normalAgain.symm.trans normal)
    rw [sameNormal, isCutAgain, Except.ok.injEq] at stored
    have sameChunks := stored.symm
    refine ⟨sameChunks, ?_⟩
    rw [Session.embed, isText, isMax, isOverlap, isCut, sameChunks]
    rfl

/-- Chunking a document of two lines. -/
theorem chunkText_lossless_lines : ∃ chunks,
    chunkText (fun _ => 0) [0x61, 0x0d, 0x0a, 0x62, 0x20] 200 120 = .ok chunks ∧
      ChunksOf [0x61, 0x0a, 0x62] 200 chunks := by
  have normal : normalizeDocument [0x61, 0x0d, 0x0a, 0x62, 0x20] = .ok [0x61, 0x0a, 0x62] := by
    decide
  obtain ⟨chunks, isCut, chunksOf, -⟩ := @chunkText_lossless (fun _ => 0) _ _ 200 120
    ⟨by decide, by decide⟩ (by decide) normal
  exact ⟨chunks, isCut, chunksOf⟩

section TwoWords

variable {first blanks second start : Nat}

end TwoWords

end Document

end Nexora.Knowledge
