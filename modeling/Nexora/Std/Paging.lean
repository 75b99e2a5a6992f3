import Nexora.Std.Sorting

/-!
# Keyset paging

A page holds the first rows below a cursor, highest key first, and is read with one row more
than it shows: that row tells that there is another page, which begins below the last row
shown. The rows may change between two pages. A walk shows each key that is there throughout
exactly once as long as no two rows that are read share a key.
-/

namespace Nexora.Std

universe u v

variable {Row : Type u} {κ : Type v} [LinearOrder κ] (key : Row → κ)

/-- `ORDER BY key DESC LIMIT limit`. -/
def highest (limit : Nat) (rows : List Row) : List Row :=
  (orderBy (fun row => OrderDual.toDual (key row)) rows).take limit

/-- A page: the rows it shows, and the last of them when there are more. -/
structure Page (Row : Type u) where
  items : List Row
  last : Option Row

/-- The page of `limit` rows that one more row was read for. -/
def Page.ofRows (limit : Nat) (rows : List Row) : Page Row where
  items := rows.take limit
  last := if limit < rows.length then rows[limit - 1]? else none

/-- What a client that follows the pages has been shown, and the row it goes on below. -/
structure Walk (Row : Type u) where
  shown : List Row
  last : Option Row
  ended : Bool

/-- A client before the first page. -/
def Walk.start : Walk Row := ⟨[], none, false⟩

/-- The client has been shown a page. -/
def Walk.turn (walk : Walk Row) (page : Page Row) : Walk Row where
  shown := walk.shown ++ page.items
  last := page.last
  ended := page.last.isNone

/-- A row the client has yet to see. -/
def Walk.isBelow (walk : Walk Row) (row : Row) : Bool :=
  walk.last.all fun last => key row < key last

variable {key} {rows : List Row}

/-- Highest first, rows with distinct keys fall. -/
theorem highest_falling (distinct : (rows.map key).Nodup) (limit : Nat) :
    (highest key limit rows).Pairwise fun first second => key second < key first := by
  refine List.Pairwise.sublist (List.take_sublist _ _) ?_
  have sorted := orderBy_sorted (fun row => OrderDual.toDual (key row)) rows
  have apart : (orderBy (fun row => OrderDual.toDual (key row)) rows).Pairwise
      fun first second => key first ≠ key second :=
    List.pairwise_map.mp (((orderBy_perm _ rows).map key).nodup_iff.mpr distinct)
  refine (sorted.and apart).imp ?_
  rintro first second ⟨falls, other⟩
  exact lt_of_le_of_ne falls other.symm

/-- The one row read with `LIMIT 1` has the highest key. -/
theorem exists_highest {row : Row} (member : row ∈ rows) :
    ∃ top, (highest key 1 rows).head? = some top ∧ top ∈ rows ∧ key row ≤ key top := by
  have sorted := orderBy_sorted (fun row => OrderDual.toDual (key row)) rows
  have listed := (mem_orderBy fun row => OrderDual.toDual (key row)).mpr member
  unfold highest
  cases isOrder : orderBy (fun row => OrderDual.toDual (key row)) rows with
  | nil =>
    rw [isOrder] at listed
    cases listed
  | cons top rest =>
    have topMember : top ∈ rows := by
      rw [← mem_orderBy fun row => OrderDual.toDual (key row), isOrder]
      exact List.mem_cons_self
    refine ⟨top, rfl, topMember, ?_⟩
    rw [isOrder] at sorted listed
    rcases List.mem_cons.mp listed with rfl | later
    · exact le_refl _
    · exact (List.pairwise_cons.mp sorted).1 row later

/-- What a page shows of the rows it is read from. -/
structure Page.Shows (key : Row → κ) (page : Page Row) (rows : List Row) : Prop where
  listed : ∀ item ∈ page.items, item ∈ rows
  falling : page.items.Pairwise fun first second => key second < key first
  last : ∀ last, page.last = some last → last ∈ page.items ∧ ∀ item ∈ page.items, key last ≤ key item
  complete : ∀ row ∈ rows, row ∈ page.items ∨ ∃ last, page.last = some last ∧ key row < key last

/-- A page that is read with one row more shows the highest rows. -/
theorem Page.shows_ofRows (distinct : (rows.map key).Nodup) {limit : Nat} (positive : 0 < limit) :
    (Page.ofRows limit (highest key (limit + 1) rows)).Shows key rows := by
  have falling := highest_falling distinct rows.length
  have isWhole : highest key rows.length rows =
      orderBy (fun row => OrderDual.toDual (key row)) rows := by
    refine List.take_of_length_le (le_of_eq ?_)
    exact (orderBy_perm _ rows).length_eq
  have member (row : Row) : row ∈ highest key rows.length rows ↔ row ∈ rows := by
    rw [isWhole, mem_orderBy]
  have isPage : highest key (limit + 1) rows = (highest key rows.length rows).take (limit + 1) := by
    rw [isWhole, highest]
  rw [isPage]
  generalize highest key rows.length rows = whole at falling member
  have shown : (Page.ofRows limit (whole.take (limit + 1))).items = whole.take limit := by
    rw [Page.ofRows, List.take_take, Nat.min_eq_left (Nat.le_succ limit)]
  have more {last : Row} (isLast : (Page.ofRows limit (whole.take (limit + 1))).last = some last) :
      limit < whole.length ∧ whole[limit - 1]? = some last := by
    simp only [Page.ofRows, List.length_take] at isLast
    split at isLast
    · rw [List.getElem?_take_of_lt (by omega)] at isLast
      exact ⟨by omega, isLast⟩
    · cases isLast
  constructor
  case listed =>
    intro item shownItem
    rw [shown] at shownItem
    exact (member item).mp (List.mem_of_mem_take shownItem)
  case falling =>
    rw [shown]
    exact falling.sublist (List.take_sublist _ _)
  case last =>
    intro last isLast
    obtain ⟨enough, atLast⟩ := more isLast
    obtain ⟨inRange, rfl⟩ := List.getElem?_eq_some_iff.mp atLast
    rw [shown]
    refine ⟨List.mem_iff_getElem.mpr ⟨limit - 1, ?_, List.getElem_take⟩, fun item shownItem => ?_⟩
    · rw [List.length_take]
      omega
    obtain ⟨index, inside, rfl⟩ := List.mem_iff_getElem.mp shownItem
    rw [List.length_take] at inside
    rw [List.getElem_take]
    rcases Nat.lt_or_ge index (limit - 1) with before | same
    · exact (List.pairwise_iff_getElem.mp falling index (limit - 1) (by omega) (by omega) before).le
    · have isSame : index = limit - 1 := by omega
      simp only [isSame, le_refl]
  case complete =>
    intro row present
    obtain ⟨index, inside, rfl⟩ := List.mem_iff_getElem.mp ((member row).mpr present)
    rcases Nat.lt_or_ge index limit with early | late
    · left
      rw [shown, List.mem_iff_getElem]
      exact ⟨index, by rw [List.length_take]; omega, List.getElem_take⟩
    · right
      have inRange : limit - 1 < whole.length := by omega
      refine ⟨whole[limit - 1], ?_, ?_⟩
      · simp only [Page.ofRows, List.length_take]
        rw [if_pos (by omega), List.getElem?_take_of_lt (by omega), List.getElem?_eq_getElem inRange]
      · exact List.pairwise_iff_getElem.mp falling (limit - 1) index inRange inside (by omega)

/-- A client that follows the pages: what it has been shown falls, and a key that is there
throughout has been shown or is still to come. -/
structure Walk.Covers (key : Row → κ) (walk : Walk Row) (present : κ → Prop) : Prop where
  falling : walk.shown.Pairwise fun first second => key second < key first
  lowest : ∀ last, walk.last = some last → ∀ row ∈ walk.shown, key last ≤ key row
  opening : walk.last = none → walk.ended = false → walk.shown = []
  covered : ∀ value, present value → (∃ row ∈ walk.shown, key row = value) ∨
    walk.ended = false ∧ ∀ last, walk.last = some last → value < key last

theorem Walk.covers_start (present : κ → Prop) : (Walk.start : Walk Row).Covers key present where
  falling := List.Pairwise.nil
  lowest _ _ _ member := by cases member
  opening _ _ := rfl
  covered _ _ := .inr ⟨rfl, by simp [Walk.start]⟩

/-- The next page keeps to what a walk covers. -/
theorem Walk.Covers.turn {walk : Walk Row} {present : κ → Prop} {page : Page Row}
    (covers : walk.Covers key present) (goesOn : walk.ended = false)
    (shows : page.Shows key (rows.filter (walk.isBelow key)))
    (there : ∀ value, present value → ∃ row ∈ rows, key row = value) :
    (walk.turn page).Covers key present := by
  have falls : ∀ earlier ∈ walk.shown, ∀ item ∈ page.items, key item < key earlier := by
    intro earlier before item shown
    have passes := (List.mem_filter.mp (shows.listed item shown)).2
    cases isLast : walk.last with
    | none =>
      rw [covers.opening isLast goesOn] at before
      cases before
    | some last =>
      rw [Walk.isBelow, isLast, Option.all_some, decide_eq_true_eq] at passes
      exact lt_of_lt_of_le passes (covers.lowest last isLast earlier before)
  constructor
  case falling => exact List.pairwise_append.mpr ⟨covers.falling, shows.falling, falls⟩
  case lowest =>
    intro last isLast row member
    obtain ⟨shown, lowest⟩ := shows.last last isLast
    rcases List.mem_append.mp member with before | now
    · exact (falls row before last shown).le
    · exact lowest row now
  case opening =>
    intro none goesOn
    simp only [Walk.turn] at none goesOn
    rw [none] at goesOn
    cases goesOn
  case covered =>
    intro value isPresent
    rcases covers.covered value isPresent with ⟨row, member, same⟩ | ⟨-, under⟩
    · exact .inl ⟨row, List.mem_append_left _ member, same⟩
    · obtain ⟨row, member, rfl⟩ := there value isPresent
      have listed : row ∈ rows.filter (walk.isBelow key) := by
        refine List.mem_filter.mpr ⟨member, ?_⟩
        rw [Walk.isBelow, Option.all_eq_true]
        intro last isLast
        exact decide_eq_true (under last isLast)
      rcases shows.complete row listed with shown | ⟨last, isLast, isUnder⟩
      · exact .inl ⟨row, List.mem_append_right _ shown, rfl⟩
      · refine .inr ⟨by simp [Walk.turn, isLast], ?_⟩
        simp only [Walk.turn, isLast, Option.some.injEq]
        rintro _ rfl
        exact isUnder

end Nexora.Std
