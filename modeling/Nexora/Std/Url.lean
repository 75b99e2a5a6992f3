import Mathlib

/-!
# URL references and their paths

A URL reference is split as RFC 3986 splits it: scheme, authority, path and whatever follows the
path. The segments of a path stand between its slashes. A client that resolves a reference walks
its segments and drops the dot segments: one dot stays where it is, two dots leave the segment
before them.
-/

namespace Nexora.Std

/-- A URL reference taken apart. `rest` is the query and the fragment, with their marks. -/
structure UrlReference where
  scheme : Option (List Char)
  authority : Option (List Char)
  path : List Char
  rest : List Char
  deriving DecidableEq

namespace UrlReference

/-- The characters that end an authority. -/
def endsAuthority (character : Char) : Bool :=
  character = '/' || character = '?' || character = '#'

/-- The characters that end a path. -/
def endsPath (character : Char) : Bool := character = '?' || character = '#'

/-- The characters that end a scheme. -/
def endsScheme (character : Char) : Bool := character = ':' || endsAuthority character

/-- The scheme of a URL, and what follows it. -/
def splitScheme (url : List Char) : Option (List Char) × List Char :=
  match url.span fun character => !endsScheme character with
  | (first :: scheme, ':' :: rest) => (some (first :: scheme), rest)
  | _ => (none, url)

/-- The authority of what follows a scheme, and what follows it. -/
def splitAuthority : List Char → Option (List Char) × List Char
  | '/' :: '/' :: rest =>
    let parts := rest.span fun character => !endsAuthority character
    (some parts.1, parts.2)
  | rest => (none, rest)

/-- A URL reference as it is written. -/
def ofText (url : List Char) : UrlReference :=
  let scheme := splitScheme url
  let authority := splitAuthority scheme.2
  let path := authority.2.span fun character => !endsPath character
  ⟨scheme.1, authority.1, path.1, path.2⟩

end UrlReference

/-- What a list is split into at the first element that fails a condition. -/
theorem span_append {α : Type} (holds : α → Bool) (before after : List α)
    (all : ∀ item ∈ before, holds item = true) (stops : ∀ item ∈ after.head?, holds item = false) :
    (before ++ after).span holds = (before, after) := by
  rw [List.span_eq_takeWhile_dropWhile]
  induction before with
  | nil =>
    cases after with
    | nil => rfl
    | cons item rest =>
      have stop := stops item rfl
      simp [stop]
  | cons item rest ih =>
    have first := all item (by simp)
    have others := ih fun other member => all other (by simp [member])
    simp only [Prod.mk.injEq] at others
    simp [first, others]

/-- A URL with an authority: the parts it is made of, none of which runs into the next. -/
structure HttpUrl where
  scheme : List Char
  authority : List Char
  path : List Char
  rest : List Char
  scheme_some : scheme ≠ []
  scheme_ends : ∀ character ∈ scheme, UrlReference.endsScheme character = false
  authority_ends : ∀ character ∈ authority, UrlReference.endsAuthority character = false
  path_starts : ∀ character ∈ path.head?, character = '/'
  path_ends : ∀ character ∈ path, UrlReference.endsPath character = false
  rest_starts : ∀ character ∈ rest.head?, UrlReference.endsPath character = true

namespace HttpUrl

variable (url : HttpUrl)

/-- The URL as it is written. -/
def text : List Char :=
  url.scheme ++ ':' :: '/' :: '/' :: (url.authority ++ (url.path ++ url.rest))

/-- A URL of a given authority is split after it, whatever follows. -/
theorem ofText_authority (after : List Char)
    (starts : ∀ character ∈ after.head?, UrlReference.endsAuthority character = true) :
    UrlReference.ofText (url.scheme ++ ':' :: '/' :: '/' :: (url.authority ++ after)) =
      ⟨some url.scheme, some url.authority,
        (after.span fun character => !UrlReference.endsPath character).1,
        (after.span fun character => !UrlReference.endsPath character).2⟩ := by
  have scheme := span_append (fun character => !UrlReference.endsScheme character)
    url.scheme (':' :: '/' :: '/' :: (url.authority ++ after))
    (fun character member => by simp [url.scheme_ends character member])
    (fun character member => by
      cases Option.mem_some.mp member
      rfl)
  have authority := span_append (fun character => !UrlReference.endsAuthority character)
    url.authority after
    (fun character member => by simp [url.authority_ends character member])
    (fun character member => by simp [starts character member])
  obtain ⟨first, others, isScheme⟩ := List.exists_cons_of_ne_nil url.scheme_some
  simp only [UrlReference.ofText, UrlReference.splitScheme, scheme]
  simp only [isScheme, UrlReference.splitAuthority, authority]

/-- Splitting a URL that goes on with a slash. -/
theorem ofText_append_slash (tail : List Char) :
    UrlReference.ofText (url.text ++ '/' :: tail) =
      ⟨some url.scheme, some url.authority,
        ((url.path ++ url.rest ++ '/' :: tail).span
          fun character => !UrlReference.endsPath character).1,
        ((url.path ++ url.rest ++ '/' :: tail).span
          fun character => !UrlReference.endsPath character).2⟩ := by
  have written : url.text ++ '/' :: tail =
      url.scheme ++ ':' :: '/' :: '/' :: (url.authority ++
        (url.path ++ url.rest ++ '/' :: tail)) := by
    simp [text]
  rw [written, ofText_authority]
  intro character member
  rw [List.append_assoc, List.head?_append] at member
  cases isPath : url.path.head? with
  | some first =>
    rw [isPath, Option.some_or, Option.mem_some] at member
    rw [← member, url.path_starts first isPath]
    rfl
  | none =>
    rw [isPath, Option.none_or, List.head?_append] at member
    cases isRest : url.rest.head? with
    | some first =>
      rw [isRest, Option.some_or, Option.mem_some] at member
      have ends := url.rest_starts first isRest
      simp only [UrlReference.endsPath, Bool.or_eq_true, decide_eq_true_eq] at ends
      rw [← member]
      rcases ends with rfl | rfl <;> rfl
    | none =>
      rw [isRest, Option.none_or, List.head?_cons, Option.mem_some] at member
      rw [← member]
      rfl

/-- Nothing of a URL that goes on after its path lies outside the path if neither part of it
holds a mark that ends one. -/
theorem rest_append_slash (tail : List Char) :
    (UrlReference.ofText (url.text ++ '/' :: tail)).rest = [] ↔
      url.rest = [] ∧ ∀ character ∈ tail, UrlReference.endsPath character = false := by
  rw [ofText_append_slash, List.span_eq_takeWhile_dropWhile]
  simp only [List.dropWhile_eq_nil_iff, List.mem_append, List.mem_cons, Bool.not_eq_true']
  constructor
  · intro plain
    constructor
    · cases isRest : url.rest with
      | nil => rfl
      | cons first others =>
        have starts := url.rest_starts first (by simp [isRest])
        rw [plain first (.inl (.inr (by simp [isRest])))] at starts
        cases starts
    · exact fun character member => plain character (.inr (.inr member))
  · rintro ⟨bare, plain⟩ character ((inPath | inRest) | rfl | inTail)
    · exact url.path_ends character inPath
    · rw [bare] at inRest
      cases inRest
    · rfl
    · exact plain character inTail

/-- A URL that goes on after its path, and nowhere else, has all of that in its path. -/
theorem path_append_slash {tail : List Char}
    (bare : (UrlReference.ofText (url.text ++ '/' :: tail)).rest = []) :
    (UrlReference.ofText (url.text ++ '/' :: tail)).path = url.path ++ '/' :: tail := by
  have plain := ((url.rest_append_slash tail).mp bare).1
  rw [ofText_append_slash, List.span_eq_takeWhile_dropWhile] at bare ⊢
  have whole := List.takeWhile_append_dropWhile
    (p := fun character => !UrlReference.endsPath character)
    (l := url.path ++ url.rest ++ '/' :: tail)
  dsimp only at bare ⊢
  rw [bare, List.append_nil] at whole
  rw [whole, plain, List.append_nil]

end HttpUrl

/-- The segments of a path: what stands after each of its slashes. -/
def pathSegments (path : List Char) : List (List Char) := (path.splitOn '/').tail

/-- What follows a slash adds its own segments. -/
theorem pathSegments_append_slash (path tail : List Char) :
    pathSegments (path ++ '/' :: tail) = pathSegments path ++ tail.splitOn '/' := by
  rw [pathSegments, List.splitOn_append_cons_self, pathSegments,
    List.tail_append_of_ne_nil (List.splitOn_ne_nil '/' path)]

/-- What stands between two separators holds none and stands in the text. -/
theorem splitOn_part {α : Type} [BEq α] [LawfulBEq α] {separator : α} {items part : List α}
    (member : part ∈ items.splitOn separator) : separator ∉ part ∧ part <:+: items := by
  -- The first part is even a prefix, which is what carries the induction.
  have parts : ∀ first others, items.splitOn separator = first :: others →
      (separator ∉ first ∧ first <+: items) ∧
        ∀ part ∈ others, separator ∉ part ∧ part <:+: items := by
    clear member
    induction items with
    | nil =>
      intro first others split
      rw [List.splitOn_nil, List.cons.injEq] at split
      obtain ⟨rfl, rfl⟩ := split
      simp
    | cons item rest ih =>
      intro first others split
      obtain ⟨firstRest, othersRest, splitRest⟩ :=
        List.exists_cons_of_ne_nil (List.splitOn_ne_nil separator rest)
      obtain ⟨⟨absent, starts⟩, later⟩ := ih firstRest othersRest splitRest
      rw [List.splitOn_cons_eq_if_modifyHead, splitRest] at split
      by_cases same : item = separator
      · simp only [same, beq_self_eq_true, if_true, List.cons.injEq] at split
        obtain ⟨rfl, rfl⟩ := split
        refine ⟨by simp, fun part member => ?_⟩
        rcases List.mem_cons.mp member with rfl | inLater
        · exact ⟨absent, List.infix_cons starts.isInfix⟩
        · exact ⟨(later part inLater).1, List.infix_cons (later part inLater).2⟩
      · simp only [beq_iff_eq, same, if_false, List.modifyHead_cons, List.cons.injEq] at split
        obtain ⟨rfl, rfl⟩ := split
        refine ⟨⟨by simp [absent, Ne.symm same], ?_⟩, fun part member => ?_⟩
        · exact (List.prefix_cons_inj item).mpr starts
        · exact ⟨(later part member).1, List.infix_cons (later part member).2⟩
  obtain ⟨first, others, split⟩ :=
    List.exists_cons_of_ne_nil (List.splitOn_ne_nil separator items)
  obtain ⟨⟨absent, starts⟩, later⟩ := parts first others split
  rw [split] at member
  rcases List.mem_cons.mp member with rfl | inLater
  · exact ⟨absent, starts.isInfix⟩
  · exact later part inLater

/-- One segment of a walk, from the segments walked down before, the last one first. -/
def walk (above : List (List Char)) (segment : List Char) : List (List Char) :=
  if segment = ['.'] then above else if segment = ['.', '.'] then above.tail else segment :: above

/-- The directory a path leads into. -/
def directory (segments : List (List Char)) : List (List Char) := (segments.foldl walk []).reverse

/-- A segment that a walk does not walk down. -/
def IsDotSegment (segment : List Char) : Prop := segment = ['.'] ∨ segment = ['.', '.']

instance (segment : List Char) : Decidable (IsDotSegment segment) :=
  inferInstanceAs (Decidable (_ ∨ _))

/-- The removal of dot segments. A path that ends with one leads to a directory, which is written
with a slash at its end. -/
def removeDotSegments (segments : List (List Char)) : List (List Char) :=
  if ∃ last ∈ segments.getLast?, IsDotSegment last then directory segments ++ [[]]
  else directory segments

theorem walk_of_ordinary {segment : List Char} (ordinary : ¬ IsDotSegment segment)
    (above : List (List Char)) : walk above segment = segment :: above := by
  unfold walk
  rw [if_neg fun dot => ordinary (.inl dot), if_neg fun dots => ordinary (.inr dots)]

variable {segments others : List (List Char)}

/-- Ordinary segments are walked down one after the other. -/
theorem directory_append (ordinary : ∀ segment ∈ others, ¬ IsDotSegment segment) :
    directory (segments ++ others) = directory segments ++ others := by
  have walked : ∀ above, others.foldl walk above = others.reverse ++ above := by
    induction others with
    | nil => simp
    | cons segment rest ih =>
      intro above
      rw [List.foldl_cons, walk_of_ordinary (ordinary segment (by simp)),
        ih fun other member => ordinary other (by simp [member])]
      simp
  unfold directory
  rw [List.foldl_append, walked]
  simp

/-- A path that goes on with ordinary segments keeps them in place. -/
theorem removeDotSegments_append (some_ : others ≠ [])
    (ordinary : ∀ segment ∈ others, ¬ IsDotSegment segment) :
    removeDotSegments (segments ++ others) = directory segments ++ others := by
  have last : ¬ ∃ last ∈ (segments ++ others).getLast?, IsDotSegment last := by
    rintro ⟨last, isLast, dot⟩
    rw [List.getLast?_append_of_ne_nil _ some_] at isLast
    exact ordinary last (List.mem_of_getLast? isLast) dot
  rw [removeDotSegments, if_neg last, directory_append ordinary]

/-- No dot segment is left of a path. -/
theorem removeDotSegments_ordinary (segments : List (List Char)) :
    ∀ segment ∈ removeDotSegments segments, ¬ IsDotSegment segment := by
  have walked : ∀ segments above : List (List Char),
      (∀ segment ∈ above, ¬ IsDotSegment segment) →
      ∀ segment ∈ segments.foldl walk above, ¬ IsDotSegment segment := by
    intro segments
    induction segments with
    | nil =>
      intro above holds
      exact holds
    | cons segment rest ih =>
      intro above holds
      rw [List.foldl_cons]
      apply ih
      intro other member
      unfold walk at member
      split at member
      · exact holds other member
      · split at member
        · exact holds other (List.mem_of_mem_tail member)
        · rename_i noDot noDots
          rcases List.mem_cons.mp member with rfl | earlier
          · exact fun dot => dot.elim noDot noDots
          · exact holds other earlier
  intro segment member
  have inside : ∀ segment ∈ directory segments, ¬ IsDotSegment segment := by
    intro segment member
    exact walked segments [] (by simp) segment (List.mem_reverse.mp member)
  unfold removeDotSegments at member
  split at member
  · rcases List.mem_append.mp member with earlier | last
    · exact inside segment earlier
    · rw [List.mem_singleton.mp last]
      decide
  · exact inside segment member

end Nexora.Std
