import Nexora.Data.Json
import Nexora.Std.Fallible

/-!
# URLs as Python takes them apart

`urllib.parse` splits a URL into its five parts, writes the parts together again and resolves a
reference against a base. It refuses an authority whose brackets do not hold an address or whose
characters normalise to a delimiter. That check enters as `netlocFault`, which gives the text of
the error.
-/

namespace Nexora.Urllib

open Nexora.Std

theorem codePoint_lt (character : Char) : character.val.toNat < 0x110000 := by
  rcases character.valid with low | high
  · exact lt_trans low (by decide)
  · exact high.2

/-- The code point of a character. -/
def mark (character : Char) : Fin 0x110000 := ⟨character.val.toNat, codePoint_lt character⟩

/-- `str.partition`: what stands before a mark's first place, and what follows it. -/
def partition (separator : Fin 0x110000) (text : PyStr) : PyStr × PyStr :=
  (text.takeWhile fun point => point ≠ separator,
    (text.dropWhile fun point => point ≠ separator).tail)

/-- What stands before a mark's last place, none without a mark. -/
def beforeLast (separator : Fin 0x110000) (text : PyStr) : PyStr :=
  (text.reverse.dropWhile fun point => point ≠ separator).tail.reverse

/-- What follows a mark's last place, all of a text without one. -/
def afterLast (separator : Fin 0x110000) (text : PyStr) : PyStr :=
  (text.reverse.takeWhile fun point => point ≠ separator).reverse

/-- The five parts of a URL. -/
structure SplitResult where
  scheme : PyStr
  netloc : PyStr
  path : PyStr
  query : PyStr
  fragment : PyStr
  deriving DecidableEq

/-- What `urlsplit` looks at of a URL: nothing of the control characters and spaces it starts
with, and nowhere a tab or a line break. -/
def sanitized (url : PyStr) : PyStr :=
  (url.dropWhile fun point => point.val ≤ 0x20).filter fun point =>
    point.val ≠ 0x09 ∧ point.val ≠ 0x0a ∧ point.val ≠ 0x0d

/-- An ASCII letter. -/
def isAlpha (point : Fin 0x110000) : Bool :=
  (0x41 ≤ point.val && point.val ≤ 0x5a) || (0x61 ≤ point.val && point.val ≤ 0x7a)

/-- `scheme_chars`. -/
def isSchemeChar (point : Fin 0x110000) : Bool :=
  isAlpha point || (0x30 ≤ point.val && point.val ≤ 0x39) || point = mark '+' || point = mark '-' ||
    point = mark '.'

/-- `str.lower` of a scheme's character. -/
def lower (point : Fin 0x110000) : Fin 0x110000 :=
  if 0x41 ≤ point.val ∧ point.val ≤ 0x5a then point + 0x20 else point

/-- The scheme of a URL, and what follows it. -/
def splitScheme (default url : PyStr) : PyStr × PyStr :=
  let parts := partition (mark ':') url
  if mark ':' ∈ url ∧ parts.1.head?.any isAlpha = true ∧ parts.1.all isSchemeChar = true then
    (parts.1.map lower, parts.2)
  else (default, url)

/-- The characters that end an authority. -/
def endsNetloc (point : Fin 0x110000) : Bool :=
  point = mark '/' || point = mark '?' || point = mark '#'

/-- The authority of what follows a scheme, and what follows it. -/
def splitNetloc (url : PyStr) : PyStr × PyStr :=
  if url.take 2 = py "//" then
    ((url.drop 2).takeWhile fun point => !endsNetloc point,
      (url.drop 2).dropWhile fun point => !endsNetloc point)
  else ([], url)

/-- The parts of a URL whose scheme is a default unless it has its own. -/
def parts (default url : PyStr) : SplitResult :=
  let scheme := splitScheme default (sanitized url)
  let netloc := splitNetloc scheme.2
  let fragment := partition (mark '#') netloc.2
  let query := partition (mark '?') fragment.1
  ⟨scheme.1, netloc.1, query.1, query.2, fragment.2⟩

/-- `urlsplit`. -/
def urlsplit (netlocFault : PyStr → Option String) (default url : PyStr) :
    Except String SplitResult :=
  match netlocFault (parts default url).netloc with
  | some fault => .error fault
  | none => .ok (parts default url)

/-- The user name of an authority, if it has one. -/
def SplitResult.username (result : SplitResult) : Option PyStr :=
  if mark '@' ∈ result.netloc then
    some (partition (mark ':') (beforeLast (mark '@') result.netloc)).1
  else none

/-- The password of an authority, if it has one. -/
def SplitResult.password (result : SplitResult) : Option PyStr :=
  if mark '@' ∈ result.netloc ∧ mark ':' ∈ beforeLast (mark '@') result.netloc then
    some (partition (mark ':') (beforeLast (mark '@') result.netloc)).2
  else none

/-- The host of an authority as it is written, before its letters are put into lower case. -/
def SplitResult.host (result : SplitResult) : PyStr :=
  let hostinfo := afterLast (mark '@') result.netloc
  if mark '[' ∈ hostinfo then (partition (mark ']') (partition (mark '[') hostinfo).2).1
  else (partition (mark ':') hostinfo).1

/-- `uses_relative`. -/
def usesRelative : List PyStr :=
  [py "", py "ftp", py "http", py "gopher", py "nntp", py "imap", py "wais", py "file", py "https",
    py "shttp", py "mms", py "prospero", py "rtsp", py "rtsps", py "rtspu", py "sftp", py "svn",
    py "svn+ssh", py "ws", py "wss"]

/-- `uses_netloc`. -/
def usesNetloc : List PyStr :=
  [py "", py "ftp", py "http", py "gopher", py "nntp", py "telnet", py "imap", py "wais", py "file",
    py "mms", py "https", py "shttp", py "snews", py "prospero", py "rtsp", py "rtsps", py "rtspu",
    py "rsync", py "svn", py "svn+ssh", py "sftp", py "nfs", py "git", py "git+ssh", py "ws",
    py "wss"]

/-- `uses_params`. -/
def usesParams : List PyStr :=
  [py "", py "ftp", py "hdl", py "prospero", py "http", py "imap", py "https", py "shttp",
    py "rtsp", py "rtsps", py "rtspu", py "sip", py "sips", py "mms", py "sftp", py "tel"]

/-- A URL's parts with the parameters of its last segment taken off its path. -/
structure ParseResult extends SplitResult where
  params : PyStr

/-- `_splitparams`: the parameters follow the first semicolon of the last segment. -/
def splitParams (path : PyStr) : PyStr × PyStr :=
  let segment := partition (mark ';') (afterLast (mark '/') path)
  (path.take (path.length - (afterLast (mark '/') path).length) ++ segment.1, segment.2)

/-- `urlparse`. -/
def urlparse (netlocFault : PyStr → Option String) (default url : PyStr) :
    Except String ParseResult := do
  let result ← urlsplit netlocFault default url
  if result.scheme ∈ usesParams then
    let path := splitParams result.path
    pure ⟨{ result with path := path.1 }, path.2⟩
  else pure ⟨result, []⟩

/-- `urlunsplit`. -/
def urlunsplit (result : SplitResult) : PyStr :=
  let path :=
    if result.netloc ≠ [] then
      py "//" ++ result.netloc ++
        (if result.path ≠ [] ∧ result.path.head? ≠ some (mark '/') then mark '/' :: result.path
        else result.path)
    else if result.path.take 2 = py "//" ∨ result.scheme ≠ [] ∧ result.scheme ∈ usesNetloc ∧
        (result.path = [] ∨ result.path.head? = some (mark '/')) then
      py "//" ++ result.path
    else result.path
  (if result.scheme ≠ [] then result.scheme ++ py ":" else []) ++ path ++
    (if result.query ≠ [] then py "?" ++ result.query else []) ++
    (if result.fragment ≠ [] then py "#" ++ result.fragment else [])

/-- `urlunparse`. -/
def urlunparse (result : ParseResult) : PyStr :=
  urlunsplit { result.toSplitResult with
    path := if result.params ≠ [] then result.path ++ py ";" ++ result.params else result.path }

/-- The segments of a path that is resolved against a base's path. -/
def mergedSegments (basePath path : PyStr) : List PyStr :=
  if path.head? = some (mark '/') then path.splitOn (mark '/')
  else
    let directory := basePath.splitOn (mark '/')
    let directory := if directory.getLast? = some [] then directory else directory.dropLast
    match directory ++ path.splitOn (mark '/') with
    | [] => []
    | first :: rest =>
      first :: (rest.dropLast.filter fun segment => segment ≠ []) ++ rest.getLast?.toList

/-- One segment of a path, from the segments before it, the last one first. -/
def resolveSegment (above : List PyStr) (segment : PyStr) : List PyStr :=
  if segment = py ".." then above.tail else if segment = py "." then above else segment :: above

/-- A path without its dot segments. A path that ended with one names a directory. -/
def resolvedPath (segments : List PyStr) : PyStr :=
  let resolved := (segments.foldl resolveSegment []).reverse
  let resolved := if segments.getLast? ∈ [some (py "."), some (py "..")] then resolved ++ [[]]
    else resolved
  let path := (py "/").intercalate resolved
  if path = [] then py "/" else path

/-- `urljoin`. A reference with another scheme than the base's stays as it is. -/
def urljoin (netlocFault : PyStr → Option String) (base url : PyStr) : Except String PyStr :=
  if base = [] then pure url
  else if url = [] then pure base
  else do
    let origin ← urlparse netlocFault [] base
    let reference ← urlparse netlocFault origin.scheme url
    let netloc := if reference.scheme ∈ usesNetloc then origin.netloc else reference.netloc
    if reference.scheme ≠ origin.scheme ∨ reference.scheme ∉ usesRelative then pure url
    else if reference.scheme ∈ usesNetloc ∧ reference.netloc ≠ [] then pure (urlunparse reference)
    else if reference.path = [] ∧ reference.params = [] then
      pure (urlunparse ⟨⟨reference.scheme, netloc, origin.path,
        if reference.query = [] then origin.query else reference.query, reference.fragment⟩,
        origin.params⟩)
    else
      pure (urlunparse ⟨⟨reference.scheme, netloc,
        resolvedPath (mergedSegments origin.path reference.path), reference.query,
        reference.fragment⟩, reference.params⟩)

variable {before : PyStr} {point : Fin 0x110000}

/-- A mark splits a text at its first place. -/
theorem partition_append {separator : Fin 0x110000} (absent : separator ∉ before) (after : PyStr) :
    partition separator (before ++ separator :: after) = (before, after) := by
  have others : ∀ point ∈ before, decide (point ≠ separator) = true := by
    intro point member
    rw [decide_eq_true_eq]
    rintro rfl
    exact absent member
  unfold partition
  rw [List.takeWhile_append_of_pos others, List.dropWhile_append_of_pos others]
  simp

theorem isSchemeChar_kept (allowed : isSchemeChar point = true) :
    0x20 < point.val ∧ point ≠ mark ':' := by
  constructor
  · simp only [isSchemeChar, isAlpha, Bool.or_eq_true, Bool.and_eq_true, decide_eq_true_eq]
      at allowed
    rcases allowed with (((letter | digit) | rfl) | rfl) | rfl
    · omega
    · omega
    all_goals decide
  · rintro rfl
    exact absurd allowed (by decide)

theorem sanitized_append (kept : ∀ point ∈ before, 0x20 < point.val) (some_ : before ≠ [])
    (after : PyStr) :
    sanitized (before ++ after) = before ++ after.filter fun point =>
      point.val ≠ 0x09 ∧ point.val ≠ 0x0a ∧ point.val ≠ 0x0d := by
  obtain ⟨first, rest, rfl⟩ := List.exists_cons_of_ne_nil some_
  have visible := kept first (by simp)
  have same : (first :: rest).filter (fun point : Fin 0x110000 =>
      decide (point.val ≠ 0x09 ∧ point.val ≠ 0x0a ∧ point.val ≠ 0x0d)) = first :: rest := by
    rw [List.filter_eq_self]
    intro point member
    have above := kept point member
    rw [decide_eq_true_eq]
    omega
  unfold sanitized
  rw [List.cons_append, List.dropWhile_cons_of_neg (by simp only [decide_eq_true_eq]; omega),
    ← List.cons_append, List.filter_append, same]

/-- A URL that starts with a scheme has it, in lower case. -/
theorem parts_scheme {scheme : PyStr} (starts : scheme.head?.any isAlpha = true)
    (allowed : scheme.all isSchemeChar = true) (default after : PyStr) :
    (parts default (scheme ++ mark ':' :: after)).scheme = scheme.map lower := by
  rw [List.all_eq_true] at allowed
  have some_ : scheme ≠ [] := by
    rintro rfl
    cases starts
  have clean : sanitized (scheme ++ mark ':' :: after) = scheme ++ mark ':' :: (after.filter
      fun point => point.val ≠ 0x09 ∧ point.val ≠ 0x0a ∧ point.val ≠ 0x0d) := by
    rw [sanitized_append (fun point member => (isSchemeChar_kept (allowed point member)).1) some_]
    rfl
  have absent : mark ':' ∉ scheme := fun member => (isSchemeChar_kept (allowed _ member)).2 rfl
  unfold parts
  dsimp only
  rw [clean, splitScheme]
  simp only [partition_append absent]
  rw [if_pos ⟨by simp, starts, List.all_eq_true.mpr allowed⟩]

/-- A scheme of its own is not empty, so the default is found in its absence only. -/
theorem parts_scheme_default (default url : PyStr) :
    (parts default url).scheme =
      if (parts [] url).scheme = [] then default else (parts [] url).scheme := by
  unfold parts splitScheme
  dsimp only
  by_cases own : mark ':' ∈ sanitized url ∧
      (partition (mark ':') (sanitized url)).1.head?.any isAlpha = true ∧
      (partition (mark ':') (sanitized url)).1.all isSchemeChar = true
  · rw [if_pos own, if_pos own]
    have some_ : (partition (mark ':') (sanitized url)).1 ≠ [] := by
      intro empty
      rw [empty] at own
      cases own.2.1
    rw [if_neg (by rwa [List.map_eq_nil_iff])]
  · rw [if_neg own, if_neg own, if_pos rfl]

variable {default url : PyStr} {result : ParseResult}

/-- An authority holds no mark that ends one, and nothing that is dropped from a URL. -/
theorem parts_netloc_point (member : point ∈ (parts default url).netloc) :
    endsNetloc point = false ∧ point.val ≠ 0x09 ∧ point.val ≠ 0x0a ∧ point.val ≠ 0x0d := by
  have inScheme : ∀ default text, (splitScheme default text).2 ⊆ text := by
    intro default text
    unfold splitScheme
    dsimp only
    split
    · exact fun point inside =>
        (List.dropWhile_suffix _).subset (List.mem_of_mem_tail inside)
    · exact fun point inside => inside
  unfold parts splitNetloc at member
  dsimp only at member
  split at member
  · have ends := List.mem_takeWhile_imp member
    have inside := inScheme _ _ (List.mem_of_mem_drop ((List.takeWhile_subset _) member))
    unfold sanitized at inside
    rw [List.mem_filter, decide_eq_true_eq] at inside
    exact ⟨by simpa using ends, inside.2⟩
  · cases member

/-- A URL that is written with a scheme starts with it. -/
theorem urlunparse_scheme (some_ : result.scheme ≠ []) :
    ∃ after, urlunparse result = result.scheme ++ mark ':' :: after := by
  unfold urlunparse urlunsplit
  dsimp only
  rw [if_pos some_]
  exact ⟨_, by simp only [List.append_assoc]; rfl⟩

variable {netlocFault : PyStr → Option String}

theorem urlsplit_eq_ok {result : SplitResult} :
    urlsplit netlocFault default url = .ok result ↔
      netlocFault result.netloc = none ∧ parts default url = result := by
  unfold urlsplit
  split
  · rename_i fault faulty
    constructor
    · intro impossible
      cases impossible
    · rintro ⟨fine, rfl⟩
      rw [fine] at faulty
      cases faulty
  · rename_i fine
    constructor
    · intro same
      cases same
      exact ⟨fine, rfl⟩
    · rintro ⟨-, rfl⟩
      rfl

/-- Taking the parameters off a path leaves the scheme. -/
theorem urlparse_scheme (ok : urlparse netlocFault default url = .ok result) :
    result.scheme = (parts default url).scheme := by
  unfold urlparse at ok
  rw [bind_eq_ok] at ok
  obtain ⟨whole, split, rest⟩ := ok
  obtain ⟨-, rfl⟩ := urlsplit_eq_ok.mp split
  split at rest
  all_goals
    rw [pure_eq_ok] at rest
    exact rest ▸ rfl

/-- A reference of another scheme than the base's is left as it is, and any other becomes a URL
of the base's scheme. -/
theorem urljoin_scheme {base joined : PyStr} (some_ : (parts [] base).scheme ≠ [])
    (relative : (parts [] base).scheme ∈ usesRelative) (given : url ≠ [])
    (ok : urljoin netlocFault base url = .ok joined) :
    ((parts [] url).scheme ∉ [[], (parts [] base).scheme] ∧ joined = url) ∨
      ((parts [] url).scheme ∈ [[], (parts [] base).scheme] ∧
        ∃ after, joined = (parts [] base).scheme ++ mark ':' :: after) := by
  have written : base ≠ [] := by
    rintro rfl
    exact some_ rfl
  unfold urljoin at ok
  rw [if_neg written, if_neg given, bind_eq_ok] at ok
  obtain ⟨origin, parsedBase, ok⟩ := ok
  rw [bind_eq_ok] at ok
  obtain ⟨reference, parsedUrl, ok⟩ := ok
  have baseScheme := urlparse_scheme parsedBase
  have urlScheme := urlparse_scheme parsedUrl
  rw [parts_scheme_default, baseScheme] at urlScheme
  have own : reference.scheme = (parts [] base).scheme ↔
      (parts [] url).scheme ∈ [[], (parts [] base).scheme] := by
    rw [urlScheme, List.mem_cons, List.mem_singleton]
    split
    · rename_i empty
      simp [empty]
    · rename_i filled
      simp [filled]
  dsimp only at ok
  by_cases other : reference.scheme ≠ origin.scheme ∨ reference.scheme ∉ usesRelative
  · rw [if_pos other, pure_eq_ok] at ok
    left
    refine ⟨?_, ok.symm⟩
    intro inside
    have same := own.mpr inside
    rcases other with differs | unusual
    · exact differs (same.trans baseScheme.symm)
    · exact unusual (same ▸ relative)
  · rw [if_neg other] at ok
    rw [not_or, not_not, not_not] at other
    have same : reference.scheme = (parts [] base).scheme := other.1.trans baseScheme
    right
    refine ⟨own.mp same, ?_⟩
    have filled : reference.scheme ≠ [] := same ▸ some_
    obtain ⟨result, sameScheme, isJoined⟩ : ∃ result : ParseResult,
        result.scheme = reference.scheme ∧ urlunparse result = joined := by
      split at ok
      · rw [pure_eq_ok] at ok
        exact ⟨_, rfl, ok⟩
      · split at ok
        all_goals
          rw [pure_eq_ok] at ok
          refine ⟨_, ?_, ok⟩
          rfl
    obtain ⟨after, isText⟩ := urlunparse_scheme (sameScheme ▸ filled)
    exact ⟨after, by rw [← isJoined, isText, sameScheme, same]⟩

end Nexora.Urllib
