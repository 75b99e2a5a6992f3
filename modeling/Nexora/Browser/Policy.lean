import Nexora.Std.Addresses
import Nexora.Std.Fallible

/-!
# The address policy of the browser runtime

Before the browser runtime opens a page it resolves the page's host and refuses to go on unless
every address it gets is a public one. The browser is then started with a rule that maps the host
to the first of these addresses. An IPv4 address is judged by its octets, an IPv6 address by the
characters of its text.
-/

namespace Nexora.Browser

open Nexora.Std

/-- `startsWith`. -/
def startsWith (value start : List Char) : Bool := start.isPrefixOf value

/-- `Number` of a text, where it is an integer. Addresses hold decimal digits; what the other
notations of a number stand for is a parameter. -/
def number (otherNotation : List Char → Option Int) (text : List Char) : Option Int :=
  if text ≠ [] ∧ text.all Char.isDigit = true then some (Nat.ofDigitChars 10 text 0)
  else otherNotation text

/-- `publicIPv4`. -/
def publicIPv4 (otherNotation : List Char → Option Int) (address : List Char) : Bool :=
  match (address.splitOn '.').map (number otherNotation) with
  | [some a, some b, some c, some d] =>
    if ∃ n ∈ [a, b, c, d], n < 0 ∨ 255 < n then false
    else
      !(a = 0 ∨ a = 10 ∨ a = 127 ∨ 224 ≤ a ∨
        (a = 100 ∧ 64 ≤ b ∧ b ≤ 127) ∨
        (a = 169 ∧ b = 254) ∨
        (a = 172 ∧ 16 ≤ b ∧ b ≤ 31) ∨
        (a = 192 ∧ b = 0 ∧ c = 0) ∨
        (a = 192 ∧ b = 0 ∧ c = 2) ∨
        (a = 192 ∧ b = 168) ∨
        (a = 198 ∧ (b = 18 ∨ b = 19)) ∨
        (a = 198 ∧ b = 51 ∧ c = 100) ∨
        (a = 203 ∧ b = 0 ∧ c = 113))
  | _ => false

/-- An octet in decimal without leading zeros, as `isIP` takes one. -/
def isOctet (text : List Char) : Bool :=
  text ≠ [] && text.all Char.isDigit && (text.length = 1 || text.head? ≠ some '0') &&
    text.length ≤ 3 && Nat.ofDigitChars 10 text 0 ≤ 255

/-- An IPv4 address in dot-decimal notation. -/
def isIPv4 (text : List Char) : Bool :=
  (text.splitOn '.').length = 4 && (text.splitOn '.').all isOctet

/-- A digit of a group. -/
def isHexDigit (character : Char) : Bool :=
  character.isDigit || ('a' ≤ character && character ≤ 'f') || ('A' ≤ character && character ≤ 'F')

/-- A group of an IPv6 address. -/
def isGroup (text : List Char) : Bool :=
  text ≠ [] && text.length ≤ 4 && text.all isHexDigit

/-- How many groups are written between the colons of a text. An IPv4 address at its end stands
for two. -/
def groupCount (text : List Char) : Option Nat :=
  let parts := if text = [] then [] else text.splitOn ':'
  if parts.all isGroup = true then some parts.length
  else if parts.dropLast.all isGroup = true ∧ parts.getLast?.any isIPv4 = true then
    some (parts.length + 1)
  else none

/-- The parts of a text before and after its first two colons in a row. -/
def splitCompressed : List Char → Option (List Char × List Char)
  | [] => none
  | character :: rest =>
    if character = ':' ∧ rest.head? = some ':' then some ([], rest.tail)
    else (splitCompressed rest).map fun parts => (character :: parts.1, parts.2)

/-- A character of a zone. -/
def isZoneChar (character : Char) : Bool :=
  character.isAlphanum || character = '-' || character = '.' || character = ':'

/-- An IPv6 address without a zone: eight groups, or fewer with two colons among them. -/
def isIPv6Address (address : List Char) : Bool :=
  match splitCompressed address with
  | none => groupCount address = some 8
  | some (left, right) =>
    (left = [] || (left.splitOn ':').all isGroup) &&
      ((groupCount left).bind fun before => (groupCount right).map fun after =>
        before + after).any fun count => count ≤ 7

/-- An IPv6 address, with or without a zone. -/
def isIPv6 (text : List Char) : Bool :=
  let zone := text.dropWhile fun character => character ≠ '%'
  (zone = [] || zone.tail ≠ [] && zone.tail.all isZoneChar) &&
    isIPv6Address (text.takeWhile fun character => character ≠ '%')

/-- `isIP`: the family of the address a text is, 0 if it is none. -/
def isIP (text : List Char) : Nat :=
  if isIPv4 text = true then 4 else if isIPv6 text = true then 6 else 0

/-- The texts `publicIPv6` refuses an address for starting with. -/
def refusedStarts : List String :=
  ["fc", "fd", "fe8", "fe9", "fea", "feb", "fec", "fed", "fee", "fef", "ff", "2001:db8:"]

/-- `publicIPv6`. -/
def publicIPv6 (otherNotation : List Char → Option Int) (address : List Char) : Bool :=
  let value := address.map Char.toLower
  if value = "::".toList ∨ value = "::1".toList ∨
      (refusedStarts.any fun start => startsWith value start.toList) = true then false
  else if startsWith value "::ffff:".toList then
    let mapped := value.drop 7
    isIP mapped = 4 && publicIPv4 otherNotation mapped
  else true

/-- `normalizeHostname`. -/
def normalizeHostname (hostname : List Char) : List Char :=
  if hostname.head? = some '[' ∧ hostname.getLast? = some ']' then (hostname.drop 1).dropLast
  else hostname

/-- What `resolvePublicHost` and `hostResolverRule` throw. -/
inductive HostError where
  | hostNotRoutable
  | hostUnresolvable
  /-- The resolver's own error. -/
  | resolver
  deriving DecidableEq, Repr

/-- One answer of a resolver. -/
structure LookupAddress where
  address : List Char
  family : Nat
  deriving DecidableEq

/-- `assertPublicAddress`. -/
def assertPublicAddress (otherNotation : List Char → Option Int) (entry : LookupAddress) :
    Except HostError Unit :=
  let valid := if entry.family = 4 then publicIPv4 otherNotation entry.address
    else if entry.family = 6 then publicIPv6 otherNotation entry.address else false
  raiseIf (valid = false) .hostNotRoutable

/-- A resolver: the answers for a name, none when it fails. -/
abbrev Resolver := List Char → Option (List LookupAddress)

/-- `resolvePublicHost`. -/
def resolvePublicHost (otherNotation : List Char → Option Int) (hostname : List Char)
    (resolver : Resolver) : Except HostError (List (List Char)) :=
  let normalized := normalizeHostname hostname
  let literal := isIP normalized
  if literal ≠ 0 then do
    assertPublicAddress otherNotation ⟨normalized, literal⟩
    pure [normalized]
  else do
    raiseIf (normalized.map Char.toLower = "localhost".toList) .hostNotRoutable
    let addresses ← orRaise (resolver normalized) .resolver
    raiseIf (addresses = []) .hostUnresolvable
    addresses.forM (assertPublicAddress otherNotation)
    pure (addresses.map LookupAddress.address).eraseDups

/-- `hostResolverRule`: how the browser is told where a host is. -/
def hostResolverRule (hostname address : List Char) : Except HostError (Option (List Char)) :=
  let normalized := normalizeHostname hostname
  if isIP normalized ≠ 0 then pure none
  else do
    let family := isIP address
    raiseIf (family = 0) .hostUnresolvable
    let mapped := if family = 6 then '[' :: address ++ [']'] else address
    pure (some ("MAP ".toList ++ normalized ++ ' ' :: mapped ++ ", EXCLUDE localhost".toList))

/-- What the server starts a browser with for a page of a host: the rule for the first of its
addresses. -/
def isolatedPage (otherNotation : List Char → Option Int) (hostname : List Char)
    (resolver : Resolver) : Except HostError (Option (List Char)) := do
  let publicAddresses ← resolvePublicHost otherNotation hostname resolver
  hostResolverRule hostname (publicAddresses.headD "undefined".toList)

/-! ## IPv4 texts -/

variable (otherNotation : List Char → Option Int) {address : IPv6}

/-- An octet's digits are read as the octet, and are an octet to `isIP`. -/
theorem number_octet (octet : Fin 256) :
    number otherNotation (Nat.toDigits 10 octet.val) = some (octet.val : Int) := by
  have digits : (Nat.toDigits 10 octet.val).all Char.isDigit = true := by
    rw [List.all_eq_true]
    exact fun character member => Nat.isDigit_of_mem_toDigits (by decide) (by decide) member
  rw [number, if_pos ⟨Nat.toDigits_ne_nil, digits⟩, Nat.ofDigitChars_ten_toDigits]

theorem isOctet_octet (octet : Fin 256) : isOctet (Nat.toDigits 10 octet.val) = true := by
  have all : ∀ octet : Fin 256, isOctet (Nat.toDigits 10 octet.val) = true := by decide +kernel
  exact all octet

theorem isIPv4_text (address : IPv4) : isIPv4 address.text = true := by
  unfold isIPv4
  rw [address.splitOn_text]
  simp [IPv4.octets, isOctet_octet]

/-- `publicIPv4` accepts the addresses that are set apart for no purpose. -/
theorem publicIPv4_text (address : IPv4) :
    publicIPv4 otherNotation address.text = true ↔ ¬ address.Special := by
  have first := address.first.isLt
  have second := address.second.isLt
  have third := address.third.isLt
  have fourth := address.fourth.isLt
  unfold publicIPv4
  rw [address.splitOn_text, IPv4.octets, address.special_iff]
  simp only [List.map_cons, List.map_nil, number_octet]
  generalize address.first.val = a at *
  generalize address.second.val = b at *
  generalize address.third.val = c at *
  generalize address.fourth.val = d at *
  have inside : ¬ ∃ n ∈ [(a : Int), b, c, d], n < 0 ∨ 255 < n := by
    simp only [List.mem_cons, List.not_mem_nil, or_false]
    rintro ⟨n, same, outside⟩
    omega
  rw [if_neg inside, Bool.not_eq_true', decide_eq_false_iff_not, not_iff_not]
  norm_cast
  -- Each test of an octet is the test of a block.
  have shared : (64 ≤ b ∧ b ≤ 127) ↔ b / 64 = 1 := by omega
  have private_ : (16 ≤ b ∧ b ≤ 31) ↔ b / 16 = 1 := by omega
  have benchmarking : (b = 18 ∨ b = 19) ↔ b / 2 = 9 := by omega
  have high : 224 ≤ a ↔ a / 16 = 14 ∨ a / 16 = 15 := by omega
  rw [shared, private_, benchmarking, high]
  apply Iff.of_eq
  ac_rfl

/-! ## IPv6 texts -/

/-- The first groups whose digits `publicIPv6` refuses. -/
def RefusedHead (group : Nat) : Prop :=
  group = 0xfc ∨ group = 0xfd ∨ group = 0xff ∨ (0xfc0 ≤ group ∧ group ≤ 0xfdf) ∨
    (0xfe8 ≤ group ∧ group ≤ 0xfff) ∨ (0xfc00 ≤ group ∧ group ≤ 0xfdff) ∨ 0xfe80 ≤ group

instance (group : Nat) : Decidable (RefusedHead group) := inferInstanceAs (Decidable (_ ∨ _))

/-- Three digits start with a refused text. -/
theorem refusedStarts_digits {x y z : Nat} (small : z < 16) (rest : List Char) :
    ((refusedStarts.dropLast.any fun start => startsWith
      (Nat.digitChar x :: Nat.digitChar y :: Nat.digitChar z :: rest) start.toList) = true) ↔
        x = 15 ∧ (y = 12 ∨ y = 13 ∨ (y = 14 ∧ 8 ≤ z) ∨ y = 15) := by
  by_cases top : x = 15
  · by_cases next : y = 14
    · simp [refusedStarts, startsWith, List.isPrefixOf, top, next]
      omega
    · simp [refusedStarts, startsWith, List.isPrefixOf, top, next]
  · simp [refusedStarts, startsWith, List.isPrefixOf, top]

/-- A group and a colon start with a refused text exactly when the group is refused. -/
theorem refusedStarts_group {group : Nat} (small : group < 0x10000) (rest : List Char) :
    ((refusedStarts.dropLast.any fun start =>
      startsWith (Nat.toDigits 16 group ++ ':' :: rest) start.toList) = true) ↔
        RefusedHead group := by
  unfold RefusedHead
  rcases toDigits_group small with
    ⟨_, digits⟩ | ⟨_, _, digits⟩ | ⟨_, _, digits⟩ | ⟨_, digits⟩
  all_goals rw [digits]
  · simp [refusedStarts, startsWith]
    omega
  · by_cases top : group / 0x10 = 15
    · simp [refusedStarts, startsWith, top]
      omega
    · simp [refusedStarts, startsWith, top]
      omega
  · rw [List.cons_append, List.cons_append, List.cons_append, refusedStarts_digits (by omega)]
    omega
  · rw [List.cons_append, List.cons_append, List.cons_append, refusedStarts_digits (by omega)]
    omega

/-- The zero groups an address's text leaves out at its front are followed by `ffff` and by at
least one more group. -/
def LooksMapped (address : IPv6) : Prop :=
  (IPv6.longestRun address.groups).1 = 0 ∧ 2 ≤ (IPv6.longestRun address.groups).2 ∧
    (IPv6.longestRun address.groups).2 < 7 ∧
      (address.groups.drop (IPv6.longestRun address.groups).2).head? = some 0xffff

/-- The addresses whose canonical text `publicIPv6` refuses. -/
def TextRefused (address : IPv6) : Prop :=
  address.groups = List.replicate 8 0 ∨ address.groups = List.replicate 7 0 ++ [1] ∨
    RefusedHead (address.groups.headD 0).val ∨ address.groups.take 2 = [0x2001, 0xdb8] ∨
      LooksMapped address

/-- The text of an address is in lower case. -/
theorem toLower_text (address : IPv6) : address.text.map Char.toLower = address.text := by
  conv_rhs => rw [← List.map_id address.text]
  apply List.map_congr_left
  intro character member
  have all : ∀ digit : Fin 16, (Nat.digitChar digit.val).toLower = Nat.digitChar digit.val := by
    decide
  rcases IPv6.mem_text member with rfl | ⟨digit, small, rfl⟩
  · rfl
  · exact all ⟨digit, small⟩

/-- An IPv4 address has a dot, and nothing else but digits. -/
theorem isIPv4_inv {text : List Char} (isAddress : isIPv4 text = true) :
    '.' ∈ text ∧ ∀ character ∈ text, character.isDigit = true ∨ character = '.' := by
  unfold isIPv4 at isAddress
  rw [Bool.and_eq_true, decide_eq_true_eq, List.all_eq_true] at isAddress
  constructor
  · by_contra noDot
    have parts : (['.'].intercalate [text]).splitOn '.' = [text] :=
      List.splitOn_intercalate '.' (by simpa using noDot) (by simp)
    rw [List.intercalate_singleton] at parts
    rw [parts] at isAddress
    exact absurd isAddress.1 (by simp)
  · intro character member
    have whole : ['.'].intercalate (text.splitOn '.') = text := List.intercalate_splitOn '.'
    rw [← whole] at member
    rcases mem_intercalate member with dot | ⟨part, isPart, inside⟩
    · exact .inr dot
    · have octet := isAddress.2 part isPart
      unfold isOctet at octet
      simp only [Bool.and_eq_true, List.all_eq_true] at octet
      exact .inl (octet.1.1.1.2 character inside)

/-- A text of groups is no IPv4 address: it has no dots. -/
theorem isIPv4_groupsText (groups : List (Fin 0x10000)) :
    isIPv4 (IPv6.groupsText groups) = false := by
  rw [← Bool.not_eq_true]
  intro isAddress
  have all : ∀ digit : Fin 16, '.' ≠ Nat.digitChar digit.val := by decide
  rcases IPv6.mem_groupsText (isIPv4_inv isAddress).1 with same | ⟨digit, small, same⟩
  · exact absurd same (by decide)
  · exact all ⟨digit, small⟩ same

theorem isIP_groupsText (groups : List (Fin 0x10000)) : isIP (IPv6.groupsText groups) ≠ 4 := by
  unfold isIP
  rw [isIPv4_groupsText]
  split
  · contradiction
  · split <;> decide

/-- What `publicIPv6` says of a text that starts with a group. -/
theorem publicIPv6_group {group : Nat} (small : group < 0x10000) {tail : List Char}
    (written : address.text = Nat.toDigits 16 group ++ ':' :: tail) :
    publicIPv6 otherNotation address.text = true ↔
      ¬ (RefusedHead group ∨ group = 0x2001 ∧ "db8:".toList <+: tail) := by
  have lower := toLower_text address
  obtain ⟨first, rest, digits⟩ :=
    List.exists_cons_of_ne_nil (Nat.toDigits_ne_nil (n := group) (b := 16))
  have notColon : first ≠ ':' := by
    rintro rfl
    exact colon_notMem_group small (by simp [digits])
  have documentation : startsWith (Nat.toDigits 16 group ++ ':' :: tail) "2001:db8:".toList = true ↔
      group = 0x2001 ∧ "db8:".toList <+: tail := by
    have start : "2001:db8:".toList = Nat.toDigits 16 0x2001 ++ ':' :: "db8:".toList := by decide
    rw [startsWith, List.isPrefixOf_iff_prefix, start,
      word_prefix (colon_notMem_group (by decide)) (colon_notMem_group small),
      toDigits_group_inj (by decide) small, eq_comm]
  have starts : (refusedStarts.any fun start =>
      startsWith (Nat.toDigits 16 group ++ ':' :: tail) start.toList) = true ↔
        RefusedHead group ∨ group = 0x2001 ∧ "db8:".toList <+: tail := by
    have split : refusedStarts = refusedStarts.dropLast ++ ["2001:db8:"] := rfl
    rw [split, List.any_append, Bool.or_eq_true, refusedStarts_group small tail, List.any_cons,
      List.any_nil, Bool.or_false, documentation]
  have colons : ∀ others, Nat.toDigits 16 group ++ ':' :: tail ≠ ':' :: others := by
    intro others same
    rw [digits, List.cons_append, List.cons.injEq] at same
    exact notColon same.1
  have notMapped : ¬ startsWith (Nat.toDigits 16 group ++ ':' :: tail) "::ffff:".toList = true := by
    rw [digits]
    simp [startsWith, Ne.symm notColon]
  unfold publicIPv6
  rw [lower, written]
  dsimp only
  by_cases refused : RefusedHead group ∨ group = 0x2001 ∧ "db8:".toList <+: tail
  · rw [if_pos (.inr (.inr (starts.mpr refused)))]
    exact iff_of_false (by decide) (not_not.mpr refused)
  · rw [if_neg, if_neg notMapped]
    · exact iff_of_true rfl refused
    · rintro (same | same | start)
      · exact colons _ same
      · exact colons _ same
      · exact refused (starts.mp start)

/-- What `publicIPv6` says of a text that starts with two colons. -/
theorem publicIPv6_colons {groups : List (Fin 0x10000)}
    (written : address.text = ':' :: ':' :: IPv6.groupsText groups) :
    publicIPv6 otherNotation address.text = true ↔
      ¬ (groups = [] ∨ groups = [1] ∨ ∃ second rest, groups = 0xffff :: second :: rest) := by
  have lower := toLower_text address
  have none_ : (refusedStarts.any fun start =>
      startsWith (':' :: ':' :: IPv6.groupsText groups) start.toList) = false := by
    simp [refusedStarts, startsWith, List.isPrefixOf]
  have nothing : ':' :: ':' :: IPv6.groupsText groups = "::".toList ↔ groups = [] := by
    rw [← IPv6.groupsText_eq_nil]
    simp
  have one : ':' :: ':' :: IPv6.groupsText groups = "::1".toList ↔ groups = [1] := by
    have text : "::1".toList = ':' :: ':' :: IPv6.groupsText [1] := by decide
    rw [text, List.cons.injEq, List.cons.injEq]
    constructor
    · rintro ⟨-, -, same⟩
      by_cases empty : groups = []
      · rw [empty] at same
        exact absurd same (by decide)
      · exact IPv6.groupsText_inj empty (by simp) same
    · rintro rfl
      exact ⟨rfl, rfl, rfl⟩
  have mapped : startsWith (':' :: ':' :: IPv6.groupsText groups) "::ffff:".toList = true ↔
      ∃ second rest, groups = 0xffff :: second :: rest := by
    have start : "::ffff:".toList = ':' :: ':' :: (Nat.toDigits 16 0xffff ++ ':' :: []) := by decide
    rw [startsWith, List.isPrefixOf_iff_prefix, start, List.cons_prefix_cons, List.cons_prefix_cons]
    match groups with
    | [] => simp [IPv6.groupsText]
    | [only] =>
      rw [IPv6.groupsText_singleton]
      constructor
      · rintro ⟨-, -, begins⟩
        refine absurd ?_ (colon_notMem_group only.isLt)
        exact begins.subset (by simp)
      · rintro ⟨second, rest, same⟩
        cases same
    | first :: second :: rest =>
      rw [IPv6.groupsText_cons, word_prefix (colon_notMem_group (by decide))
        (colon_notMem_group first.isLt), toDigits_group_inj (by decide) first.isLt]
      constructor
      · rintro ⟨-, -, same, -⟩
        exact ⟨second, rest, by rw [List.cons.injEq]; exact ⟨Fin.ext same.symm, rfl⟩⟩
      · rintro ⟨_, _, same⟩
        cases same
        exact ⟨rfl, rfl, rfl, List.nil_prefix⟩
  unfold publicIPv6
  rw [lower, written]
  dsimp only
  by_cases refused : groups = [] ∨ groups = [1]
  · rw [if_pos (by rw [nothing, one]; tauto)]
    refine iff_of_false (by decide) (not_not.mpr ?_)
    rcases refused with empty | single
    · exact .inl empty
    · exact .inr (.inl single)
  · have passes : ¬ (':' :: ':' :: IPv6.groupsText groups = "::".toList ∨
        ':' :: ':' :: IPv6.groupsText groups = "::1".toList ∨
        (refusedStarts.any fun start =>
          startsWith (':' :: ':' :: IPv6.groupsText groups) start.toList) = true) := by
      rw [nothing, one, none_]
      simpa using refused
    rw [if_neg passes]
    by_cases looks : ∃ second rest, groups = 0xffff :: second :: rest
    · rw [if_pos (mapped.mpr looks)]
      obtain ⟨second, rest, rfl⟩ := looks
      have beyond : (':' :: ':' :: IPv6.groupsText (0xffff :: second :: rest)).drop 7 =
          IPv6.groupsText (second :: rest) := by
        rw [IPv6.groupsText_cons]
        rfl
      rw [beyond]
      simp [isIP_groupsText]
    · rw [if_neg fun start => looks (mapped.mp start)]
      refine iff_of_true rfl ?_
      rintro (empty | single | start)
      · exact refused (.inl empty)
      · exact refused (.inr single)
      · exact looks start

/-- The first groups of an address that is not left out at its front. -/
theorem textRefused_of_late {first second : Fin 0x10000} {rest : List (Fin 0x10000)}
    (isGroups : address.groups = first :: second :: rest)
    (late : ¬ ((IPv6.longestRun address.groups).1 = 0 ∧
      2 ≤ (IPv6.longestRun address.groups).2)) :
    TextRefused address ↔ RefusedHead first.val ∨ first.val = 0x2001 ∧ second.val = 0xdb8 := by
  have allZero : IPv6.longestRun (List.replicate 8 0) = (0, 8) := by decide
  have loopback : IPv6.longestRun (List.replicate 7 0 ++ [1]) = (0, 7) := by decide
  have notZero : address.groups ≠ List.replicate 8 0 := by
    intro same
    rw [same, allZero] at late
    exact late ⟨rfl, by decide⟩
  have notOne : address.groups ≠ List.replicate 7 0 ++ [1] := by
    intro same
    rw [same, loopback] at late
    exact late ⟨rfl, by decide⟩
  have notMapped : ¬ LooksMapped address := fun looks => late ⟨looks.1, looks.2.1⟩
  have documentation : address.groups.take 2 = [0x2001, 0xdb8] ↔
      first.val = 0x2001 ∧ second.val = 0xdb8 := by
    rw [isGroups, List.take_succ_cons, List.take_succ_cons, List.take_zero, List.cons.injEq,
      List.cons.injEq, Fin.ext_iff, Fin.ext_iff]
    simp
  have head : address.groups.headD 0 = first := by
    rw [isGroups]
    rfl
  unfold TextRefused
  rw [documentation, head]
  simp only [notZero, notOne, notMapped, false_or, or_false]

/-- The addresses whose first groups are left out of their text. -/
theorem textRefused_of_front {count : Nat} (isRun : IPv6.longestRun address.groups = (0, count))
    (long : 2 ≤ count) :
    TextRefused address ↔ address.groups.drop count = [] ∨ address.groups.drop count = [1] ∨
      ∃ second rest, address.groups.drop count = 0xffff :: second :: rest := by
  have isZeros : count = IPv6.zeros address.groups := by
    rcases IPv6.longestRun_zeros address.groups with none_ | same
    · rw [isRun] at none_
      dsimp only at none_
      omega
    · rwa [isRun] at same
  have whole := IPv6.eq_zeros_append address.groups
  rw [← isZeros] at whole
  have lengths : count + (address.groups.drop count).length = 8 := by
    rw [← address.eight]
    conv_rhs => rw [whole]
    simp
  obtain ⟨more, isMore⟩ : ∃ more, count = more + 2 := ⟨count - 2, by omega⟩
  have head : address.groups.take 2 = [0, 0] := by
    rw [whole, isMore, List.replicate_succ, List.replicate_succ]
    rfl
  have headZero : address.groups.headD 0 = 0 := by
    rw [whole, isMore, List.replicate_succ]
    rfl
  have noHead : ¬ RefusedHead (address.groups.headD 0).val := by
    rw [headZero]
    decide
  have notDocumentation : address.groups.take 2 ≠ [0x2001, 0xdb8] := by
    rw [head]
    decide
  have nothing : address.groups = List.replicate 8 0 ↔ address.groups.drop count = [] := by
    constructor
    · intro same
      rw [isZeros, same]
      decide
    · intro empty
      rw [empty, List.length_nil] at lengths
      rw [whole, empty, List.append_nil]
      congr 1
  have one : address.groups = List.replicate 7 0 ++ [1] ↔ address.groups.drop count = [1] := by
    constructor
    · intro same
      rw [isZeros, same]
      decide
    · intro single
      rw [single, List.length_singleton] at lengths
      rw [whole, single]
      congr 2
      omega
  have mapped : LooksMapped address ↔
      ∃ second rest, address.groups.drop count = 0xffff :: second :: rest := by
    unfold LooksMapped
    rw [isRun]
    generalize address.groups.drop count = after at lengths ⊢
    match after with
    | [] => simp
    | [only] =>
      rw [List.length_singleton] at lengths
      simp
      omega
    | first :: second :: rest =>
      simp only [List.length_cons] at lengths
      simp
      omega
  unfold TextRefused
  rw [nothing, one, mapped]
  simp only [noHead, notDocumentation, false_or]

/-- `publicIPv6` refuses exactly these canonical texts. -/
theorem publicIPv6_text (address : IPv6) :
    publicIPv6 otherNotation address.text = true ↔ ¬ TextRefused address := by
  obtain ⟨g₀, g₁, g₂, g₃, g₄, g₅, g₆, g₇, isGroups⟩ := address.exists_groups
  rcases address.text_cases isGroups with
    ⟨long, front, written⟩ | ⟨zero, later, tail, written⟩ | ⟨later, tail, written⟩
  · rw [publicIPv6_colons otherNotation written,
      textRefused_of_front (Prod.ext front rfl) long]
  · rw [publicIPv6_group otherNotation g₀.isLt written,
      textRefused_of_late isGroups fun early => later early.1, zero]
    simp
  · have start : "db8:".toList = Nat.toDigits 16 0xdb8 ++ ':' :: [] := by decide
    rw [publicIPv6_group otherNotation g₀.isLt written,
      textRefused_of_late isGroups fun early => later ⟨early.2, by omega⟩, start,
      word_prefix (colon_notMem_group (by decide)) (colon_notMem_group g₁.isLt),
      toDigits_group_inj (by decide) g₁.isLt]
    simp only [List.nil_prefix, and_true, eq_comm]

end Nexora.Browser
