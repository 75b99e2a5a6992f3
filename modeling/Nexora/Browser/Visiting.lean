import Nexora.Browser.Policy

/-!
# Hosts the browser runtime visits

A host is a name or an address, and a resolver answers with addresses in their canonical texts.
The policy's tests are compared with the blocks of addresses that are set apart.
-/

namespace Nexora.Browser

open Nexora.Std

variable (otherNotation : List Char → Option Int) {embedded : IPv4}

/-! ## What the runtime overlooks -/

/-- An address of either family. -/
inductive Address where
  | v4 (address : IPv4)
  | v6 (address : IPv6)
  deriving DecidableEq

/-- The address lies in a block that is set apart, where one that is mapped from an IPv4 address
is judged by that address. -/
def Address.Special : Address → Prop
  | .v4 address => address.Special
  | .v6 address => address.embedded?.elim address.Special IPv4.Special

theorem Address.special_of_embedded {address : IPv6} (maps : address.embedded? = some embedded) :
    (Address.v6 address).Special ↔ embedded.Special := by
  rw [Address.Special, maps]
  rfl

theorem Address.special_of_bare {address : IPv6} (bare : address.embedded? = none) :
    (Address.v6 address).Special ↔ address.Special := by
  rw [Address.Special, bare]
  rfl

/-- An address in one of its canonical texts. A resolver writes the IPv4 address that an IPv6
address embeds in decimal; the URL parser writes all groups in hexadecimal. -/
inductive Written where
  | v4 (address : IPv4)
  | v6 (address : IPv6)
  | mapped (address : IPv4)
  | compatible (address : IPv4) (high : address.octets ≠ [0, 0, 0, 0] ∧ address.octets ≠ [0, 0, 0, 1])

namespace Written

/-- The address that is written. -/
def address : Written → Address
  | .v4 address => .v4 address
  | .v6 address => .v6 address
  | .mapped address => .v6 (IPv6.mapped address)
  | .compatible address _ => .v6 (IPv6.compatible address)

/-- The text it is written as. -/
def text : Written → List Char
  | .v4 address => address.text
  | .v6 address => address.text
  | .mapped address => "::ffff:".toList ++ address.text
  | .compatible address _ => "::".toList ++ address.text

/-- The family a resolver reports. -/
def family : Written → Nat
  | .v4 _ => 4
  | _ => 6

/-- A resolver's answer. -/
def answer (written : Written) : LookupAddress := ⟨written.text, written.family⟩

/-- The runtime's tests refuse the address. -/
def Refused : Written → Prop
  | .v4 address => address.Special
  | .v6 address => TextRefused address
  | .mapped address => address.Special
  | .compatible _ _ => False

/-- The address lies in a special block that no test looks for: the benchmarking block and the
younger documentation block of IPv6, and the reserved blocks of IPv6 apart from the texts that are
refused for another reason. -/
def Overlooked : Written → Prop
  | .v4 _ => False
  | .v6 address =>
    address.For .benchmarking ∨
    (⟨[0x3fff], 20⟩ : Block).Contains 16 (address.groups.map Fin.val) ∨
    (address.For .reserved ∧ ¬ TextRefused address)
  | .mapped _ => False
  | .compatible _ _ => True

end Written

/-- A mapped address is written as one, and refused. -/
theorem textRefused_of_embedded {address : IPv6} (maps : address.embedded? = some embedded) :
    TextRefused address := by
  obtain ⟨g₀, g₁, g₂, g₃, g₄, g₅, g₆, g₇, isGroups⟩ := address.exists_groups
  unfold IPv6.embedded? at maps
  rw [isGroups] at maps
  split at maps
  · rename_i same
    simp only [List.take_succ_cons, List.take_zero, List.cons.injEq, and_true] at same
    obtain ⟨rfl, rfl, rfl, rfl, rfl, rfl⟩ := same
    have run := IPv6.longestRun_mapped g₆ g₇
    rw [← isGroups] at run
    rw [textRefused_of_front run (by decide), isGroups]
    exact .inr (.inr ⟨g₆, [g₇], rfl⟩)
  · cases maps

theorem embedded?_mapped (address : IPv4) : (IPv6.mapped address).embedded? = some address := by
  obtain ⟨⟨a, first⟩, ⟨b, second⟩, ⟨c, third⟩, ⟨d, fourth⟩⟩ := address
  simp only [IPv6.embedded?, IPv6.mapped, List.take_succ_cons, List.take_zero, if_true,
    Option.some.injEq, List.getD_cons_succ, List.getD_cons_zero, IPv4.mk.injEq, Fin.ext_iff,
    Fin.val_ofNat]
  refine ⟨?_, ?_, ?_, ?_⟩ <;> omega

theorem embedded?_compatible (address : IPv4) : (IPv6.compatible address).embedded? = none := by
  unfold IPv6.embedded? IPv6.compatible
  rw [if_neg]
  simp

/-- A special address whose text is not refused is in one of the blocks no test looks for. -/
theorem overlooked_of_special {address : IPv6} (accepted : ¬ TextRefused address)
    (special : address.Special) : (Written.v6 address).Overlooked := by
  obtain ⟨g₀, g₁, g₂, g₃, g₄, g₅, g₆, g₇, isGroups⟩ := address.exists_groups
  have plain : ¬ RefusedHead g₀.val := by
    intro head
    refine accepted (.inr (.inr (.inl ?_)))
    rw [isGroups]
    exact head
  unfold RefusedHead at plain
  obtain ⟨purpose, given⟩ := special
  cases purpose with
  | unspecified => exact absurd (.inl (IPv6.for_unspecified given)) accepted
  | loopback => exact absurd (.inr (.inl (IPv6.for_loopback given))) accepted
  | privateUse | shared =>
    obtain ⟨block, isBlock, -⟩ := given
    cases isBlock
  | linkLocal | siteLocal | uniqueLocal | multicast =>
    have first := IPv6.for_local isGroups (by decide) given
    omega
  | benchmarking => exact .inl given
  | documentation =>
    rcases IPv6.for_documentation given with older | younger
    · exact absurd (.inr (.inr (.inr (.inl older)))) accepted
    · exact .inr (.inl younger)
  | reserved => exact .inr (.inr ⟨given, accepted⟩)

/-- Among the texts that are not refused, the special addresses are those overlooked. -/
theorem special_iff_overlooked {written : Written} (accepted : ¬ written.Refused) :
    written.address.Special ↔ written.Overlooked := by
  cases written with
  | v4 address => exact iff_of_false accepted id
  | mapped address =>
    rw [Written.address, Address.special_of_embedded (embedded?_mapped address)]
    exact iff_of_false accepted id
  | compatible address high =>
    rw [Written.address, Address.special_of_bare (embedded?_compatible address)]
    refine iff_of_true ⟨.reserved, ⟨[0], 8⟩, by simp [IPv6.blocks], ?_⟩ trivial
    simp [Block.Contains, IPv6.compatible, agreeIn]
  | v6 address =>
    change ¬ TextRefused address at accepted
    have bare : address.embedded? = none := by
      by_contra some_
      obtain ⟨embedded, maps⟩ := Option.ne_none_iff_exists'.mp some_
      exact accepted (textRefused_of_embedded maps)
    rw [Written.address, Address.special_of_bare bare]
    constructor
    · exact overlooked_of_special accepted
    · rintro (benchmarking | documentation | ⟨reserved, -⟩)
      · exact ⟨_, benchmarking⟩
      · exact ⟨.documentation, _, by simp [IPv6.blocks], documentation⟩
      · exact ⟨_, reserved⟩

/-! ## What `isIP` says of the texts -/

/-- A word without colons is passed over on the way to two colons. -/
theorem splitCompressed_word {word : List Char} (plain : ':' ∉ word) (rest : List Char) :
    splitCompressed (word ++ rest) =
      (splitCompressed rest).map fun parts => (word ++ parts.1, parts.2) := by
  induction word with
  | nil => simp
  | cons character others ih =>
    have differs : character ≠ ':' := by
      rintro rfl
      exact plain (by simp)
    rw [List.cons_append, splitCompressed, if_neg fun both => differs both.1,
      ih fun member => plain (by simp [member]), Option.map_map]
    rfl

/-- Groups are passed over on the way to two colons. -/
theorem splitCompressed_groups (group : Fin 0x10000) (groups : List (Fin 0x10000))
    (rest : List Char) :
    splitCompressed (IPv6.groupsText (group :: groups) ++ rest) =
      (splitCompressed rest).map fun parts =>
        (IPv6.groupsText (group :: groups) ++ parts.1, parts.2) := by
  induction groups generalizing group with
  | nil =>
    rw [IPv6.groupsText_singleton]
    exact splitCompressed_word (colon_notMem_group group.isLt) rest
  | cons second others ih =>
    -- The colon after the first group is followed by a digit.
    have single : ¬ (':' = ':' ∧
        (IPv6.groupsText (second :: others) ++ rest).head? = some ':') := by
      rintro ⟨-, colon⟩
      obtain ⟨first, digits, same⟩ :=
        List.exists_cons_of_ne_nil (Nat.toDigits_ne_nil (n := second.val) (b := 16))
      have starts : ∃ after, IPv6.groupsText (second :: others) = first :: after := by
        cases others with
        | nil => exact ⟨digits, by rw [IPv6.groupsText_singleton, same]⟩
        | cons third more => exact ⟨_, by rw [IPv6.groupsText_cons, same, List.cons_append]⟩
      obtain ⟨after, isText⟩ := starts
      rw [isText] at colon
      cases colon
      exact colon_notMem_group second.isLt (by rw [same]; simp)
    rw [IPv6.groupsText_cons, List.append_assoc,
      splitCompressed_word (colon_notMem_group group.isLt), List.cons_append, splitCompressed,
      if_neg single, ih, Option.map_map, Option.map_map]
    congr 1
    funext parts
    simp

theorem isGroup_group (group : Fin 0x10000) : isGroup (Nat.toDigits 16 group.val) = true := by
  have digits : ∀ digit : Fin 16, isHexDigit (Nat.digitChar digit.val) = true := by decide
  have short : (Nat.toDigits 16 group.val).length ≤ 4 := by
    rw [Nat.length_toDigits_le_iff (by decide) (by decide)]
    exact group.isLt
  unfold isGroup
  simp only [Bool.and_eq_true, decide_eq_true_eq, List.all_eq_true]
  refine ⟨⟨Nat.toDigits_ne_nil, short⟩, fun character member => ?_⟩
  obtain ⟨digit, small, rfl⟩ := mem_toDigits_group group.isLt member
  exact digits ⟨digit, small⟩

/-- Groups are counted. -/
theorem groupCount_groups (groups : List (Fin 0x10000)) :
    groupCount (IPv6.groupsText groups) = some groups.length := by
  cases groups with
  | nil => rfl
  | cons group others =>
    have some_ : IPv6.groupsText (group :: others) ≠ [] := by
      rw [Ne, IPv6.groupsText_eq_nil]
      simp
    unfold groupCount
    dsimp only
    rw [if_neg some_, IPv6.splitOn_groupsText (by simp), if_pos]
    · rw [List.length_map]
    · rw [List.all_map, List.all_eq_true]
      exact fun group _ => isGroup_group group

/-- A text without a zone is all of it the address. -/
theorem isIPv6_plain {text : List Char} (plain : '%' ∉ text) : isIPv6 text = isIPv6Address text := by
  have whole : text.takeWhile (fun character => character ≠ '%') = text := by
    rw [List.takeWhile_eq_self_iff]
    intro character member
    rw [decide_eq_true_eq]
    rintro rfl
    exact plain member
  have noZone : text.dropWhile (fun character => character ≠ '%') = [] := by
    have parts := List.takeWhile_append_dropWhile (p := fun character => character ≠ '%') (l := text)
    rwa [whole, List.append_right_eq_self] at parts
  unfold isIPv6
  simp only [whole, noZone, decide_true, Bool.true_or, Bool.true_and]

/-- What stands before and after two colons. -/
theorem isIPv6Address_of_parts {text left right : List Char}
    (split : splitCompressed text = some (left, right))
    (groups : (decide (left = []) || (left.splitOn ':').all isGroup) = true) {before after : Nat}
    (isBefore : groupCount left = some before) (isAfter : groupCount right = some after)
    (fewer : before + after ≤ 7) : isIPv6Address text = true := by
  unfold isIPv6Address
  rw [split]
  dsimp only
  rw [groups, isBefore, isAfter]
  simpa using fewer

theorem isIPv6_text (address : IPv6) : isIPv6 address.text = true := by
  have noZone : '%' ∉ address.text := by
    intro member
    have all : ∀ digit : Fin 16, '%' ≠ Nat.digitChar digit.val := by decide
    rcases IPv6.mem_text member with same | ⟨digit, small, same⟩
    · exact absurd same (by decide)
    · exact all ⟨digit, small⟩ same
  have eight := address.eight
  have run := IPv6.longestRun_zeros address.groups
  rw [isIPv6_plain noZone]
  unfold IPv6.text
  dsimp only
  by_cases short : (IPv6.longestRun address.groups).2 < 2
  · -- No groups are left out.
    rw [if_pos short]
    obtain ⟨first, rest, isGroups⟩ := List.exists_cons_of_ne_nil
      (List.ne_nil_of_length_pos (by omega : 0 < address.groups.length))
    have split := splitCompressed_groups first rest []
    rw [List.append_nil, ← isGroups] at split
    rw [splitCompressed, Option.map_none] at split
    unfold isIPv6Address
    rw [split]
    simp [groupCount_groups, eight]
  · rw [if_neg short]
    generalize IPv6.longestRun address.groups = best at short run ⊢
    obtain ⟨start, count⟩ := best
    dsimp only at short run ⊢
    have isZeros : count = IPv6.zeros (address.groups.drop start) := by omega
    have fits := IPv6.zeros_le (address.groups.drop start)
    rw [List.length_drop] at fits
    have fewer : (address.groups.take start).length +
        (address.groups.drop (start + count)).length ≤ 7 := by
      rw [List.length_take, List.length_drop]
      omega
    generalize address.groups.drop (start + count) = after at fewer ⊢
    generalize address.groups.take start = before at fewer ⊢
    have colons : splitCompressed (':' :: ':' :: IPv6.groupsText after) =
        some ([], IPv6.groupsText after) := by
      rw [splitCompressed, if_pos ⟨rfl, rfl⟩]
      rfl
    have split : splitCompressed
        (IPv6.groupsText before ++ ':' :: ':' :: IPv6.groupsText after) =
          some (IPv6.groupsText before, IPv6.groupsText after) := by
      cases before with
      | nil => exact colons
      | cons first rest =>
        rw [splitCompressed_groups, colons, Option.map_some, List.append_nil]
    have groups : (decide (IPv6.groupsText before = []) ||
        ((IPv6.groupsText before).splitOn ':').all isGroup) = true := by
      cases before with
      | nil => rfl
      | cons first rest =>
        rw [IPv6.splitOn_groupsText (by simp), Bool.or_eq_true, List.all_map, List.all_eq_true]
        exact .inr fun group _ => isGroup_group group
    exact isIPv6Address_of_parts split groups (groupCount_groups _) (groupCount_groups _) fewer

/-- An IPv4 address at the end of a text counts as two groups. -/
theorem groupCount_embedded (address : IPv4) :
    groupCount address.text = some 2 ∧ groupCount ("ffff:".toList ++ address.text) = some 3 := by
  obtain ⟨first, rest, written, -, dot⟩ := address.text_starts
  have isAddress := isIPv4_text address
  have noColon : ':' ∉ address.text := by
    intro member
    rcases IPv4.mem_text member with digit | same
    · exact absurd digit (by decide)
    · exact absurd same (by decide)
  have noGroup : isGroup address.text = false := by
    have noHex : address.text.all isHexDigit = false := by
      rw [List.all_eq_false]
      exact ⟨'.', by rw [written]; simp [dot], by decide⟩
    simp [isGroup, noHex]
  have some_ : address.text ≠ [] := by
    rw [written]
    simp
  have single : address.text.splitOn ':' = [address.text] := by
    have parts : ([':'].intercalate [address.text]).splitOn ':' = [address.text] :=
      List.splitOn_intercalate ':' (by simpa using noColon) (by simp)
    rwa [List.intercalate_singleton] at parts
  have double : ("ffff:".toList ++ address.text).splitOn ':' = ["ffff".toList, address.text] := by
    have parts : ([':'].intercalate ["ffff".toList, address.text]).splitOn ':' =
        ["ffff".toList, address.text] :=
      List.splitOn_intercalate ':' (by simpa using noColon) (by simp)
    rwa [intercalate_cons _ _ (by simp), List.intercalate_singleton] at parts
  have ffff : isGroup "ffff".toList = true := by decide
  constructor
  · unfold groupCount
    simp [some_, single, noGroup, isAddress]
  · unfold groupCount
    rw [double]
    simp [noGroup, isAddress]
    decide

/-- A text with a colon is no IPv4 address. -/
theorem isIPv4_colon {text : List Char} (colon : ':' ∈ text) : isIPv4 text = false := by
  rw [← Bool.not_eq_true]
  intro isAddress
  rcases (isIPv4_inv isAddress).2 ':' colon with digit | same
  · exact absurd digit (by decide)
  · exact absurd same (by decide)

/-- The text of an IPv6 address has a colon. -/
theorem colon_mem_text (address : IPv6) : ':' ∈ address.text := by
  obtain ⟨g₀, g₁, g₂, g₃, g₄, g₅, g₆, g₇, isGroups⟩ := address.exists_groups
  rcases address.text_cases isGroups with
    ⟨-, -, written⟩ | ⟨-, -, tail, written⟩ | ⟨-, tail, written⟩
  all_goals simp [written]

/-- An embedded IPv4 address keeps a text without zones. -/
theorem noZone_embedded {front : List Char} (plain : '%' ∉ front) (address : IPv4) :
    '%' ∉ front ++ address.text := by
  rw [List.mem_append, not_or]
  refine ⟨plain, fun member => ?_⟩
  rcases IPv4.mem_text member with digit | same
  · exact absurd digit (by decide)
  · exact absurd same (by decide)

/-- `isIP` tells the family of every canonical text. -/
theorem isIP_written (written : Written) : isIP written.text = written.family := by
  cases written with
  | v4 address =>
    change isIP address.text = 4
    rw [isIP, if_pos (isIPv4_text address)]
  | v6 address =>
    change isIP address.text = 6
    rw [isIP, isIPv4_colon (colon_mem_text address), isIPv6_text address]
    rfl
  | mapped address =>
    change isIP ("::ffff:".toList ++ address.text) = 6
    have isAddress : isIPv6 ("::ffff:".toList ++ address.text) = true := by
      have split : splitCompressed ("::ffff:".toList ++ address.text) =
          some ([], "ffff:".toList ++ address.text) := rfl
      rw [isIPv6_plain (noZone_embedded (by decide) address)]
      exact isIPv6Address_of_parts split rfl rfl (groupCount_embedded address).2 (by decide)
    rw [isIP, isIPv4_colon (by simp), isAddress]
    rfl
  | compatible address high =>
    change isIP ("::".toList ++ address.text) = 6
    have isAddress : isIPv6 ("::".toList ++ address.text) = true := by
      have split : splitCompressed ("::".toList ++ address.text) = some ([], address.text) := rfl
      rw [isIPv6_plain (noZone_embedded (by decide) address)]
      exact isIPv6Address_of_parts split rfl rfl (groupCount_embedded address).1 (by decide)
    rw [isIP, isIPv4_colon (by simp), isAddress]
    rfl

/-! ## What the runtime opens -/

/-- An IPv4 address has no letters. -/
theorem toLower_ipv4 (address : IPv4) : address.text.map Char.toLower = address.text := by
  conv_rhs => rw [← List.map_id address.text]
  apply List.map_congr_left
  intro character member
  rcases IPv4.mem_text member with digit | rfl
  · simp only [Char.isDigit, Bool.and_eq_true, decide_eq_true_eq] at digit
    rw [Char.toLower, dif_neg]
    · rfl
    · intro upper
      have above := upper.1
      have below := digit.2
      have both := UInt32.le_trans above below
      exact absurd both (by decide)
  · rfl

/-- `publicIPv6` judges a mapped address by the IPv4 address it embeds. -/
theorem publicIPv6_mapped (address : IPv4) :
    publicIPv6 otherNotation ("::ffff:".toList ++ address.text) = true ↔ ¬ address.Special := by
  have lower : ("::ffff:".toList ++ address.text).map Char.toLower =
      "::ffff:".toList ++ address.text := by
    rw [List.map_append, toLower_ipv4]
    rfl
  have isAddress : isIP address.text = 4 := isIP_written (.v4 address)
  unfold publicIPv6
  rw [lower]
  dsimp only
  rw [if_neg (by simp [refusedStarts, startsWith, List.isPrefixOf]), if_pos (by simp [startsWith, List.isPrefixOf])]
  have beyond : ("::ffff:".toList ++ address.text).drop 7 = address.text := rfl
  rw [beyond, isAddress, ← publicIPv4_text otherNotation address]
  simp

/-- `publicIPv6` takes every compatible address for a public one. -/
theorem publicIPv6_compatible (address : IPv4) :
    publicIPv6 otherNotation ("::".toList ++ address.text) = true := by
  obtain ⟨first, rest, written, digit, dot⟩ := address.text_starts
  have lower : ("::".toList ++ address.text).map Char.toLower = "::".toList ++ address.text := by
    rw [List.map_append, toLower_ipv4]
    rfl
  have notF : 'f' ≠ first := by
    rintro rfl
    exact absurd digit (by decide)
  have notOne : rest ≠ [] := List.ne_nil_of_mem dot
  unfold publicIPv6
  rw [lower, written]
  dsimp only
  rw [if_neg (by simp [refusedStarts, startsWith, List.isPrefixOf, notOne]),
    if_neg (by simp [startsWith, List.isPrefixOf, notF])]

/-- The runtime's tests, on an answer of a resolver. -/
theorem assertPublicAddress_answer (written : Written) :
    assertPublicAddress otherNotation written.answer = .ok () ↔ ¬ written.Refused := by
  unfold assertPublicAddress
  rw [raiseIf_eq_ok, Bool.not_eq_false]
  cases written with
  | v4 address => exact publicIPv4_text otherNotation address
  | v6 address => exact publicIPv6_text otherNotation address
  | mapped address => exact publicIPv6_mapped otherNotation address
  | compatible address high => exact iff_of_true (publicIPv6_compatible otherNotation address) id

/-- A host as the URL parser leaves it: a name, which is no address, or an address. -/
inductive Hostname where
  | name (text : List Char) (plain : isIP (normalizeHostname text) = 0)
  | v4 (address : IPv4)
  | v6 (address : IPv6)

namespace Hostname

/-- The host's text, where an IPv6 address stands in brackets. -/
def text : Hostname → List Char
  | .name text _ => text
  | .v4 address => address.text
  | .v6 address => '[' :: address.text ++ [']']

/-- The addresses of a host: a literal's own, else what the resolver answers. -/
def addresses (resolver : List Char → Option (List Written)) : Hostname → List Written
  | .name text _ =>
    if (normalizeHostname text).map Char.toLower = "localhost".toList then []
    else (resolver (normalizeHostname text)).getD []
  | .v4 address => [.v4 address]
  | .v6 address => [.v6 address]

end Hostname

variable (resolver : List Char → Option (List Written))

/-- The resolver as the runtime calls it. -/
def resolverOf : Resolver := fun name => (resolver name).map fun answers => answers.map Written.answer

/-- An IPv4 address stands in no brackets. -/
theorem normalizeHostname_v4 (address : IPv4) : normalizeHostname address.text = address.text := by
  obtain ⟨first, rest, written, digit, -⟩ := address.text_starts
  unfold normalizeHostname
  rw [if_neg]
  rintro ⟨bracket, -⟩
  rw [written, List.head?_cons, Option.some.injEq] at bracket
  rw [bracket] at digit
  exact absurd digit (by decide)

/-- An IPv6 address is taken out of its brackets. -/
theorem normalizeHostname_v6 (address : IPv6) :
    normalizeHostname (Hostname.v6 address).text = address.text := by
  unfold normalizeHostname Hostname.text
  have ends : ('[' :: address.text ++ [']']).getLast? = some ']' := List.getLast?_concat
  rw [if_pos ⟨rfl, ends⟩]
  simp

/-- What `resolvePublicHost` returns: the texts of the host's addresses, if none is refused. -/
theorem resolvePublicHost_eq_ok (hostname : Hostname) (texts : List (List Char)) :
    resolvePublicHost otherNotation hostname.text (resolverOf resolver) = .ok texts ↔
      hostname.addresses resolver ≠ [] ∧
        (∀ written ∈ hostname.addresses resolver, ¬ written.Refused) ∧
        texts = ((hostname.addresses resolver).map Written.text).eraseDups := by
  have literal : ∀ written : Written, ∀ text, normalizeHostname text = written.text →
      (resolvePublicHost otherNotation text (resolverOf resolver) = .ok texts ↔
        ¬ written.Refused ∧ texts = [written.text]) := by
    intro written text normal
    have family := isIP_written written
    have known : written.family ≠ 0 := by
      cases written <;> simp [Written.family]
    unfold resolvePublicHost
    dsimp only
    rw [normal, family, if_pos known, bind_eq_ok]
    have judged := assertPublicAddress_answer otherNotation written
    constructor
    · rintro ⟨_, ok, same⟩
      rw [pure_eq_ok] at same
      exact ⟨judged.mp ok, same.symm⟩
    · rintro ⟨accepted, rfl⟩
      exact ⟨(), judged.mpr accepted, rfl⟩
  have single : ∀ text : List Char, [text].eraseDups = [text] := by
    intro text
    simp [List.eraseDups_cons]
  cases hostname with
  | name text plain =>
    unfold resolvePublicHost Hostname.addresses Hostname.text
    dsimp only
    rw [if_neg (not_not.mpr plain), bind_eq_ok]
    by_cases localhost : (normalizeHostname text).map Char.toLower = "localhost".toList
    · rw [if_pos localhost]
      simp [raiseIf_eq_ok, localhost]
    · rw [if_neg localhost]
      have passes : raiseIf ((normalizeHostname text).map Char.toLower = "localhost".toList)
          HostError.hostNotRoutable = .ok () := (raiseIf_eq_ok _ _ _).mpr localhost
      rw [passes]
      cases resolves : resolver (normalizeHostname text) with
      | none => simp [resolverOf, resolves]
      | some answers =>
        have judged : (answers.map Written.answer).forM (assertPublicAddress otherNotation) =
            .ok () ↔ ∀ written ∈ answers, ¬ written.Refused := by
          rw [forM_eq_ok, List.forall_mem_map]
          simp only [assertPublicAddress_answer]
        have texts_ : (answers.map Written.answer).map LookupAddress.address =
            answers.map Written.text := by
          rw [List.map_map]
          rfl
        simp only [resolverOf, resolves, Option.map_some, orRaise_eq_ok, bind_eq_ok, pure_eq_ok,
          raiseIf_eq_ok, Option.some.injEq, Option.getD_some, exists_eq_left', texts_,
          List.map_eq_nil_iff]
        constructor
        · rintro ⟨_, -, _, some_, _, accepted, same⟩
          exact ⟨some_, judged.mp accepted, same.symm⟩
        · rintro ⟨some_, accepted, same⟩
          exact ⟨(), trivial, (), some_, (), judged.mpr accepted, same.symm⟩
  | v4 address =>
    rw [Hostname.text, literal (.v4 address) address.text (normalizeHostname_v4 address)]
    simp [Hostname.addresses, single]
  | v6 address =>
    rw [literal (.v6 address) _ (normalizeHostname_v6 address)]
    simp [Hostname.addresses, single]

/-- The rule that maps a name to an address, which stands in brackets if it is of IPv6. -/
def mapRule (name address : List Char) : List Char :=
  "MAP ".toList ++ name ++ ' ' :: (if isIP address = 6 then '[' :: address ++ [']'] else address) ++
    ", EXCLUDE localhost".toList

/-- The browser runtime opens public addresses only. Each address it gets is one of the host's and
lies in no special block; it gets none at all if one of them does; and the browser is started with
a rule that maps a name to one of these addresses. -/
structure Guarded (hostname : Hostname) : Prop where
  outside : ∀ texts, resolvePublicHost otherNotation hostname.text (resolverOf resolver) = .ok texts →
    ∀ text ∈ texts, (∃ written ∈ hostname.addresses resolver, written.text = text) ∧
      ∀ written ∈ hostname.addresses resolver, written.text = text → ¬ written.address.Special
  nothing : (∃ written ∈ hostname.addresses resolver, written.address.Special) →
    ∀ texts, resolvePublicHost otherNotation hostname.text (resolverOf resolver) ≠ .ok texts
  pins : ∀ texts, resolvePublicHost otherNotation hostname.text (resolverOf resolver) = .ok texts →
    isIP (normalizeHostname hostname.text) = 0 →
      ∃ first ∈ texts, isolatedPage otherNotation hostname.text (resolverOf resolver) =
        .ok (some (mapRule (normalizeHostname hostname.text) first))

/-- A name is mapped to the first of the addresses that are returned. -/
theorem isolatedPage_first {hostname : Hostname} {texts : List (List Char)}
    (ok : resolvePublicHost otherNotation hostname.text (resolverOf resolver) = .ok texts)
    (isName : isIP (normalizeHostname hostname.text) = 0) :
    ∃ first ∈ texts, isolatedPage otherNotation hostname.text (resolverOf resolver) =
      .ok (some (mapRule (normalizeHostname hostname.text) first)) := by
  obtain ⟨some_, -, same⟩ := (resolvePublicHost_eq_ok otherNotation resolver hostname texts).mp ok
  have filled : texts ≠ [] := by
    obtain ⟨written, rest, isAddresses⟩ := List.exists_cons_of_ne_nil some_
    have member : written.text ∈ texts := by
      rw [same, List.mem_eraseDups, isAddresses]
      simp
    exact List.ne_nil_of_mem member
  obtain ⟨first, others, rfl⟩ := List.exists_cons_of_ne_nil filled
  refine ⟨first, by simp, ?_⟩
  have isText : first ∈ (hostname.addresses resolver).map Written.text := by
    rw [← List.mem_eraseDups, ← same]
    simp
  obtain ⟨written, -, rfl⟩ := List.mem_map.mp isText
  have known : isIP written.text ≠ 0 := by
    rw [isIP_written]
    cases written <;> simp [Written.family]
  unfold isolatedPage
  rw [ok]
  change hostResolverRule hostname.text written.text = _
  unfold hostResolverRule
  dsimp only
  rw [if_neg (not_not.mpr isName), bind_eq_ok]
  refine ⟨(), (raiseIf_eq_ok _ _ _).mpr known, ?_⟩
  unfold mapRule
  split <;> rfl

/-- The runtime guards a host exactly when its tests refuse one of the host's addresses or none of
them lies in a block that no test looks for. -/
theorem host_guarded_iff (hostname : Hostname) :
    Guarded otherNotation resolver hostname ↔
      (∃ written ∈ hostname.addresses resolver, written.Refused) ∨
        ∀ written ∈ hostname.addresses resolver, ¬ written.Overlooked := by
  have resolves := resolvePublicHost_eq_ok otherNotation resolver hostname
  constructor
  · intro guarded
    by_contra unguarded
    rw [not_or, not_exists, not_forall] at unguarded
    obtain ⟨accepted, written, overlooks⟩ := unguarded
    obtain ⟨isAddress, overlooked⟩ := Classical.not_imp.mp overlooks
    have all : ∀ written ∈ hostname.addresses resolver, ¬ written.Refused :=
      fun other member refused => accepted other ⟨member, refused⟩
    have special := (special_iff_overlooked (all written isAddress)).mpr (not_not.mp overlooked)
    exact guarded.nothing ⟨written, isAddress, special⟩ _
      ((resolves _).mpr ⟨List.ne_nil_of_mem isAddress, all, rfl⟩)
  · intro guards
    -- What is returned has passed every test, so the second condition is the one that holds.
    have plain : ∀ texts, resolvePublicHost otherNotation hostname.text (resolverOf resolver) = .ok texts →
        ∀ written ∈ hostname.addresses resolver, ¬ written.address.Special := by
      intro texts ok written isAddress special
      obtain ⟨-, accepted, -⟩ := (resolves texts).mp ok
      rcases guards with ⟨other, member, refused⟩ | fine
      · exact accepted other member refused
      · exact fine written isAddress ((special_iff_overlooked (accepted written isAddress)).mp special)
    refine ⟨?_, ?_, fun texts ok isName => isolatedPage_first otherNotation resolver ok isName⟩
    · intro texts ok text member
      obtain ⟨-, -, same⟩ := (resolves texts).mp ok
      rw [same, List.mem_eraseDups, List.mem_map] at member
      exact ⟨member, fun written isAddress _ => plain texts ok written isAddress⟩
    · rintro ⟨written, isAddress, special⟩ texts ok
      exact plain texts ok written isAddress special

/-- An address of the block that IPv6 sets apart for benchmarking. -/
def benchmarkingAddress : IPv6 := ⟨[0x2001, 0x2, 0, 0, 0, 0, 0, 1], rfl⟩

theorem exampleName_plain : isIP (normalizeHostname "example.test".toList) = 0 := by decide

/-- The runtime returns an address of the benchmarking block of IPv6. -/
theorem benchmarking_address_returned :
    resolvePublicHost (fun _ => none) "example.test".toList
        (resolverOf fun _ => some [.v6 benchmarkingAddress]) = .ok ["2001:2::1".toList] ∧
      benchmarkingAddress.For .benchmarking ∧
      ¬ Guarded (fun _ => none) (fun _ => some [.v6 benchmarkingAddress])
        (.name "example.test".toList exampleName_plain) := by
  have returned : resolvePublicHost (fun _ => none) "example.test".toList
      (resolverOf fun _ => some [.v6 benchmarkingAddress]) = .ok ["2001:2::1".toList] := by decide
  have benchmarking : benchmarkingAddress.For .benchmarking := by decide
  refine ⟨returned, benchmarking, fun guarded => ?_⟩
  refine guarded.nothing ⟨.v6 benchmarkingAddress, ?_, ?_⟩ _ returned
  · have notLocal : (normalizeHostname "example.test".toList).map Char.toLower ≠
        "localhost".toList := by decide
    rw [Hostname.addresses, if_neg notLocal]
    exact List.mem_singleton_self _
  · exact ⟨.benchmarking, benchmarking⟩

end Nexora.Browser
