import Nexora.Std.Words

/-!
# Network addresses

IPv4 and IPv6 addresses, the blocks that are set apart for a purpose, and the texts addresses are
written as. The canonical text of an IPv6 address leaves out the first of its longest runs of zero
groups; an address that embeds an IPv4 address may be written with that address at its end.
-/

namespace Nexora.Std

/-- Words of some bits agree, in a number of first bits, with some leading words and the zeros that
follow these. -/
def agreeIn (bits : Nat) : Nat → List Nat → List Nat → Bool
  | _, _, [] => true
  | length, leading, word :: words =>
    if length ≤ bits then
      word / 2 ^ (bits - length) = leading.headD 0 / 2 ^ (bits - length)
    else word = leading.headD 0 && agreeIn bits (length - bits) leading.tail words

/-- The addresses that agree, in their first bits, with the one that starts with some words and
goes on with zeros. -/
structure Block where
  leading : List Nat
  length : Nat

/-- An address, given as words of some bits, lies in a block. -/
def Block.Contains (block : Block) (bits : Nat) (words : List Nat) : Prop :=
  agreeIn bits block.length block.leading words = true

instance (block : Block) (bits : Nat) (words : List Nat) :
    Decidable (block.Contains bits words) := inferInstanceAs (Decidable (_ = _))

/-- What a block of addresses is set apart for. -/
inductive Purpose where
  | unspecified
  | loopback
  | privateUse
  | shared
  | linkLocal
  | siteLocal
  | uniqueLocal
  | benchmarking
  | documentation
  | multicast
  | reserved
  deriving DecidableEq, Repr

theorem Purpose.exists_iff {holds : Purpose → Prop} :
    (∃ purpose, holds purpose) ↔ holds .unspecified ∨ holds .loopback ∨ holds .privateUse ∨
      holds .shared ∨ holds .linkLocal ∨ holds .siteLocal ∨ holds .uniqueLocal ∨
      holds .benchmarking ∨ holds .documentation ∨ holds .multicast ∨ holds .reserved := by
  constructor
  · rintro ⟨purpose, isPurpose⟩
    cases purpose <;> simp only [isPurpose, true_or, or_true]
  · rintro (h | h | h | h | h | h | h | h | h | h | h) <;> exact ⟨_, h⟩

/-! ## IPv4 -/

structure IPv4 where
  first : Fin 256
  second : Fin 256
  third : Fin 256
  fourth : Fin 256
  deriving DecidableEq, Repr

namespace IPv4

variable (address : IPv4)

def octets : List Nat :=
  [address.first.val, address.second.val, address.third.val, address.fourth.val]

/-- The blocks of IPv4. -/
def blocks : Purpose → List Block
  | .unspecified => [⟨[0], 8⟩]
  | .loopback => [⟨[127], 8⟩]
  | .privateUse => [⟨[10], 8⟩, ⟨[172, 16], 12⟩, ⟨[192, 168], 16⟩]
  | .shared => [⟨[100, 64], 10⟩]
  | .linkLocal => [⟨[169, 254], 16⟩]
  | .siteLocal => []
  | .uniqueLocal => []
  | .benchmarking => [⟨[198, 18], 15⟩]
  | .documentation => [⟨[192, 0, 2], 24⟩, ⟨[198, 51, 100], 24⟩, ⟨[203, 0, 113], 24⟩]
  | .multicast => [⟨[224], 4⟩]
  | .reserved => [⟨[192, 0, 0], 24⟩, ⟨[240], 4⟩]

/-- The address is set apart for a purpose. -/
def Special : Prop :=
  ∃ purpose, ∃ block ∈ blocks purpose, block.Contains 8 address.octets

/-- The octets of the special addresses. -/
theorem special_iff :
    address.Special ↔
      address.first.val = 0 ∨ address.first.val = 127 ∨
      (address.first.val = 10 ∨ address.first.val = 172 ∧ address.second.val / 16 = 1 ∨
        address.first.val = 192 ∧ address.second.val = 168) ∨
      (address.first.val = 100 ∧ address.second.val / 64 = 1) ∨
      (address.first.val = 169 ∧ address.second.val = 254) ∨
      (address.first.val = 198 ∧ address.second.val / 2 = 9) ∨
      (address.first.val = 192 ∧ address.second.val = 0 ∧ address.third.val = 2 ∨
        address.first.val = 198 ∧ address.second.val = 51 ∧ address.third.val = 100 ∨
        address.first.val = 203 ∧ address.second.val = 0 ∧ address.third.val = 113) ∨
      address.first.val / 16 = 14 ∨
      (address.first.val = 192 ∧ address.second.val = 0 ∧ address.third.val = 0 ∨
        address.first.val / 16 = 15) := by
  unfold Special
  rw [Purpose.exists_iff]
  simp [blocks, Block.Contains, octets, agreeIn]

/-- The four octets, in decimal, with dots between them. -/
def text : List Char := ['.'].intercalate (address.octets.map fun octet => Nat.toDigits 10 octet)

end IPv4

/-! ## IPv6 -/

structure IPv6 where
  groups : List (Fin 0x10000)
  eight : groups.length = 8
  deriving DecidableEq, Repr

namespace IPv6

/-- The blocks of IPv6. Outside the space for unicast addresses, what no other purpose takes is
reserved. -/
def blocks : Purpose → List Block
  | .unspecified => [⟨[], 128⟩]
  | .loopback => [⟨[0, 0, 0, 0, 0, 0, 0, 1], 128⟩]
  | .privateUse => []
  | .shared => []
  | .linkLocal => [⟨[0xfe80], 10⟩]
  | .siteLocal => [⟨[0xfec0], 10⟩]
  | .uniqueLocal => [⟨[0xfc00], 7⟩]
  | .benchmarking => [⟨[0x2001, 0x2], 48⟩]
  | .documentation => [⟨[0x2001, 0xdb8], 32⟩, ⟨[0x3fff], 20⟩]
  | .multicast => [⟨[0xff00], 8⟩]
  | .reserved => [⟨[0], 8⟩, ⟨[0x100], 8⟩, ⟨[0x200], 7⟩, ⟨[0x400], 6⟩, ⟨[0x800], 5⟩, ⟨[0x1000], 4⟩,
      ⟨[0x4000], 3⟩, ⟨[0x6000], 3⟩, ⟨[0x8000], 3⟩, ⟨[0xa000], 3⟩, ⟨[0xc000], 3⟩, ⟨[0xe000], 4⟩,
      ⟨[0xf000], 5⟩, ⟨[0xf800], 6⟩, ⟨[0xfe00], 9⟩]

/-- An address lies in one of the blocks of a purpose. -/
def For (purpose : Purpose) (address : IPv6) : Prop :=
  ∃ block ∈ blocks purpose, block.Contains 16 (address.groups.map Fin.val)

instance (purpose : Purpose) (address : IPv6) : Decidable (address.For purpose) :=
  inferInstanceAs (Decidable (∃ block ∈ _, _))

/-- The address is set apart for a purpose. -/
def Special (address : IPv6) : Prop := ∃ purpose, address.For purpose

/-- The address that is mapped from one of IPv4. -/
def mapped (address : IPv4) : IPv6 :=
  ⟨[0, 0, 0, 0, 0, 0xffff, Fin.ofNat _ (address.first.val * 256 + address.second.val),
    Fin.ofNat _ (address.third.val * 256 + address.fourth.val)], rfl⟩

/-- The address that is compatible with one of IPv4. -/
def compatible (address : IPv4) : IPv6 :=
  ⟨[0, 0, 0, 0, 0, 0, Fin.ofNat _ (address.first.val * 256 + address.second.val),
    Fin.ofNat _ (address.third.val * 256 + address.fourth.val)], rfl⟩

/-- The IPv4 address that an address is mapped from. -/
def embedded? (address : IPv6) : Option IPv4 :=
  if address.groups.take 6 = [0, 0, 0, 0, 0, 0xffff] then
    let high := (address.groups.getD 6 0).val
    let low := (address.groups.getD 7 0).val
    some ⟨Fin.ofNat _ (high / 256), Fin.ofNat _ high, Fin.ofNat _ (low / 256), Fin.ofNat _ low⟩
  else none

/-- How many zero groups stand at the front. -/
def zeros (groups : List (Fin 0x10000)) : Nat := (groups.takeWhile fun group => group = 0).length

/-- The first of the longest runs of zero groups: where it starts, and how long it is. -/
def longestRun (groups : List (Fin 0x10000)) : Nat × Nat :=
  (List.range groups.length).foldl
    (fun best start =>
      if best.2 < zeros (groups.drop start) then (start, zeros (groups.drop start)) else best) (0, 0)

/-- Groups in hexadecimal, with colons between them. -/
def groupsText (groups : List (Fin 0x10000)) : List Char :=
  [':'].intercalate (groups.map fun group => Nat.toDigits 16 group.val)

/-- The canonical text. -/
def text (address : IPv6) : List Char :=
  let run := longestRun address.groups
  if run.2 < 2 then groupsText address.groups
  else groupsText (address.groups.take run.1) ++ ':' :: ':' ::
    groupsText (address.groups.drop (run.1 + run.2))

end IPv6

/-! ## The characters of a text -/

theorem digitChar_inj {first second : Nat} (small : first < 16) (other : second < 16) :
    Nat.digitChar first = Nat.digitChar second ↔ first = second := by
  have all : ∀ first second : Fin 16,
      Nat.digitChar first.val = Nat.digitChar second.val ↔ first = second := by decide
  have one := all ⟨first, small⟩ ⟨second, other⟩
  rwa [Fin.mk.injEq] at one

variable {group : Nat}

/-- The hexadecimal digits of a group. -/
theorem toDigits_group (small : group < 0x10000) :
    (group < 0x10 ∧ Nat.toDigits 16 group = [Nat.digitChar group]) ∨
    (0x10 ≤ group ∧ group < 0x100 ∧
      Nat.toDigits 16 group = [Nat.digitChar (group / 0x10), Nat.digitChar (group % 0x10)]) ∨
    (0x100 ≤ group ∧ group < 0x1000 ∧ Nat.toDigits 16 group =
      [Nat.digitChar (group / 0x100), Nat.digitChar (group / 0x10 % 0x10),
        Nat.digitChar (group % 0x10)]) ∨
    (0x1000 ≤ group ∧ Nat.toDigits 16 group =
      [Nat.digitChar (group / 0x1000), Nat.digitChar (group / 0x100 % 0x10),
        Nat.digitChar (group / 0x10 % 0x10), Nat.digitChar (group % 0x10)]) := by
  have one : ∀ n, n < 0x10 → Nat.toDigits 16 n = [Nat.digitChar n] :=
    fun n bound => Nat.toDigits_of_lt_base bound
  have more : ∀ n, 0x10 ≤ n →
      Nat.toDigits 16 n = Nat.toDigits 16 (n / 0x10) ++ [Nat.digitChar (n % 0x10)] :=
    fun n bound => Nat.toDigits_of_base_le (by decide) bound
  by_cases single : group < 0x10
  · exact .inl ⟨single, one group single⟩
  · rw [more group (by omega)]
    by_cases double : group < 0x100
    · rw [one _ (by omega)]
      exact .inr (.inl ⟨by omega, double, rfl⟩)
    · rw [more (group / 0x10) (by omega), Nat.div_div_eq_div_mul]
      by_cases triple : group < 0x1000
      · rw [one _ (by omega)]
        exact .inr (.inr (.inl ⟨by omega, triple, rfl⟩))
      · rw [more (group / (0x10 * 0x10)) (by omega), Nat.div_div_eq_div_mul, one _ (by omega)]
        exact .inr (.inr (.inr ⟨by omega, rfl⟩))

variable {character : Char}

/-- Every character of a group is a digit's. -/
theorem mem_toDigits_group (small : group < 0x10000) (member : character ∈ Nat.toDigits 16 group) :
    ∃ digit < 16, character = Nat.digitChar digit := by
  rcases toDigits_group small with ⟨_, digits⟩ | ⟨_, _, digits⟩ | ⟨_, _, digits⟩ | ⟨_, digits⟩
  all_goals
    rw [digits] at member
    simp only [List.mem_cons, List.not_mem_nil, or_false] at member
  · exact ⟨_, by omega, member⟩
  · rcases member with same | same <;> exact ⟨_, by omega, same⟩
  · rcases member with same | same | same <;> exact ⟨_, by omega, same⟩
  · rcases member with same | same | same | same <;> exact ⟨_, by omega, same⟩

/-- Texts with a separator between them, the first one apart. -/
theorem intercalate_cons {α : Type} (separator : α) (first : List α) {rest : List (List α)}
    (some_ : rest ≠ []) :
    [separator].intercalate (first :: rest) =
      first ++ separator :: [separator].intercalate rest := by
  rw [List.intercalate_cons_of_ne_nil some_]
  simp

/-- What stands in a text stands between its separators or is one. -/
theorem mem_intercalate {separator : Char} {parts : List (List Char)}
    (member : character ∈ [separator].intercalate parts) :
    character = separator ∨ ∃ part ∈ parts, character ∈ part := by
  induction parts with
  | nil => simp at member
  | cons part rest ih =>
    by_cases last : rest = []
    · rw [last, List.intercalate_singleton] at member
      exact .inr ⟨part, by simp, member⟩
    · rw [intercalate_cons _ _ last, List.mem_append, List.mem_cons] at member
      rcases member with inside | rfl | later
      · exact .inr ⟨part, by simp, inside⟩
      · exact .inl rfl
      · rcases ih later with same | ⟨other, isOther, inside⟩
        · exact .inl same
        · exact .inr ⟨other, by simp [isOther], inside⟩

/-- A word and its separator start a text exactly when the text's first word is that word. -/
theorem word_prefix {α : Type} {separator : α} {word first : List α} (plain : separator ∉ word)
    (other : separator ∉ first) (start rest : List α) :
    (word ++ separator :: start <+: first ++ separator :: rest) ↔ word = first ∧ start <+: rest := by
  induction word generalizing first with
  | nil =>
    cases first with
    | nil => simp
    | cons character others =>
      have differs : separator ≠ character := by
        rintro rfl
        exact other (by simp)
      simp [differs]
  | cons character others ih =>
    have differs : character ≠ separator := by
      rintro rfl
      exact plain (by simp)
    cases first with
    | nil => simp [differs]
    | cons head tail =>
      rw [List.cons_append, List.cons_append, List.cons_prefix_cons,
        ih (fun member => plain (by simp [member]))
          (fun member => other (by simp [member])), List.cons.injEq, and_assoc]

/-- No digit is a colon. -/
theorem colon_notMem_group (small : group < 0x10000) :
    ':' ∉ Nat.toDigits 16 group := by
  intro colon
  obtain ⟨digit, bound, same⟩ := mem_toDigits_group small colon
  have all : ∀ digit : Fin 16, ':' ≠ Nat.digitChar digit.val := by decide
  exact all ⟨digit, bound⟩ same

/-- A group is known from its digits. -/
theorem toDigits_group_inj {first second : Nat} (small : first < 0x10000) (other : second < 0x10000) :
    Nat.toDigits 16 first = Nat.toDigits 16 second ↔ first = second := by
  constructor
  · intro same
    rcases toDigits_group small with ⟨_, digits⟩ | ⟨_, _, digits⟩ | ⟨_, _, digits⟩ | ⟨_, digits⟩
    all_goals
      rcases toDigits_group other with ⟨_, others⟩ | ⟨_, _, others⟩ | ⟨_, _, others⟩ | ⟨_, others⟩
      all_goals
        rw [digits, others] at same
        simp (disch := omega) only [List.cons.injEq, digitChar_inj, reduceCtorEq, and_false,
          and_true] at same
      all_goals omega
  · rintro rfl
    rfl

namespace IPv4

/-- The characters of an IPv4 address. -/
theorem mem_text {address : IPv4} (member : character ∈ address.text) :
    character.isDigit = true ∨ character = '.' := by
  unfold text octets at member
  simp only [List.map_cons, List.map_nil, List.intercalate_cons_cons, List.intercalate_singleton,
    List.mem_append, List.mem_singleton] at member
  have digit : ∀ n, character ∈ Nat.toDigits 10 n → character.isDigit = true :=
    fun n inside => Nat.isDigit_of_mem_toDigits (by decide) (by decide) inside
  simp only [or_assoc] at member
  rcases member with inside | dot | inside | dot | inside | dot | inside
  · exact .inl (digit _ inside)
  · exact .inr dot
  · exact .inl (digit _ inside)
  · exact .inr dot
  · exact .inl (digit _ inside)
  · exact .inr dot
  · exact .inl (digit _ inside)

/-- What stands between the dots of an IPv4 address. -/
theorem splitOn_text (address : IPv4) :
    address.text.splitOn '.' = address.octets.map fun octet => Nat.toDigits 10 octet := by
  apply List.splitOn_intercalate
  · intro part member
    obtain ⟨octet, -, rfl⟩ := List.mem_map.mp member
    intro dot
    exact absurd (Nat.isDigit_of_mem_toDigits (by decide) (by decide) dot) (by decide)
  · simp [octets]

/-- An IPv4 address starts with a digit, and it has a dot. -/
theorem text_starts (address : IPv4) :
    ∃ first rest, address.text = first :: rest ∧ first.isDigit = true ∧ '.' ∈ rest := by
  have digits : ∀ n, ∃ first rest, Nat.toDigits 10 n = first :: rest ∧ first.isDigit = true := by
    intro n
    obtain ⟨first, rest, same⟩ := List.exists_cons_of_ne_nil (Nat.toDigits_ne_nil (n := n) (b := 10))
    have member : first ∈ Nat.toDigits 10 n := by simp [same]
    exact ⟨first, rest, same, Nat.isDigit_of_mem_toDigits (by decide) (by decide) member⟩
  obtain ⟨first, rest, same, isDigit⟩ := digits address.first.val
  have written : address.text = first :: (rest ++ '.' :: ['.'].intercalate
      ([address.second.val, address.third.val, address.fourth.val].map
        fun octet => Nat.toDigits 10 octet)) := by
    unfold text octets
    rw [List.map_cons, intercalate_cons _ _ (by simp), same]
    rfl
  exact ⟨first, _, written, isDigit, by simp⟩

end IPv4

namespace IPv6

/-- The groups of an address. -/
theorem exists_groups (address : IPv6) : ∃ g₀ g₁ g₂ g₃ g₄ g₅ g₆ g₇,
    address.groups = [g₀, g₁, g₂, g₃, g₄, g₅, g₆, g₇] := by
  obtain ⟨groups, eight⟩ := address
  match groups, eight with
  | [g₀, g₁, g₂, g₃, g₄, g₅, g₆, g₇], _ => exact ⟨_, _, _, _, _, _, _, _, rfl⟩

variable {first : Fin 0x10000}

/-- The blocks that lie within one group. -/
theorem contains_head {address : IPv6} {rest : List (Fin 0x10000)}
    (isGroups : address.groups = first :: rest) {leading length : Nat} (short : length ≤ 16) :
    (⟨[leading], length⟩ : Block).Contains 16 (address.groups.map Fin.val) ↔
      first.val / 2 ^ (16 - length) = leading / 2 ^ (16 - length) := by
  rw [Block.Contains, isGroups, List.map_cons, agreeIn, if_pos short, decide_eq_true_eq]
  rfl

theorem for_unspecified {address : IPv6} (given : address.For .unspecified) :
    address.groups = List.replicate 8 0 := by
  obtain ⟨g₀, g₁, g₂, g₃, g₄, g₅, g₆, g₇, isGroups⟩ := address.exists_groups
  simp [For, blocks, Block.Contains, isGroups, agreeIn] at given
  obtain ⟨rfl, rfl, rfl, rfl, rfl, rfl, rfl, rfl⟩ := given
  exact isGroups

theorem for_loopback {address : IPv6} (given : address.For .loopback) :
    address.groups = List.replicate 7 0 ++ [1] := by
  obtain ⟨g₀, g₁, g₂, g₃, g₄, g₅, g₆, g₇, isGroups⟩ := address.exists_groups
  simp [For, blocks, Block.Contains, isGroups, agreeIn] at given
  obtain ⟨rfl, rfl, rfl, rfl, rfl, rfl, rfl, one⟩ := given
  have last : g₇ = 1 := Fin.ext one
  rw [isGroups, last]
  rfl

theorem for_documentation {address : IPv6} (given : address.For .documentation) :
    address.groups.take 2 = [0x2001, 0xdb8] ∨
      (⟨[0x3fff], 20⟩ : Block).Contains 16 (address.groups.map Fin.val) := by
  obtain ⟨block, isBlock, inside⟩ := given
  simp only [blocks, List.mem_cons, List.not_mem_nil, or_false] at isBlock
  rcases isBlock with rfl | rfl
  · left
    obtain ⟨g₀, g₁, g₂, g₃, g₄, g₅, g₆, g₇, isGroups⟩ := address.exists_groups
    simp [Block.Contains, isGroups, agreeIn] at inside
    rw [isGroups]
    have first : g₀ = 0x2001 := Fin.ext inside.1
    have second : g₁ = 0xdb8 := Fin.ext inside.2
    rw [first, second]
    rfl
  · exact .inr inside

/-- The first group of an address that is local to a link, a site or an organisation, or that is
for many receivers. -/
theorem for_local {address : IPv6} {rest : List (Fin 0x10000)}
    (isGroups : address.groups = first :: rest) {purpose : Purpose}
    (isLocal : purpose ∈ [.linkLocal, .siteLocal, .uniqueLocal, .multicast])
    (given : address.For purpose) :
    (0xfc00 ≤ first.val ∧ first.val ≤ 0xfdff) ∨ 0xfe80 ≤ first.val := by
  obtain ⟨block, isBlock, inside⟩ := given
  simp only [List.mem_cons, List.not_mem_nil, or_false] at isLocal
  rcases isLocal with rfl | rfl | rfl | rfl
  all_goals
    cases List.mem_singleton.mp isBlock
    rw [contains_head isGroups (by decide)] at inside
    omega

/-- The longest run is one of zeros. -/
theorem longestRun_zeros (groups : List (Fin 0x10000)) :
    (longestRun groups).2 = 0 ∨
      (longestRun groups).2 = zeros (groups.drop (longestRun groups).1) := by
  unfold longestRun
  generalize List.range groups.length = starts
  have kept : ∀ best : Nat × Nat, (best.2 = 0 ∨ best.2 = zeros (groups.drop best.1)) →
      let final := starts.foldl (fun best start =>
        if best.2 < zeros (groups.drop start) then (start, zeros (groups.drop start)) else best) best
      final.2 = 0 ∨ final.2 = zeros (groups.drop final.1) := by
    induction starts with
    | nil =>
      intro best holds
      exact holds
    | cons start rest ih =>
      intro best holds
      rw [List.foldl_cons]
      apply ih
      split
      · exact .inr rfl
      · exact holds
  exact kept (0, 0) (.inl rfl)

theorem zeros_le (groups : List (Fin 0x10000)) : zeros groups ≤ groups.length :=
  (List.takeWhile_prefix _).length_le

/-- A run starts with a zero group. -/
theorem zeros_cons {group : Fin 0x10000} {rest : List (Fin 0x10000)}
    (some_ : 0 < zeros (group :: rest)) : group = 0 := by
  by_contra filled
  simp [zeros, filled] at some_

/-- Groups are written one after the other, each followed by a colon but for the last. -/
theorem groupsText_cons (first second : Fin 0x10000) (rest : List (Fin 0x10000)) :
    groupsText (first :: second :: rest) =
      Nat.toDigits 16 first.val ++ ':' :: groupsText (second :: rest) := by
  unfold groupsText
  rw [List.map_cons, intercalate_cons _ _ (by simp)]

theorem groupsText_singleton (group : Fin 0x10000) :
    groupsText [group] = Nat.toDigits 16 group.val := by
  simp [groupsText]

/-- What follows the first group of some groups and a further text. -/
theorem groupsText_append (first : Fin 0x10000) (rest : List (Fin 0x10000)) (tail : List Char) :
    ∃ after, groupsText (first :: rest) ++ ':' :: tail =
      Nat.toDigits 16 first.val ++ ':' :: after := by
  cases rest with
  | nil => exact ⟨tail, by rw [groupsText_singleton]⟩
  | cons second others => exact ⟨_, by rw [groupsText_cons, List.append_assoc]; rfl⟩

/-- How the canonical text of an address starts: with two colons where the first groups are left
out, else with the first group, and then with the second one unless that is left out. -/
theorem text_cases (address : IPv6) {second : Fin 0x10000} {rest : List (Fin 0x10000)}
    (isGroups : address.groups = first :: second :: rest) :
    (2 ≤ (longestRun address.groups).2 ∧ (longestRun address.groups).1 = 0 ∧
      address.text = ':' :: ':' :: groupsText (address.groups.drop (longestRun address.groups).2)) ∨
    (second = 0 ∧ (longestRun address.groups).1 ≠ 0 ∧
      ∃ tail, address.text = Nat.toDigits 16 first.val ++ ':' :: ':' :: tail) ∨
    (¬ (2 ≤ (longestRun address.groups).2 ∧ (longestRun address.groups).1 ≤ 1) ∧
      ∃ tail, address.text =
        Nat.toDigits 16 first.val ++ ':' :: (Nat.toDigits 16 second.val ++ ':' :: tail)) := by
  have eight := address.eight
  have run := longestRun_zeros address.groups
  unfold text
  dsimp only
  split
  · rename_i short
    right; right
    refine ⟨by omega, ?_⟩
    rw [isGroups] at eight ⊢
    cases rest with
    | nil => simp at eight
    | cons third others =>
      exact ⟨_, by rw [groupsText_cons, groupsText_cons]⟩
  · rename_i long
    rw [Nat.not_lt] at long
    have isRun : (longestRun address.groups).2 =
        zeros (address.groups.drop (longestRun address.groups).1) := by
      rcases run with none_ | isRun
      · omega
      · exact isRun
    generalize longestRun address.groups = best at long isRun ⊢
    obtain ⟨start, count⟩ := best
    dsimp only at long isRun ⊢
    rw [isGroups] at isRun ⊢
    match start with
    | 0 => exact .inl ⟨long, rfl, by simp [groupsText]⟩
    | 1 =>
      right; left
      refine ⟨@zeros_cons second rest ?_, Nat.one_ne_zero,
        groupsText ((first :: second :: rest).drop (1 + count)), ?_⟩
      · change 0 < zeros ((first :: second :: rest).drop 1)
        omega
      · rw [List.take_succ_cons, List.take_zero, groupsText_singleton]
    | start + 2 =>
      right; right
      refine ⟨by omega, ?_⟩
      rw [List.take_succ_cons, List.take_succ_cons, groupsText_cons]
      obtain ⟨after, isAfter⟩ := groupsText_append second (rest.take start)
        (':' :: groupsText ((first :: second :: rest).drop (start + 2 + count)))
      exact ⟨after, by rw [List.append_assoc, List.cons_append, isAfter]⟩

variable {groups : List (Fin 0x10000)}

/-- The characters of groups. -/
theorem mem_groupsText (member : character ∈ groupsText groups) :
    character = ':' ∨ ∃ digit < 16, character = Nat.digitChar digit := by
  induction groups with
  | nil => simp [groupsText] at member
  | cons group rest ih =>
    cases rest with
    | nil =>
      rw [groupsText_singleton] at member
      exact .inr (mem_toDigits_group group.isLt member)
    | cons second others =>
      rw [groupsText_cons, List.mem_append, List.mem_cons] at member
      rcases member with inside | rfl | later
      · exact .inr (mem_toDigits_group group.isLt inside)
      · exact .inl rfl
      · exact ih later

/-- The characters of an IPv6 address. -/
theorem mem_text {address : IPv6} (member : character ∈ address.text) :
    character = ':' ∨ ∃ digit < 16, character = Nat.digitChar digit := by
  unfold text at member
  dsimp only at member
  split at member
  · exact mem_groupsText member
  · rw [List.mem_append, List.mem_cons, List.mem_cons] at member
    rcases member with before | rfl | rfl | after
    · exact mem_groupsText before
    · exact .inl rfl
    · exact .inl rfl
    · exact mem_groupsText after

/-- What stands between the colons of some groups. -/
theorem splitOn_groupsText (some_ : groups ≠ []) :
    (groupsText groups).splitOn ':' = groups.map fun group => Nat.toDigits 16 group.val := by
  apply List.splitOn_intercalate
  · intro part member
    obtain ⟨group, -, rfl⟩ := List.mem_map.mp member
    exact colon_notMem_group group.isLt
  · simpa using some_

/-- Only no groups at all are written as nothing. -/
theorem groupsText_eq_nil : groupsText groups = [] ↔ groups = [] := by
  constructor
  · intro empty
    by_contra some_
    have parts := splitOn_groupsText some_
    rw [empty, List.splitOn_nil] at parts
    obtain ⟨first, rest, rfl⟩ := List.exists_cons_of_ne_nil some_
    rw [List.map_cons, List.cons.injEq] at parts
    exact Nat.toDigits_ne_nil parts.1.symm
  · rintro rfl
    rfl

/-- Groups are known from their text. -/
theorem groupsText_inj {first second : List (Fin 0x10000)} (some_ : first ≠ []) (other : second ≠ [])
    (same : groupsText first = groupsText second) : first = second := by
  have parts := splitOn_groupsText some_
  rw [same, splitOn_groupsText other] at parts
  have injective : Function.Injective fun group : Fin 0x10000 => Nat.toDigits 16 group.val := by
    intro left right digits
    exact Fin.ext ((toDigits_group_inj left.isLt right.isLt).mp digits)
  exact (List.map_injective_iff.mpr injective parts).symm

/-- A run of zeros is followed by what is left of the groups. -/
theorem eq_zeros_append (groups : List (Fin 0x10000)) :
    groups = List.replicate (zeros groups) 0 ++ groups.drop (zeros groups) := by
  have before : groups.takeWhile (fun group => group = 0) = List.replicate (zeros groups) 0 := by
    rw [List.eq_replicate_iff]
    refine ⟨rfl, fun group member => ?_⟩
    simpa using List.mem_takeWhile_imp member
  have whole := List.takeWhile_append_dropWhile (p := fun group => group = 0) (l := groups)
  have after : groups.dropWhile (fun group => group = 0) = groups.drop (zeros groups) := by
    have dropped : ((groups.takeWhile fun group => group = 0) ++
        groups.dropWhile fun group => group = 0).drop (zeros groups) =
          groups.dropWhile fun group => group = 0 := List.drop_left
    rw [whole] at dropped
    exact dropped.symm
  rw [← before, ← after]
  exact whole.symm

/-- The run of a mapped address. -/
theorem longestRun_mapped (high low : Fin 0x10000) :
    longestRun [0, 0, 0, 0, 0, 0xffff, high, low] = (0, 5) := by
  by_cases zeroHigh : high = 0 <;> by_cases zeroLow : low = 0 <;>
    simp [longestRun, zeros, List.range, List.range.loop, zeroHigh, zeroLow]

end IPv6

end Nexora.Std
