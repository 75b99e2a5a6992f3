import Nexora.Messages.Parser

/-!
# The grammar of messages

Which strings spell a tree, stated apart from the parser: text runs without braces, arguments, and
placeholders whose options are named. The parser accepts exactly these strings and gives their
trees, except that a body named `__proto__` becomes the prototype of the other options.
-/

namespace Nexora.Messages

open JsText

section Keys

variable {Key First Second : Type}

mutual

/-- A node with its options under other keys. -/
def mapNode (rename : First → Second) : MessageNode First → MessageNode Second
  | .text value => .text value
  | .argument name => .argument name
  | .choice kind name options => .choice kind name (mapOptions rename options)

def mapNodes (rename : First → Second) : List (MessageNode First) → List (MessageNode Second)
  | [] => []
  | node :: nodes => mapNode rename node :: mapNodes rename nodes

def mapOptions (rename : First → Second) : Options First → Options Second
  | [] => []
  | (key, body) :: rest => (rename key, mapNodes rename body) :: mapOptions rename rest

end

mutual

/-- The keys of a node's options, those inside them included. -/
def keysNode : MessageNode Key → List Key
  | .text _ => []
  | .argument _ => []
  | .choice _ _ options => keysOptions options

def keys : List (MessageNode Key) → List Key
  | [] => []
  | node :: nodes => keysNode node ++ keys nodes

def keysOptions : Options Key → List Key
  | [] => []
  | (key, body) :: rest => key :: keys body ++ keysOptions rest

end

variable (first second : First → Second)

mutual

theorem mapNode_congr_iff : ∀ node : MessageNode First,
    mapNode first node = mapNode second node ↔ ∀ key ∈ keysNode node, first key = second key
  | .text _ => by simp [mapNode, keysNode]
  | .argument _ => by simp [mapNode, keysNode]
  | .choice _ _ options => by
      simp only [mapNode, keysNode, MessageNode.choice.injEq, true_and]
      exact mapOptions_congr_iff options

/-- Two renamings agree on a tree if and only if they agree on its keys. -/
theorem mapNodes_congr_iff : ∀ nodes : List (MessageNode First),
    mapNodes first nodes = mapNodes second nodes ↔ ∀ key ∈ keys nodes, first key = second key
  | [] => by simp [mapNodes, keys]
  | node :: nodes => by
      simp only [mapNodes, keys, List.cons.injEq, List.forall_mem_append]
      rw [mapNode_congr_iff node, mapNodes_congr_iff nodes]

theorem mapOptions_congr_iff : ∀ options : Options First,
    mapOptions first options = mapOptions second options ↔
      ∀ key ∈ keysOptions options, first key = second key
  | [] => by simp [mapOptions, keysOptions]
  | (key, body) :: rest => by
      simp only [mapOptions, keysOptions, List.cons.injEq, Prod.mk.injEq, List.cons_append,
        List.forall_mem_cons, List.forall_mem_append]
      rw [mapNodes_congr_iff body, mapOptions_congr_iff rest, and_assoc]

end

variable {rename : First → Second}

theorem mapNodes_append (left right : List (MessageNode First)) :
    mapNodes rename (left ++ right) = mapNodes rename left ++ mapNodes rename right := by
  induction left with
  | nil => rfl
  | cons node left ih =>
    rw [List.cons_append, mapNodes, mapNodes, ih, List.cons_append]

theorem mapNodes_textRun (text : JsString) : mapNodes rename (textRun text) = textRun text := by
  rw [textRun, textRun]
  split <;> rfl

variable [DecidableEq First] [DecidableEq Second]

theorem lookUp_mapOptions (injective : rename.Injective) (key : First) (options : Options First) :
    lookUp (rename key) (mapOptions rename options) =
      (lookUp key options).map (mapNodes rename) := by
  induction options with
  | nil => rfl
  | cons entry rest ih =>
    obtain ⟨held, body⟩ := entry
    rw [mapOptions, lookUp, lookUp, ih]
    by_cases same : held = key
    · simp [same]
    · simp [same, injective.ne same]

theorem assign_mapOptions (injective : rename.Injective) (key : First)
    (body : List (MessageNode First)) (options : Options First) :
    assign (rename key) (mapNodes rename body) (mapOptions rename options) =
      mapOptions rename (assign key body options) := by
  induction options with
  | nil => rfl
  | cons entry rest ih =>
    obtain ⟨held, given⟩ := entry
    rw [mapOptions, assign, assign, ih]
    by_cases same : held = key
    · simp [same, mapOptions]
    · simp [same, injective.ne same, mapOptions]

end Keys

/-- A tree of the grammar: options under their names. -/
abbrev Tree := List (MessageNode JsString)

theorem slotOf_injective : slotOf.Injective := by
  intro first second same
  rw [slotOf, slotOf] at same
  split at same <;> split at same <;> simp_all

/-- A tree as the nodes of a message, every option a property of its own. -/
def plain (tree : Tree) : List (MessageNode Slot) := mapNodes .own tree

/-- A tree as the parser keeps it. -/
def kept (tree : Tree) : List (MessageNode Slot) := mapNodes slotOf tree

/-- The parser keeps a tree as it is unless it names an option `__proto__`. -/
theorem kept_eq_plain_iff (tree : Tree) : kept tree = plain tree ↔ js "__proto__" ∉ keys tree := by
  rw [kept, plain, mapNodes_congr_iff]
  constructor
  · intro same member
    have atProto := same _ member
    rw [slotOf, if_pos rfl] at atProto
    cases atProto
  · intro absent key member
    rw [slotOf, if_neg]
    rintro rfl
    exact absent member

theorem kept_append (left right : Tree) : kept (left ++ right) = kept left ++ kept right :=
  mapNodes_append left right

theorem kept_textRun (text : JsString) : kept (textRun text) = textRun text :=
  mapNodes_textRun text

/-- A text run holds no brace. -/
def BraceFree (text : JsString) : Prop := ∀ unit ∈ text, unit ≠ 0x7b ∧ unit ≠ 0x7d

def StartsWithText : Tree → Prop
  | .text _ :: _ => True
  | _ => False

/-- What is spelled: nodes, a placeholder behind its opening brace, or the options that lead from
those before to those after. -/
inductive Part where
  | nodes (tree : Tree)
  | placeholder (node : MessageNode JsString)
  | options (before after : Options JsString)

/-- The strings of the grammar. A text run is not empty and is not followed by another, and an
option that is repeated keeps its last body. -/
inductive Spells : Part → JsString → Prop where
  | nil : Spells (.nodes []) []
  | text {value string : JsString} {tree : Tree} (some_ : value ≠ []) (free : BraceFree value)
      (maximal : ¬ StartsWithText tree) (rest : Spells (.nodes tree) string) :
      Spells (.nodes (.text value :: tree)) (value ++ string)
  | node {node : MessageNode JsString} {inner string : JsString} {tree : Tree}
      (placeholder : Spells (.placeholder node) inner) (rest : Spells (.nodes tree) string) :
      Spells (.nodes (node :: tree)) (0x7b :: (inner ++ string))
  | argument {name spaced : JsString} (named : isName name = true) (spacing : Spaced name spaced) :
      Spells (.placeholder (.argument name)) (spaced ++ [0x7d])
  | choice {kind : Kind} {name spaced kindSpaced string : JsString} {options : Options JsString}
      (named : isName name = true) (spacing : Spaced name spaced)
      (kindSpacing : Spaced kind.word kindSpaced) (inside : Spells (.options [] options) string)
      (other : (lookUp (js "other") options).isSome) :
      Spells (.placeholder (.choice kind name options))
        (spaced ++ 0x2c :: (kindSpaced ++ 0x2c :: (string ++ [0x7d])))
  | closed {options : Options JsString} {blanks : JsString} (blank : Blank blanks) :
      Spells (.options options options) blanks
  | option {name spaced string rest : JsString} {body : Tree}
      {before after : Options JsString} (named : isOption name = true)
      (spacing : Spaced name spaced) (inside : Spells (.nodes body) string)
      (others : Spells (.options (assign name body before) after) rest) :
      Spells (.options before after) (spaced ++ 0x7b :: (string ++ 0x7d :: rest))

section Words

/-- A code unit of a name, a type or an option's name. -/
def isWordUnit (unit : Fin 0x10000) : Bool :=
  isNameStart unit || isDigit unit || unit = 0x3d

/-- Such units are neither white space nor a stop. -/
theorem of_isWordUnit {unit : Fin 0x10000} (word : isWordUnit unit = true) :
    isSpace unit = false ∧ unit ≠ 0x2c ∧ unit ≠ 0x7b ∧ unit ≠ 0x7d := by
  simp only [isWordUnit, isNameStart, isDigit, isSpace, Bool.or_eq_true, Bool.and_eq_true,
    decide_eq_true_eq, Bool.or_eq_false_iff, Bool.and_eq_false_iff, decide_eq_false_iff_not,
    Fin.le_def, Fin.ext_iff, ne_eq] at word ⊢
  norm_num at word ⊢
  omega

theorem isWordUnit_of_isName {text : JsString} (named : isName text = true) :
    text ≠ [] ∧ ∀ unit ∈ text, isWordUnit unit = true := by
  cases text with
  | nil => cases named
  | cons first rest =>
    rw [isName, Bool.and_eq_true, List.all_eq_true] at named
    obtain ⟨starts, continues⟩ := named
    refine ⟨List.cons_ne_nil _ _, ?_⟩
    rintro unit member
    rcases List.mem_cons.mp member with rfl | inRest
    · simp [isWordUnit, starts]
    · have inside := continues unit inRest
      simp only [Bool.or_eq_true] at inside
      simp [isWordUnit, inside]

theorem isWordUnit_of_isOption {text : JsString} (named : isOption text = true) :
    text ≠ [] ∧ ∀ unit ∈ text, isWordUnit unit = true := by
  rw [isOption, Bool.or_eq_true] at named
  rcases named with named | exactly
  · exact isWordUnit_of_isName named
  · cases text with
    | nil => cases exactly
    | cons first rest =>
      simp only [List.head?_cons, List.tail_cons, Bool.and_eq_true, decide_eq_true_eq,
        Option.some.injEq, List.all_eq_true] at exactly
      obtain ⟨⟨isEquals, -⟩, digits⟩ := exactly
      refine ⟨List.cons_ne_nil _ _, ?_⟩
      rintro unit member
      rcases List.mem_cons.mp member with rfl | inRest
      · simp [isWordUnit, isEquals]
      · simp [isWordUnit, digits unit inRest]

theorem isWordUnit_word (kind : Kind) :
    kind.word ≠ [] ∧ ∀ unit ∈ kind.word, isWordUnit unit = true := by
  have units : kind.word.all isWordUnit = true := by cases kind <;> rfl
  exact ⟨by cases kind <;> simp [Kind.word, js], List.all_eq_true.mp units⟩

end Words

section Scanning

variable {word text : JsString} {stops : List (Fin 0x10000)}

theorem trim_word (some_ : word ≠ []) (units : ∀ unit ∈ word, isWordUnit unit = true)
    (spaced : Spaced word text) : trim text = word :=
  trim_spaced some_ (fun unit member => (of_isWordUnit (units unit member)).1) spaced

/-- Around a word there is no stop among the units of a spaced word. -/
theorem free_spaced (spaced : Spaced word text) (visible : ∀ stop ∈ stops, isSpace stop = false)
    (units : ∀ unit ∈ word, unit ∉ stops) : ∀ unit ∈ text, unit ∉ stops := by
  obtain ⟨front, back, frontBlank, backBlank, rfl⟩ := spaced
  intro unit member isStop
  have shown := visible unit isStop
  simp only [List.mem_append] at member
  rcases member with (inFront | inWord) | inBack
  · rw [frontBlank unit inFront] at shown
    cases shown
  · exact units unit inWord isStop
  · rw [backBlank unit inBack] at shown
    cases shown

theorem readUntil_eq_ok {rest read left : JsString} :
    readUntil stops rest = .ok (read, left) ↔
      rest = read ++ left ∧ (∀ unit ∈ read, unit ∉ stops) ∧
        ∃ stop tail, stop ∈ stops ∧ left = stop :: tail := by
  rw [readUntil]
  constructor
  · intro reads
    split at reads
    · cases reads
    next some_ =>
      simp only [Except.ok.injEq, Prod.mk.injEq] at reads
      obtain ⟨rfl, rfl⟩ := reads
      refine ⟨(List.takeWhile_append_dropWhile).symm, ?_, ?_⟩
      · intro unit member
        simpa using List.mem_takeWhile_imp member
      · obtain ⟨stop, tail, same⟩ := List.exists_cons_of_ne_nil some_
        refine ⟨stop, tail, ?_, same⟩
        have stopped := List.head_dropWhile_not (fun unit => !stops.contains unit) some_
        simp only [same, List.head_cons] at stopped
        simpa using stopped
  · rintro ⟨rfl, free, stop, tail, isStop, rfl⟩
    have passes : ∀ unit ∈ read, (!stops.contains unit) = true := by simpa using free
    have ends : (read ++ stop :: tail).dropWhile (fun unit => !stops.contains unit) =
        stop :: tail := by
      rw [List.dropWhile_append_of_pos passes, List.dropWhile_cons_of_neg (by simpa using isStop)]
    have takes : (read ++ stop :: tail).takeWhile (fun unit => !stops.contains unit) = read := by
      rw [List.takeWhile_append_of_pos passes, List.takeWhile_cons_of_neg (by simpa using isStop),
        List.append_nil]
    rw [ends, takes, if_neg (List.cons_ne_nil _ _)]

end Scanning

end Nexora.Messages
