import Nexora.Std.Fallible
import Nexora.Messages.Grammar

/-!
# What the parser accepts

The parser accepts the strings of the grammar and no other, and gives their trees. Completeness
goes by induction on how a string is spelled, soundness by induction on the rounds.
-/

namespace Nexora.Messages

open Nexora.Std JsText

section Properties

/-- A name that is no index and no property of an object or an array is not inherited. -/
theorem inherits_eq_false {name : JsString} (notIndex : name.head?.any isDigit = false)
    (notObject : objectPrototype.contains name = false)
    (notArray : arrayPrototype.contains name = false) (body : Option Nat) :
    inherits body name = false := by
  have notItem : ∀ length, ofArray name length = false := by
    intro length
    rw [ofArray, notArray, Bool.false_or, List.any_eq_false]
    intro index _ same
    obtain ⟨some_, -⟩ := noLeadingZero_decimal index
    obtain ⟨first, rest, digits⟩ := List.exists_cons_of_ne_nil some_
    have isDigit := digits_decimal index first (by simp [digits])
    rw [of_decide_eq_true same, digits, List.head?_cons, Option.any_some, isDigit] at notIndex
    cases notIndex
  rw [inherits, notObject, Bool.false_or]
  cases body with
  | none => rfl
  | some length => rw [Option.any_some, notItem]

theorem inherits_other (body : Option Nat) : inherits body (js "other") = false :=
  inherits_eq_false (by decide +kernel) (by decide +kernel) (by decide +kernel) body

/-- Reading a property of the options a tree is kept with. -/
theorem property_kept (options : Options JsString) (name : JsString) :
    property (mapOptions slotOf options) name =
      match lookUp name options with
      | some body => .body (kept body)
      | none =>
        if inherits ((lookUp (js "__proto__") options).map List.length) name then .inherited
        else .undefined := by
  have proto : Slot.proto = slotOf (js "__proto__") := by rw [slotOf, if_pos rfl]
  have lengths : ∀ body : Tree, (mapNodes slotOf body).length = body.length := by
    intro body
    induction body with
    | nil => rfl
    | cons node body ih => simp [mapNodes, ih]
  rw [property, proto, lookUp_mapOptions slotOf_injective, lookUp_mapOptions slotOf_injective]
  cases lookUp name options with
  | some body => rfl
  | none =>
    cases lookUp (js "__proto__") options with
    | none => rfl
    | some body => simp only [Option.map_none, Option.map_some, lengths]

/-- The options have a body for every other value if and only if they name it. -/
theorem property_other (options : Options JsString) :
    (property (mapOptions slotOf options) (js "other")).isUndefined = true ↔
      lookUp (js "other") options = none := by
  rw [property_kept, inherits_other]
  cases lookUp (js "other") options with
  | none => simp [Property.isUndefined]
  | some body => simp [Property.isUndefined]

end Properties

section Placeholders

variable {parser : Kind → JsString → Except Failure (Options Slot × JsString)}
  {name spaced kindSpaced inside left tail : JsString} {kind : Kind} {options : Options Slot}

/-- A name is read up to its stop. -/
theorem readUntil_spaced {stops : List (Fin 0x10000)} {stop : Fin 0x10000}
    (units : ∀ unit ∈ name, isWordUnit unit = true) (spacing : Spaced name spaced)
    (isStop : stop ∈ stops) (known : ∀ stop ∈ stops, stop = 0x2c ∨ stop = 0x7b ∨ stop = 0x7d) :
    readUntil stops (spaced ++ stop :: tail) = .ok (spaced, stop :: tail) := by
  refine readUntil_eq_ok.mpr ⟨rfl, free_spaced spacing ?_ ?_, stop, tail, isStop, rfl⟩
  · intro stop member
    rcases known stop member with rfl | rfl | rfl <;> rfl
  · intro unit member inStops
    obtain ⟨-, comma, opening, closing⟩ := of_isWordUnit (units unit member)
    rcases known unit inStops with rfl | rfl | rfl
    · exact comma rfl
    · exact opening rfl
    · exact closing rfl

theorem kindOf_word (kind : Kind) : kindOf kind.word = .ok kind := by
  cases kind with
  | plural => rw [kindOf, if_pos rfl]
  | select =>
    have other : Kind.select.word ≠ Kind.plural.word := by simp [Kind.word, js]
    rw [kindOf, if_neg other, if_pos rfl]

theorem kindOf_eq_ok {word : JsString} (found : kindOf word = .ok kind) : word = kind.word := by
  rw [kindOf] at found
  split at found
  next isPlural =>
    cases found
    exact isPlural
  next =>
    split at found
    next isSelect =>
      cases found
      exact isSelect
    next => cases found

/-- The stops of a placeholder's name and type. -/
theorem placeholder_stops (stop : Fin 0x10000) (isStop : stop ∈ [0x2c, 0x7d]) :
    stop = 0x2c ∨ stop = 0x7b ∨ stop = 0x7d := by
  simp only [List.mem_cons, List.not_mem_nil, or_false] at isStop
  tauto

theorem parsePlaceholder_argument (named : isName name = true) (spacing : Spaced name spaced) :
    parsePlaceholder parser (spaced ++ 0x7d :: tail) = .ok (.argument name, tail) := by
  obtain ⟨some_, units⟩ := isWordUnit_of_isName named
  have read := @readUntil_spaced name spaced tail [0x2c, 0x7d] 0x7d units spacing (by simp)
    placeholder_stops
  simp only [parsePlaceholder, bind_eq_ok, raiseIf_eq_ok]
  refine ⟨_, read, ⟨⟩, ?_, ?_⟩
  · rw [trim_word some_ units spacing, named]
    simp
  · rw [trim_word some_ units spacing]
    exact if_pos rfl

theorem parsePlaceholder_choice (named : isName name = true) (spacing : Spaced name spaced)
    (kindSpacing : Spaced kind.word kindSpaced) (parsed : parser kind inside = .ok (options, left))
    (other : ¬ (property options (js "other")).isUndefined = true) :
    parsePlaceholder parser (spaced ++ 0x2c :: (kindSpaced ++ 0x2c :: inside)) =
      .ok (.choice kind name options, left) := by
  obtain ⟨some_, units⟩ := isWordUnit_of_isName named
  obtain ⟨kindSome, kindUnits⟩ := isWordUnit_word kind
  have read := @readUntil_spaced name spaced (kindSpaced ++ 0x2c :: inside) [0x2c, 0x7d] 0x2c units
    spacing (by simp) placeholder_stops
  have readKind := @readUntil_spaced kind.word kindSpaced inside [0x2c, 0x7d] 0x2c kindUnits
    kindSpacing (by simp) placeholder_stops
  simp only [parsePlaceholder, bind_eq_ok, raiseIf_eq_ok]
  refine ⟨_, read, ⟨⟩, ?_, ?_⟩
  · rw [trim_word some_ units spacing, named]
    simp
  · rw [trim_word some_ units spacing, if_neg (by simp)]
    simp only [bind_eq_ok, raiseIf_eq_ok]
    refine ⟨_, readKind, kind, ?_, ⟨⟩, by simp, _, parsed, ⟨⟩, other, rfl⟩
    rw [trim_word kindSome kindUnits kindSpacing, kindOf_word]

/-- A placeholder that is read is spelled as one, but for what the options' parser accepts. -/
theorem parsePlaceholder_eq_ok {rest : JsString} {node : MessageNode Slot}
    (parsed : parsePlaceholder parser rest = .ok (node, left)) :
    (∃ name spaced, isName name = true ∧ Spaced name spaced ∧ rest = spaced ++ 0x7d :: left ∧
        node = .argument name) ∨
      ∃ kind name spaced kindSpaced inside options, isName name = true ∧ Spaced name spaced ∧
        Spaced (Kind.word kind) kindSpaced ∧
        rest = spaced ++ 0x2c :: (kindSpaced ++ 0x2c :: inside) ∧
        parser kind inside = .ok (options, left) ∧
        ¬ (property options (js "other")).isUndefined = true ∧
        node = .choice kind name options := by
  simp only [parsePlaceholder, bind_eq_ok, raiseIf_eq_ok] at parsed
  obtain ⟨⟨read, behind⟩, isRead, -, unnamed, parsed⟩ := parsed
  obtain ⟨rfl, -, stop, tail, isStop, rfl⟩ := readUntil_eq_ok.mp isRead
  have named := Bool.eq_true_of_not_eq_false unnamed
  dsimp only at named parsed
  split at parsed
  next closes =>
    rw [List.head?_cons, Option.some.injEq] at closes
    cases parsed
    exact .inl ⟨trim read, read, named, spaced_trim read, by rw [closes]; rfl, rfl⟩
  next goesOn =>
    simp only [bind_eq_ok, raiseIf_eq_ok, List.tail_cons] at parsed
    obtain ⟨⟨readKind, behindKind⟩, isKind, kind, isWord, -, comma, ⟨options, rest⟩, inner, -,
      other, same⟩ := parsed
    obtain ⟨rfl, -, second, inside, -, rfl⟩ := readUntil_eq_ok.mp isKind
    have isStop : stop = 0x2c := by
      rw [List.head?_cons, Option.some.injEq] at goesOn
      simp only [List.mem_cons, List.not_mem_nil, or_false] at isStop
      exact isStop.resolve_right goesOn
    have isComma : second = 0x2c := by simpa using comma
    have kindSpacing := spaced_trim readKind
    rw [kindOf_eq_ok isWord] at kindSpacing
    cases same
    exact .inr ⟨kind, trim read, read, readKind, inside, options, named, spaced_trim read,
      kindSpacing, by rw [isStop, isComma], inner, other, rfl⟩

end Placeholders

/-- Where nodes end: at the end of the string or before a closing brace. -/
def Ends (ending : JsString) : Prop := ending = [] ∨ ∃ tail, ending = 0x7d :: tail

/-- What nodes leave: a body takes its closing brace with it. -/
def leftOver (nested : Bool) (ending : JsString) : JsString :=
  if nested then ending.tail else ending

/-- How a part is parsed wherever it stands, given enough rounds. -/
def Parsed : Part → JsString → Prop
  | .nodes tree, string =>
    ∀ rounds nested before text ending, text = [] ∨ ¬ StartsWithText tree → Ends ending →
      (string ++ ending).length < rounds →
        parseNodes rounds nested before text (string ++ ending) =
          .ok (before ++ textRun text ++ kept tree, leftOver nested ending)
  | .placeholder node, string =>
    ∀ rounds tail, (string ++ tail).length < rounds →
      parsePlaceholder (fun kind rest => parseOptions rounds kind [] rest) (string ++ tail) =
        .ok (mapNode slotOf node, tail)
  | .options before after, string =>
    ∀ rounds kind tail, (string ++ 0x7d :: tail).length < rounds →
      parseOptions rounds kind (mapOptions slotOf before) (string ++ 0x7d :: tail) =
        .ok (mapOptions slotOf after, tail)

variable {rounds : Nat} {text string : JsString}

section Completeness

/-- A run of text is collected unit by unit. -/
theorem parseNodes_text {value : JsString} (free : BraceFree value) (rounds : Nat) (nested : Bool)
    (before : List (MessageNode Slot)) (text rest : JsString) :
    parseNodes (rounds + value.length) nested before text (value ++ rest) =
      parseNodes rounds nested before (text ++ value) rest := by
  induction value generalizing text with
  | nil => simp
  | cons unit value ih =>
    obtain ⟨⟨opening, closing⟩, free⟩ := List.forall_mem_cons.mp free
    rw [List.length_cons, ← Nat.add_assoc, List.cons_append, parseNodes, if_neg closing,
      if_neg opening, ih free, List.append_assoc, List.singleton_append]

/-- Nodes end where their string does. -/
theorem parseNodes_ends {nested : Bool} {before : List (MessageNode Slot)} {ending : JsString}
    (ends : Ends ending) (some_ : ending.length < rounds) :
    parseNodes rounds nested before text ending =
      .ok (before ++ textRun text, leftOver nested ending) := by
  obtain ⟨rounds, rfl⟩ := Nat.exists_eq_add_of_lt (Nat.zero_lt_of_lt some_)
  rw [Nat.zero_add]
  rcases ends with rfl | ⟨tail, rfl⟩
  · rw [parseNodes, leftOver]
    cases nested <;> rfl
  · rw [parseNodes, if_pos rfl]
    rfl

theorem textRun_of_ne_nil {Key : Type} (some_ : text ≠ []) :
    (textRun text : List (MessageNode Key)) = [.text text] := if_neg some_

/-- Every string of the grammar is parsed. -/
theorem Spells.parsed {part : Part} (spelled : Spells part string) :
    Parsed part string := by
  induction spelled with
  | nil =>
    intro rounds nested before text ending _ ends enough
    rw [List.nil_append] at enough ⊢
    rw [parseNodes_ends ends enough]
    simp [kept, mapNodes]
  | @text value string tree some_ free maximal rest ih =>
    intro rounds nested before text ending alone ends enough
    have nothing : text = [] := alone.resolve_right fun other => other trivial
    subst nothing
    simp only [List.length_append] at enough
    obtain ⟨more, same⟩ := Nat.exists_eq_add_of_le (show value.length ≤ rounds by omega)
    have fewer : (string ++ ending).length < more := by
      rw [List.length_append]
      omega
    rw [same, Nat.add_comm, List.append_assoc, parseNodes_text free, List.nil_append,
      ih more nested before value ending (.inr maximal) ends fewer,
      textRun_of_ne_nil some_]
    simp [textRun, kept, mapNodes, mapNode]
  | @node node inner string tree placeholder rest innerParsed restParsed =>
    intro rounds nested before text ending _ ends enough
    simp only [List.cons_append, List.append_assoc, List.length_cons, List.length_append]
      at enough ⊢
    obtain ⟨rounds, rfl⟩ := Nat.exists_eq_add_of_lt (Nat.zero_lt_of_lt enough)
    have opening : ¬ ((0x7b : Fin 0x10000) = 0x7d) := by decide
    rw [Nat.zero_add, parseNodes, if_neg opening, if_pos rfl,
      innerParsed rounds (string ++ ending) (by simp only [List.length_append]; omega)]
    change parseNodes rounds nested (before ++ textRun text ++ [mapNode slotOf node]) []
      (string ++ ending) = _
    rw [restParsed rounds nested _ [] ending (.inl rfl) ends
      (by simp only [List.length_append]; omega)]
    simp [textRun, kept, mapNodes]
  | @argument name spaced named spacing =>
    intro rounds tail _
    rw [List.append_assoc, List.singleton_append, parsePlaceholder_argument named spacing]
    rfl
  | @choice kind name spaced kindSpaced string options named spacing kindSpacing inside other
      insideParsed =>
      intro rounds tail enough
      simp only [List.append_assoc, List.cons_append, List.nil_append, List.length_append,
        List.length_cons] at enough ⊢
      refine parsePlaceholder_choice named spacing kindSpacing (insideParsed rounds kind tail
        (by simp only [List.length_append, List.length_cons]; omega)) ?_
      rw [property_other]
      intro missing
      rw [missing] at other
      cases other
  | @closed options blanks blank =>
    intro rounds kind tail enough
    obtain ⟨rounds, rfl⟩ := Nat.exists_eq_add_of_lt (Nat.zero_lt_of_lt enough)
    have skips : skipWhitespace (blanks ++ 0x7d :: tail) = 0x7d :: tail :=
      dropWhile_blank blank (by rintro unit ⟨⟩; rfl)
    rw [Nat.zero_add, parseOptions, skips]
    exact if_pos rfl
  | @option name spaced string rest body before after named spacing inside others insideParsed
      othersParsed =>
      intro rounds kind tail enough
      simp only [List.append_assoc, List.cons_append, List.length_append, List.length_cons]
        at enough ⊢
      obtain ⟨rounds, rfl⟩ := Nat.exists_eq_add_of_lt (Nat.zero_lt_of_lt enough)
      obtain ⟨some_, units⟩ := isWordUnit_of_isOption named
      obtain ⟨front, back, frontBlank, backBlank, rfl⟩ := spacing
      -- The option begins where the white space before it ends.
      obtain ⟨first, later, isFirst⟩ := List.exists_cons_of_ne_nil some_
      obtain ⟨visible, -, -, closing⟩ := of_isWordUnit (units first (by simp [isFirst]))
      have skips : skipWhitespace (front ++ name ++ back ++ 0x7b :: (string ++ 0x7d ::
          (rest ++ 0x7d :: tail))) = name ++ back ++ 0x7b :: (string ++ 0x7d ::
            (rest ++ 0x7d :: tail)) := by
        rw [List.append_assoc, List.append_assoc, ← List.append_assoc name]
        refine dropWhile_blank frontBlank ?_
        rw [isFirst]
        rintro unit ⟨⟩
        exact visible
      have read := @readUntil_spaced name (name ++ back) (string ++ 0x7d :: (rest ++ 0x7d :: tail))
        [0x7b] 0x7b units ⟨[], back, by simp [Blank], backBlank, by simp⟩ (by simp) (by simp)
      have trimmed := @trim_word name (name ++ back) some_ units
        ⟨[], back, by simp [Blank], backBlank, by simp⟩
      have body_ := insideParsed rounds true [] [] (0x7d :: (rest ++ 0x7d :: tail)) (.inl rfl)
        (.inr ⟨_, rfl⟩) (by simp only [List.length_append, List.length_cons] at enough ⊢; omega)
      have more := othersParsed rounds kind tail
        (by simp only [List.length_append, List.length_cons] at enough ⊢; omega)
      rw [Nat.zero_add, parseOptions]
      dsimp only
      rw [skips, if_neg]
      · simp only [bind_eq_ok, raiseIf_eq_ok]
        refine ⟨_, read, ⟨⟩, by simp [trimmed, named], ⟨⟩, by simp, _, body_, ?_⟩
        rw [trimmed, textRun, if_pos rfl, List.append_nil, List.nil_append, kept,
          assign_mapOptions slotOf_injective]
        exact more
      · rw [isFirst]
        simpa using closing

end Completeness

section Soundness

/-- What is parsed as nodes, after some text, is spelled as nodes that begin with that text. -/
def NodesSpelled (rounds : Nat) : Prop :=
  ∀ nested before text rest nodes left, BraceFree text →
    parseNodes rounds nested before text rest = .ok (nodes, left) →
      ∃ tree string ending, Spells (.nodes tree) (text ++ string) ∧ rest = string ++ ending ∧
        nodes = before ++ kept tree ∧ Ends ending ∧ left = leftOver nested ending

/-- What is parsed as options is spelled as options. -/
def OptionsSpelled (rounds : Nat) : Prop :=
  ∀ kind before rest options left,
    parseOptions rounds kind (mapOptions slotOf before) rest = .ok (options, left) →
      ∃ after string, Spells (.options before after) string ∧ rest = string ++ 0x7d :: left ∧
        options = mapOptions slotOf after

/-- A text run spells itself. -/
theorem spells_textRun (free : BraceFree text) :
    Spells (.nodes (textRun text)) text := by
  rw [textRun]
  split
  next nothing =>
    rw [nothing]
    exact .nil
  next some_ =>
    have alone := Spells.text some_ free (by simp [StartsWithText]) .nil
    rwa [List.append_nil] at alone

variable {node : MessageNode JsString} {inner : JsString}

/-- A placeholder goes on from a text run. -/
theorem spells_textRun_node {tree : Tree} (free : BraceFree text)
    (placeholder : Spells (.placeholder node) inner) (notText : ¬ StartsWithText [node])
    (rest : Spells (.nodes tree) string) :
    Spells (.nodes (textRun text ++ node :: tree)) (text ++ 0x7b :: (inner ++ string)) := by
  have after := Spells.node placeholder rest
  rw [textRun]
  split
  next nothing =>
    rw [nothing]
    exact after
  next some_ =>
    refine .text some_ free ?_ after
    cases node with
    | text value => exact absurd trivial notText
    | argument name => exact id
    | choice kind name options => exact id

theorem placeholder_notText (placeholder : Spells (.placeholder node) inner) :
    ¬ StartsWithText [node] := by
  cases placeholder with
  | argument => exact id
  | choice => exact id

/-- A placeholder is spelled where its options are. -/
theorem parsePlaceholder_spelled (options : OptionsSpelled rounds) {rest left : JsString}
    {node : MessageNode Slot}
    (parsed : parsePlaceholder (fun kind rest => parseOptions rounds kind [] rest) rest =
      .ok (node, left)) :
    ∃ kept inner, Spells (.placeholder kept) inner ∧ rest = inner ++ left ∧
      node = mapNode slotOf kept := by
  rcases parsePlaceholder_eq_ok parsed with ⟨name, spaced, named, spacing, rfl, rfl⟩ |
    ⟨kind, name, spaced, kindSpaced, inside, given, named, spacing, kindSpacing, rfl, inner, other,
      rfl⟩
  · exact ⟨.argument name, spaced ++ [0x7d], .argument named spacing, by simp, rfl⟩
  · obtain ⟨after, string, spelled, rfl, rfl⟩ := options kind [] inside given left inner
    rw [property_other] at other
    exact ⟨.choice kind name after, _,
      .choice named spacing kindSpacing spelled (Option.ne_none_iff_isSome.mp other), by simp, rfl⟩

theorem nodesSpelled_succ (nodesBefore : NodesSpelled rounds) (options : OptionsSpelled rounds) :
    NodesSpelled (rounds + 1) := by
  intro nested before text rest nodes left free parsed
  cases rest with
  | nil =>
    rw [parseNodes] at parsed
    cases parsed
    refine ⟨textRun text, [], [], ?_, rfl, by rw [kept_textRun], .inl rfl, ?_⟩
    · rw [List.append_nil]
      exact spells_textRun free
    · cases nested <;> rfl
  | cons unit rest =>
    rw [parseNodes] at parsed
    split at parsed
    next closes =>
      subst closes
      cases parsed
      refine ⟨textRun text, [], 0x7d :: rest, ?_, rfl, by rw [kept_textRun], .inr ⟨rest, rfl⟩,
        rfl⟩
      rw [List.append_nil]
      exact spells_textRun free
    next notClosing =>
      split at parsed
      next opens =>
        subst opens
        rw [bind_eq_ok] at parsed
        obtain ⟨⟨node, behind⟩, isNode, parsed⟩ := parsed
        obtain ⟨placeholder, inner, spelled, rfl, rfl⟩ :=
          parsePlaceholder_spelled options isNode
        obtain ⟨tree, string, ending, others, same, rfl, ends, rfl⟩ :=
          nodesBefore nested _ [] behind nodes left (by simp [BraceFree]) parsed
        rw [List.nil_append] at others
        refine ⟨textRun text ++ placeholder :: tree, 0x7b :: (inner ++ string), ending,
          spells_textRun_node free spelled (placeholder_notText spelled) others, by simp [same],
          ?_, ends, rfl⟩
        rw [kept_append, kept_textRun, List.append_assoc, List.append_assoc]
        rfl
      next notOpening =>
        have longer : BraceFree (text ++ [unit]) := by
          intro other member
          rcases List.mem_append.mp member with inText | isUnit
          · exact free other inText
          · rw [List.mem_singleton.mp isUnit]
            exact ⟨notOpening, notClosing⟩
        obtain ⟨tree, string, ending, spelled, rfl, rfl, ends, rfl⟩ :=
          nodesBefore nested before _ rest nodes left longer parsed
        refine ⟨tree, unit :: string, ending, ?_, rfl, rfl, ends, rfl⟩
        rwa [List.append_assoc, List.singleton_append] at spelled

theorem optionsSpelled_succ (nodes : NodesSpelled rounds) (optionsBefore : OptionsSpelled rounds) :
    OptionsSpelled (rounds + 1) := by
  intro kind before rest options left parsed
  have whole := @List.takeWhile_append_dropWhile _ isSpace rest
  have blank : Blank (rest.takeWhile isSpace) := fun unit => List.mem_takeWhile_imp
  rw [parseOptions] at parsed
  dsimp only at parsed
  split at parsed
  next closes =>
    cases parsed
    refine ⟨before, rest.takeWhile isSpace, .closed blank, ?_, rfl⟩
    obtain ⟨tail, behind⟩ := List.head?_eq_some_iff.mp closes
    rw [behind, List.tail_cons, ← behind]
    exact whole.symm
  next =>
    simp only [bind_eq_ok, raiseIf_eq_ok] at parsed
    obtain ⟨⟨read, behind⟩, isRead, -, unnamed, -, -, ⟨body, others⟩, isBody, parsed⟩ := parsed
    obtain ⟨skipped, -, stop, tail, isStop, rfl⟩ := readUntil_eq_ok.mp isRead
    have named := Bool.eq_true_of_not_eq_false unnamed
    rw [List.mem_singleton] at isStop
    subst isStop
    obtain ⟨tree, string, ending, spelled, isTail, isKept, ends, rfl⟩ :=
      nodes true [] [] tail body others (by simp [BraceFree]) isBody
    rw [List.nil_append] at isKept spelled
    subst isKept
    dsimp only at parsed named
    rw [kept, assign_mapOptions slotOf_injective] at parsed
    obtain ⟨after, more, spelledMore, isRest, rfl⟩ :=
      optionsBefore kind _ _ options left parsed
    -- The body ended with a brace, since something follows it.
    rcases ends with rfl | ⟨rest_, rfl⟩
    · rw [leftOver, if_pos rfl, List.tail_nil] at isRest
      have length := congrArg List.length isRest
      simp at length
    · rw [leftOver, if_pos rfl, List.tail_cons] at isRest
      obtain ⟨front, back, frontBlank, backBlank, isSpaced⟩ := spaced_trim read
      have spacing : Spaced (trim read) (rest.takeWhile isSpace ++ read) := by
        refine ⟨rest.takeWhile isSpace ++ front, back,
          List.forall_mem_append.mpr ⟨blank, frontBlank⟩, backBlank, ?_⟩
        rw [List.append_assoc, List.append_assoc, ← List.append_assoc front, ← isSpaced]
      refine ⟨after, _, .option named spacing spelled spelledMore, ?_, rfl⟩
      have behind : rest.dropWhile isSpace = read ++ 0x7b :: tail := skipped
      rw [behind, isTail, isRest] at whole
      refine whole.symm.trans ?_
      simp

/-- What is parsed is a string of the grammar. -/
theorem parsed_spelled (rounds : Nat) : NodesSpelled rounds ∧ OptionsSpelled rounds := by
  induction rounds with
  | zero =>
    constructor
    · intro nested before text rest nodes left _ parsed
      rw [parseNodes] at parsed
      cases parsed
    · intro kind before rest options left parsed
      rw [parseOptions] at parsed
      cases parsed
  | succ rounds ih =>
    obtain ⟨nodes, options⟩ := ih
    exact ⟨nodesSpelled_succ nodes options, optionsSpelled_succ nodes options⟩

end Soundness

section Failures

/-- A failure with a `MessageSyntaxError`. -/
def IsSyntaxError (failure : Failure) : Prop := ∃ text, failure = .messageSyntaxError text

variable {failure : Failure} {rest : JsString}

theorem readUntil_error {stops : List (Fin 0x10000)}
    (failed : readUntil stops rest = .error failure) : IsSyntaxError failure := by
  rw [readUntil] at failed
  split at failed
  · cases failed
    exact ⟨_, rfl⟩
  · cases failed

theorem kindOf_error {word : JsString} (failed : kindOf word = .error failure) :
    IsSyntaxError failure := by
  rw [kindOf] at failed
  split at failed
  · cases failed
  · split at failed
    · cases failed
    · cases failed
      exact ⟨_, rfl⟩

theorem raiseIf_error {condition : Prop} [Decidable condition]
    (failed : (raiseIf condition (.messageSyntaxError text) : Except Failure PUnit) =
      .error failure) : IsSyntaxError failure :=
  ⟨text, ((raiseIf_eq_error _ _ _).mp failed).2.symm⟩

/-- A placeholder fails with a syntax error, or as its options do, which are shorter. -/
theorem parsePlaceholder_error
    {parser : Kind → JsString → Except Failure (Options Slot × JsString)}
    (failed : parsePlaceholder parser rest = .error failure) :
    IsSyntaxError failure ∨
      ∃ kind inside, inside.length < rest.length ∧ parser kind inside = .error failure := by
  simp only [parsePlaceholder, bind_eq_error] at failed
  rcases failed with unread | ⟨⟨read, behind⟩, isRead, unnamed | ⟨-, -, failed⟩⟩
  · exact .inl (readUntil_error unread)
  · exact .inl (raiseIf_error unnamed)
  · obtain ⟨rfl, -, stop, tail, -, rfl⟩ := readUntil_eq_ok.mp isRead
    split at failed
    · cases failed
    · simp only [bind_eq_error] at failed
      rcases failed with unread | ⟨⟨readKind, behindKind⟩, isKind, unknown | ⟨kind, -, bare |
        ⟨-, -, inner | ⟨_, -, without | ⟨-, -, impossible⟩⟩⟩⟩⟩
      · exact .inl (readUntil_error unread)
      · exact .inl (kindOf_error unknown)
      · exact .inl (raiseIf_error bare)
      · obtain ⟨isTail, -, second, inside, -, rfl⟩ := readUntil_eq_ok.mp isKind
        refine .inr ⟨kind, inside, ?_, inner⟩
        have length := congrArg List.length isTail
        simp only [List.tail_cons, List.length_append, List.length_cons] at length ⊢
        omega
      · exact .inl (raiseIf_error without)
      · cases impossible

/-- With more rounds than code units, nodes and options fail with syntax errors only. -/
def FailsWithSyntax (rounds : Nat) : Prop :=
  (∀ nested before text rest failure, rest.length < rounds →
    parseNodes rounds nested before text rest = .error failure → IsSyntaxError failure) ∧
  ∀ kind before rest failure, rest.length < rounds →
    parseOptions rounds kind (mapOptions slotOf before) rest = .error failure →
      IsSyntaxError failure

theorem failsWithSyntax (rounds : Nat) : FailsWithSyntax rounds := by
  induction rounds with
  | zero => exact ⟨fun _ _ _ _ _ enough => absurd enough (by omega),
      fun _ _ _ _ enough => absurd enough (by omega)⟩
  | succ rounds ih =>
    obtain ⟨nodes, options⟩ := ih
    obtain ⟨nodesSpelled, optionsSpelled⟩ := parsed_spelled rounds
    constructor
    · intro nested before text rest failure enough failed
      cases rest with
      | nil => cases failed
      | cons unit rest =>
        rw [List.length_cons] at enough
        rw [parseNodes] at failed
        split at failed
        · cases failed
        · split at failed
          · rcases (bind_eq_error _ _ _).mp failed with unread | ⟨⟨node, left⟩, isNode, later⟩
            · rcases parsePlaceholder_error unread with direct | ⟨kind, inside, short, inner⟩
              · exact direct
              · exact options kind [] inside failure (by omega) inner
            · obtain ⟨_, inner, -, rfl, -⟩ := parsePlaceholder_spelled optionsSpelled isNode
              rw [List.length_append] at enough
              exact nodes nested _ [] left failure (by omega) later
          · exact nodes nested before _ rest failure (by omega) failed
    · intro kind before rest failure enough failed
      have skips := (List.dropWhile_sublist (l := rest) isSpace).length_le
      rw [parseOptions] at failed
      dsimp only at failed
      split at failed
      · cases failed
      · simp only [bind_eq_error] at failed
        rcases failed with unread | ⟨⟨read, behind⟩, isRead, unnamed | ⟨-, -, bodiless |
          ⟨-, -, inner | ⟨⟨body, left⟩, isBody, failed⟩⟩⟩⟩
        · exact readUntil_error unread
        · exact raiseIf_error unnamed
        · exact raiseIf_error bodiless
        · obtain ⟨skipped, -, stop, tail, -, rfl⟩ := readUntil_eq_ok.mp isRead
          have length := congrArg List.length (show rest.dropWhile isSpace = _ from skipped)
          simp only [List.length_append, List.length_cons] at length
          exact nodes true [] [] _ failure (by simp only [List.tail_cons]; omega) inner
        · obtain ⟨skipped, -, stop, tail, -, rfl⟩ := readUntil_eq_ok.mp isRead
          have length := congrArg List.length (show rest.dropWhile isSpace = _ from skipped)
          simp only [List.length_append, List.length_cons] at length
          obtain ⟨tree, string, ending, -, isTail, isKept, -, rfl⟩ :=
            nodesSpelled true [] [] _ body left (by simp [BraceFree]) isBody
          have behind := congrArg List.length isTail
          simp only [List.tail_cons, List.length_append] at behind
          have shorter : (leftOver true ending).length ≤ ending.length := by
            simp [leftOver]
          rw [isKept, List.nil_append, kept, assign_mapOptions slotOf_injective] at failed
          exact options kind _ _ failure (show (leftOver true ending).length < rounds by omega)
            failed

end Failures

/-- The parser accepts a string if and only if the grammar has it, and gives the tree as it keeps
it. -/
theorem parse_eq_ok_iff {source : JsString} {nodes : List (MessageNode Slot)} :
    parse source = .ok nodes ↔ ∃ tree, Spells (.nodes tree) source ∧ nodes = kept tree := by
  simp only [parse, bind_eq_ok, raiseIf_eq_ok]
  constructor
  · rintro ⟨⟨found, left⟩, isParsed, -, nothing, same⟩
    cases same
    obtain ⟨tree, string, ending, spelled, rfl, rfl, -, isLeft⟩ :=
      (parsed_spelled _).1 false [] [] source found left (by simp [BraceFree]) isParsed
    have isEmpty : ending = [] := by simpa [isLeft, leftOver] using nothing
    rw [isEmpty, List.append_nil]
    exact ⟨tree, spelled, rfl⟩
  · rintro ⟨tree, spelled, rfl⟩
    have parsed := spelled.parsed (source.length + 1) false [] [] [] (.inl rfl) (.inl rfl)
      (by simp)
    rw [List.append_nil] at parsed
    exact ⟨_, parsed, ⟨⟩, by simp [leftOver], by simp [textRun]⟩

/-- The parser ends, with nodes or with a syntax error. -/
theorem parse_ends (source : JsString) :
    (∃ text, parse source = .error (.messageSyntaxError text)) ∨
      ∃ nodes, parse source = .ok nodes := by
  cases isParsed : parse source with
  | ok nodes => exact .inr ⟨nodes, rfl⟩
  | error failure =>
    refine .inl ?_
    have syntaxError : IsSyntaxError failure := by
      simp only [parse, bind_eq_error] at isParsed
      rcases isParsed with failed | ⟨_, -, unbalanced | ⟨-, -, impossible⟩⟩
      · exact (failsWithSyntax _).1 false [] [] source failure (Nat.lt_succ_self _) failed
      · exact raiseIf_error unbalanced
      · cases impossible
    obtain ⟨text, rfl⟩ := syntaxError
    exact ⟨text, rfl⟩

end Nexora.Messages
