import Nexora.Messages.Parsing

/-!
# Printing messages

Well-formed trees are printed and read back. The parser keeps to its grammar exactly where no
option is named `__proto__`.
-/

namespace Nexora.Messages

open JsText

mutual

/-- A node as it is written. -/
def printNode : MessageNode JsString → JsString
  | .text value => value
  | .argument name => 0x7b :: (name ++ [0x7d])
  | .choice kind name options =>
    0x7b :: (name ++ 0x2c :: (0x20 :: kind.word ++ 0x2c :: (printOptions options ++ [0x7d])))

def print : Tree → JsString
  | [] => []
  | node :: nodes => printNode node ++ print nodes

def printOptions : Options JsString → JsString
  | [] => []
  | (name, body) :: rest =>
    0x20 :: name ++ [0x20] ++ 0x7b :: (print body ++ 0x7d :: printOptions rest)

end

mutual

/-- Names are names, text runs are not empty and hold no brace, and the options, `other` among
them, have distinct names. -/
def WellFormedNode : MessageNode JsString → Prop
  | .text value => value ≠ [] ∧ BraceFree value
  | .argument name => isName name = true
  | .choice _ name options =>
    isName name = true ∧ (options.map Prod.fst).Nodup ∧ js "other" ∈ options.map Prod.fst ∧
      WellFormedOptions options

/-- No text run follows another. -/
def WellFormed : Tree → Prop
  | [] => True
  | node :: nodes =>
    WellFormedNode node ∧ (StartsWithText [node] → ¬ StartsWithText nodes) ∧ WellFormed nodes

def WellFormedOptions : Options JsString → Prop
  | [] => True
  | (name, body) :: rest => isOption name = true ∧ WellFormed body ∧ WellFormedOptions rest

end

section Options

variable {name : JsString} {body : Tree} {options : Options JsString}

theorem assign_fresh (fresh : name ∉ options.map Prod.fst) :
    assign name body options = options ++ [(name, body)] := by
  induction options with
  | nil => rfl
  | cons entry rest ih =>
    obtain ⟨held, given⟩ := entry
    rw [List.map_cons, List.mem_cons, not_or] at fresh
    rw [assign, if_neg (Ne.symm fresh.1), ih fresh.2, List.cons_append]

theorem lookUp_isSome_iff : (lookUp name options).isSome ↔ name ∈ options.map Prod.fst := by
  induction options with
  | nil => simp [lookUp]
  | cons entry rest ih =>
    obtain ⟨held, given⟩ := entry
    rw [lookUp, List.map_cons, List.mem_cons]
    by_cases same : held = name
    · simp [same]
    · simp [same, Ne.symm same, ih]

end Options

theorem spaced_self (word : JsString) : Spaced word word :=
  ⟨[], [], by simp [Blank], by simp [Blank], by simp⟩

mutual

/-- A well-formed placeholder is spelled as it is printed. -/
theorem spells_printNode : ∀ {node : MessageNode JsString}, WellFormedNode node →
    ¬ StartsWithText [node] →
      ∃ inner, printNode node = 0x7b :: inner ∧ Spells (.placeholder node) inner
  | .text value, _, notText => absurd trivial notText
  | .argument name, named, _ => ⟨_, rfl, .argument named (spaced_self name)⟩
  | .choice kind name options, formed, _ => by
      rw [WellFormedNode] at formed
      obtain ⟨named, distinct, other, inside⟩ := formed
      have spelled := spells_printOptions inside [] distinct
      rw [List.nil_append] at spelled
      have kindSpacing : Spaced kind.word (0x20 :: kind.word) :=
        ⟨[0x20], [], by simp [Blank, isSpace], by simp [Blank], by simp⟩
      exact ⟨_, rfl, .choice named (spaced_self name) kindSpacing spelled
        (lookUp_isSome_iff.mpr other)⟩

/-- Printing a well-formed tree spells it. -/
theorem spells_print : ∀ {tree : Tree}, WellFormed tree → Spells (.nodes tree) (print tree)
  | [], _ => .nil
  | node :: nodes, formed => by
      rw [WellFormed] at formed
      obtain ⟨ofNode, maximal, ofNodes⟩ := formed
      have rest := spells_print ofNodes
      by_cases isText : StartsWithText [node]
      · cases node with
        | text value =>
          rw [WellFormedNode] at ofNode
          rw [print, printNode]
          exact .text ofNode.1 ofNode.2 (maximal isText) rest
        | argument name => exact absurd isText id
        | choice kind name options => exact absurd isText id
      · obtain ⟨inner, printed, spelled⟩ := spells_printNode ofNode isText
        rw [print, printed, List.cons_append]
        exact .node spelled rest

theorem spells_printOptions : ∀ {options : Options JsString}, WellFormedOptions options →
    ∀ before : Options JsString, ((before ++ options).map Prod.fst).Nodup →
      Spells (.options before (before ++ options)) (printOptions options)
  | [], _, before, _ => by
      rw [List.append_nil, printOptions]
      exact .closed (by simp [Blank])
  | (name, body) :: rest, formed, before, distinct => by
      rw [WellFormedOptions] at formed
      obtain ⟨named, ofBody, ofRest⟩ := formed
      have fresh : name ∉ before.map Prod.fst := by
        rw [List.map_append, List.map_cons] at distinct
        intro member
        exact (List.nodup_append.mp distinct).2.2 name member name (by simp) rfl
      have others := spells_printOptions ofRest (before ++ [(name, body)])
        (by rwa [List.append_assoc, List.singleton_append])
      rw [List.append_assoc, List.singleton_append] at others
      rw [← assign_fresh fresh] at others
      have spacing : Spaced name (0x20 :: name ++ [0x20]) :=
        ⟨[0x20], [0x20], by simp [Blank, isSpace], by simp [Blank, isSpace], by simp⟩
      rw [printOptions]
      exact .option named spacing (spells_print ofBody) others

end

theorem wellFormedOptions_append {first second : Options JsString} :
    WellFormedOptions (first ++ second) ↔ WellFormedOptions first ∧ WellFormedOptions second := by
  induction first with
  | nil => simp [WellFormedOptions]
  | cons entry rest ih =>
    obtain ⟨name, body⟩ := entry
    rw [List.cons_append, WellFormedOptions, WellFormedOptions, ih, and_assoc,
      and_assoc]

theorem wellFormedOptions_assign {name : JsString} {body : Tree} {options : Options JsString}
    (named : isOption name = true) (ofBody : WellFormed body)
    (distinct : (options.map Prod.fst).Nodup) (formed : WellFormedOptions options) :
    ((assign name body options).map Prod.fst).Nodup ∧
      WellFormedOptions (assign name body options) := by
  by_cases fresh : name ∉ options.map Prod.fst
  · rw [assign_fresh fresh, List.map_append, wellFormedOptions_append]
    refine ⟨?_, formed, named, ofBody, trivial⟩
    refine List.nodup_append.mpr ⟨distinct, List.nodup_singleton name, ?_⟩
    rintro other member again isAgain rfl
    rw [List.map_singleton, List.mem_singleton] at isAgain
    rw [isAgain] at member
    exact fresh member
  · rw [not_not] at fresh
    -- A name that is there stays where it is.
    have same : ∀ options : Options JsString, name ∈ options.map Prod.fst →
        WellFormedOptions options → (assign name body options).map Prod.fst =
          options.map Prod.fst ∧ WellFormedOptions (assign name body options) := by
      intro options
      induction options with
      | nil => simp
      | cons entry rest ih =>
        obtain ⟨held, given⟩ := entry
        intro member formed
        rw [WellFormedOptions] at formed
        obtain ⟨heldNamed, ofGiven, ofRest⟩ := formed
        rw [assign]
        split
        · exact ⟨rfl, heldNamed, ofBody, ofRest⟩
        next other =>
          rw [List.map_cons, List.mem_cons] at member
          have inRest := member.resolve_left (Ne.symm other)
          obtain ⟨names, ofAssigned⟩ := ih inRest ofRest
          exact ⟨by rw [List.map_cons, List.map_cons, names], heldNamed, ofGiven, ofAssigned⟩
    obtain ⟨names, ofAssigned⟩ := same options fresh formed
    rw [names]
    exact ⟨distinct, ofAssigned⟩

/-- What is spelled is well formed. -/
def Formed : Part → Prop
  | .nodes tree => WellFormed tree
  | .placeholder node => WellFormedNode node ∧ ¬ StartsWithText [node]
  | .options before after =>
    (before.map Prod.fst).Nodup → WellFormedOptions before →
      (after.map Prod.fst).Nodup ∧ WellFormedOptions after

/-- Every tree of the grammar is well formed. -/
theorem Spells.formed {part : Part} {string : JsString} (spelled : Spells part string) :
    Formed part := by
  induction spelled with
  | nil => exact trivial
  | text some_ free maximal _ ofRest => exact ⟨⟨some_, free⟩, fun _ => maximal, ofRest⟩
  | node _ _ ofPlaceholder ofRest =>
    exact ⟨ofPlaceholder.1, fun isText => absurd isText ofPlaceholder.2, ofRest⟩
  | argument named _ => exact ⟨named, id⟩
  | choice named _ _ _ other ofOptions =>
    obtain ⟨distinct, formed⟩ := ofOptions List.nodup_nil trivial
    exact ⟨⟨named, distinct, lookUp_isSome_iff.mp other, formed⟩, id⟩
  | closed _ => exact fun distinct formed => ⟨distinct, formed⟩
  | option named _ _ _ ofBody ofOthers =>
    intro distinct formed
    obtain ⟨stillDistinct, stillFormed⟩ :=
      wellFormedOptions_assign named ofBody distinct formed
    exact ofOthers stillDistinct stillFormed

/-- A message is parsed exactly: parsing ends with a syntax error or with nodes, and the nodes are
those of the trees that the string spells. -/
def Exact (earlier : List JsString) (source : JsString) : Prop :=
  ((∃ text, (parseMessage (cacheAfter earlier) source).1 = .error (.messageSyntaxError text)) ∨
    ∃ nodes, (parseMessage (cacheAfter earlier) source).1 = .ok nodes) ∧
  ∀ nodes, (parseMessage (cacheAfter earlier) source).1 = .ok nodes ↔
    ∃ tree, Spells (.nodes tree) source ∧ nodes = plain tree

/-- A string is parsed exactly if and only if no option of its tree is named `__proto__`, whatever
was parsed before, and so is a well-formed tree that is printed. -/
theorem parseMessage_exact_iff (earlier : List JsString) :
    (∀ source, Exact earlier source ↔
      ∀ tree, Spells (.nodes tree) source → js "__proto__" ∉ keys tree) ∧
    ∀ tree, WellFormed tree →
      ((parseMessage (cacheAfter earlier) (print tree)).1 = .ok (plain tree) ↔
        js "__proto__" ∉ keys tree) := by
  constructor
  · intro source
    rw [Exact, parseMessage_eq]
    constructor
    · rintro ⟨-, exact_⟩ tree spelled
      have isKept := parse_eq_ok_iff.mpr ⟨tree, spelled, rfl⟩
      have isPlain := (exact_ (plain tree)).mpr ⟨tree, spelled, rfl⟩
      rw [isKept, Except.ok.injEq] at isPlain
      exact (kept_eq_plain_iff tree).mp isPlain
    · intro absent
      refine ⟨parse_ends source, fun nodes => ?_⟩
      rw [parse_eq_ok_iff]
      refine exists_congr fun tree => and_congr_right fun spelled => ?_
      rw [(kept_eq_plain_iff tree).mpr (absent tree spelled)]
  · intro tree formed
    have isKept := parse_eq_ok_iff.mpr ⟨tree, spells_print formed, rfl⟩
    rw [parseMessage_eq, isKept, Except.ok.injEq]
    exact kept_eq_plain_iff tree

/-- A `select` with an option named `__proto__`. -/
def protoTree : Tree :=
  [.choice .select (js "n")
    [(js "__proto__", [.text (js "x")]), (js "other", [.text (js "y")])]]

theorem protoTree_wellFormed : WellFormed protoTree := by
  have letters : ∀ text, (text = js "x" ∨ text = js "y") → text ≠ [] ∧ BraceFree text := by
    rintro text (rfl | rfl) <;> simp [js, BraceFree]
  have one := letters _ (.inl rfl)
  have two := letters _ (.inr rfl)
  have distinct : js "__proto__" ≠ js "other" := by decide +kernel
  refine ⟨⟨rfl, ?_, ?_, rfl, ?_, rfl, ?_, trivial⟩, fun isText => absurd isText id, trivial⟩
  · simp [distinct]
  · simp
  · exact ⟨one, fun _ => id, trivial⟩
  · exact ⟨two, fun _ => id, trivial⟩

/-- The option is lost. -/
theorem protoOption_lost :
    ¬ Exact [] (js "\x7bn, select, __proto__ \x7bx\x7d other \x7by\x7d\x7d") := by
  have printed : js "\x7bn, select, __proto__ \x7bx\x7d other \x7by\x7d\x7d" = print protoTree := by
    decide +kernel
  have spelled := spells_print protoTree_wellFormed
  rw [printed]
  rintro ⟨-, exact_⟩
  have isPlain := (exact_ (plain protoTree)).mpr ⟨protoTree, spelled, rfl⟩
  rw [parseMessage_eq, parse_eq_ok_iff.mpr ⟨protoTree, spelled, rfl⟩, Except.ok.injEq,
    kept_eq_plain_iff] at isPlain
  exact isPlain (by simp [protoTree, keys, keysNode, keysOptions])

end Nexora.Messages
