import Nexora.Std.Fallible
import Nexora.Data.JsText

/-!
# Messages

The parser of the interface's messages: text, arguments, and the `plural` and `select`
placeholders with their options. A string is read from the rest that is still ahead, and the
options of a placeholder are a JavaScript object, in which `__proto__` is no name like the others.
-/

namespace Nexora.Messages

open Nexora.Std JsText

def isNameStart (unit : Fin 0x10000) : Bool :=
  (0x41 ≤ unit && unit ≤ 0x5a) || (0x61 ≤ unit && unit ≤ 0x7a) || unit = 0x5f

/-- `NAME`: a letter or an underscore, then letters, digits and underscores. -/
def isName : JsString → Bool
  | [] => false
  | first :: rest => isNameStart first && rest.all fun unit => isNameStart unit || isDigit unit

/-- `OPTION`: an equals sign and digits, or a name. -/
def isOption (text : JsString) : Bool :=
  isName text ||
    (text.head? = some 0x3d && !text.tail.isEmpty && text.tail.all isDigit)

/-- The two types of placeholder that have options. -/
inductive Kind where
  | plural
  | select
  deriving DecidableEq

def Kind.word : Kind → JsString
  | .plural => js "plural"
  | .select => js "select"

/-- A node of a message whose options are kept under keys of a type. -/
inductive MessageNode (Key : Type) where
  | text (value : JsString)
  | argument (name : JsString)
  | choice (kind : Kind) (name : JsString) (options : List (Key × List (MessageNode Key)))

/-- Options in the order in which their keys were first set. -/
abbrev Options (Key : Type) := List (Key × List (MessageNode Key))

section Options

variable {Key : Type} [DecidableEq Key]

/-- The body kept under a key. -/
def lookUp (key : Key) : Options Key → Option (List (MessageNode Key))
  | [] => none
  | (held, body) :: rest => if held = key then some body else lookUp key rest

/-- The options once a body is set under a key: a key that is there stays where it is. -/
def assign (key : Key) (body : List (MessageNode Key)) : Options Key → Options Key
  | [] => [(key, body)]
  | (held, given) :: rest =>
    if held = key then (held, body) :: rest else (held, given) :: assign key body rest

end Options

/-- What an object that began as `{}` holds: its own properties, and the prototype where one
was set. -/
inductive Slot where
  | own (name : JsString)
  | proto
  deriving DecidableEq

/-- What `options[name] = body` sets: under the name `__proto__` stands an accessor of
`Object.prototype`, which sets the object's prototype and makes no property. -/
def slotOf (name : JsString) : Slot := if name = js "__proto__" then .proto else .own name

/-- The names of the properties of `Object.prototype`. -/
def objectPrototype : List JsString :=
  [js "constructor", js "hasOwnProperty", js "isPrototypeOf", js "propertyIsEnumerable",
    js "toLocaleString", js "toString", js "valueOf", js "__proto__", js "__defineGetter__",
    js "__defineSetter__", js "__lookupGetter__", js "__lookupSetter__"]

/-- The names of the properties an array has besides its items. -/
def arrayPrototype : List JsString :=
  [js "length", js "at", js "concat", js "copyWithin", js "entries", js "every", js "fill",
    js "filter", js "find", js "findIndex", js "findLast", js "findLastIndex", js "flat",
    js "flatMap", js "forEach", js "includes", js "indexOf", js "join", js "keys",
    js "lastIndexOf", js "map", js "pop", js "push", js "reduce", js "reduceRight", js "reverse",
    js "shift", js "slice", js "some", js "sort", js "splice", js "toReversed", js "toSorted",
    js "toSpliced", js "unshift", js "values", js "with"]

/-- The name is that of a property an array of some length has. -/
def ofArray (name : JsString) (length : Nat) : Bool :=
  arrayPrototype.contains name || (List.range length).any fun index => name = decimal index

/-- The name is that of an inherited property, where the prototype is `Object.prototype` or a body
of some length. None of these properties can be iterated as a body is. -/
def inherits (body : Option Nat) (name : JsString) : Bool :=
  objectPrototype.contains name || body.any (ofArray name)

/-- What reading a property of an options object gives. -/
inductive Property where
  | body (nodes : List (MessageNode Slot))
  | inherited
  | undefined

def Property.isUndefined : Property → Bool
  | .undefined => true
  | _ => false

/-- `options[name]`. Under `__proto__` the accessor gives the prototype. -/
def property (options : Options Slot) (name : JsString) : Property :=
  match lookUp (slotOf name) options with
  | some nodes => .body nodes
  | none =>
    if inherits ((lookUp .proto options).map List.length) name then .inherited else .undefined

/-- How parsing or rendering fails: with a `MessageSyntaxError` and its text or with a
`TypeError`. The model's own failure is to run out of rounds. -/
inductive Failure where
  | messageSyntaxError (text : JsString)
  | typeError
  | outOfRounds
  deriving DecidableEq

/-- `Parser.readUntil`: what was read, and the rest from a stop on. -/
def readUntil (stops : List (Fin 0x10000)) (rest : JsString) :
    Except Failure (JsString × JsString) :=
  let left := rest.dropWhile fun unit => !stops.contains unit
  if left = [] then .error (.messageSyntaxError (js "Unterminated placeholder"))
  else .ok (rest.takeWhile fun unit => !stops.contains unit, left)

/-- `Parser.skipWhitespace`. -/
def skipWhitespace (rest : JsString) : JsString := rest.dropWhile isSpace

/-- The type of a placeholder by its word. -/
def kindOf (word : JsString) : Except Failure Kind :=
  if word = Kind.plural.word then .ok .plural
  else if word = Kind.select.word then .ok .select
  else .error (.messageSyntaxError (js "Unsupported placeholder type: " ++ word))

/-- `Parser.parsePlaceholder`, from what follows the brace, where a function reads the options up
to the closing brace. -/
def parsePlaceholder (parseOptions : Kind → JsString → Except Failure (Options Slot × JsString))
    (rest : JsString) : Except Failure (MessageNode Slot × JsString) := do
  let (read, rest) ← readUntil [0x2c, 0x7d] rest
  let name := trim read
  raiseIf (isName name = false)
    (.messageSyntaxError (js "Invalid placeholder name: " ++ name))
  if rest.head? = some 0x7d then .ok (.argument name, rest.tail)
  else do
    let (read, rest) ← readUntil [0x2c, 0x7d] rest.tail
    let kind ← kindOf (trim read)
    raiseIf (rest.head? ≠ some 0x2c)
      (.messageSyntaxError (kind.word ++ js " needs options"))
    let (options, rest) ← parseOptions kind rest.tail
    raiseIf ((property options (js "other")).isUndefined = true)
      (.messageSyntaxError (kind.word ++ js " is missing an 'other' option"))
    .ok (.choice kind name options, rest)

/-- The node of a text run, where there is one. -/
def textRun {Key : Type} (text : JsString) : List (MessageNode Key) :=
  if text = [] then [] else [.text text]

mutual

/-- `Parser.parseNodes`, from the nodes and the text read so far. -/
def parseNodes : Nat → Bool → List (MessageNode Slot) → JsString → JsString →
    Except Failure (List (MessageNode Slot) × JsString)
  | 0, _, _, _, _ => .error .outOfRounds
  | _ + 1, _, nodes, text, [] => .ok (nodes ++ textRun text, [])
  | rounds + 1, nested, nodes, text, unit :: rest =>
    if unit = 0x7d then
      .ok (nodes ++ textRun text, if nested then rest else unit :: rest)
    else if unit = 0x7b then do
      let (node, rest) ← parsePlaceholder (fun kind rest => parseOptions rounds kind [] rest) rest
      parseNodes rounds nested (nodes ++ textRun text ++ [node]) [] rest
    else parseNodes rounds nested nodes (text ++ [unit]) rest

/-- The loop of `Parser.parsePlaceholder` over the options, from those read so far. The test for a
missing body cannot fail, since a name is read up to a brace. -/
def parseOptions : Nat → Kind → Options Slot → JsString →
    Except Failure (Options Slot × JsString)
  | 0, _, _, _ => .error .outOfRounds
  | rounds + 1, kind, options, rest =>
    let rest := skipWhitespace rest
    if rest.head? = some 0x7d then .ok (options, rest.tail)
    else do
      let (read, rest) ← readUntil [0x7b] rest
      let option := trim read
      raiseIf (isOption option = false)
        (.messageSyntaxError (js "Invalid " ++ kind.word ++ js " option: " ++ option))
      raiseIf (rest.head? ≠ some 0x7b)
        (.messageSyntaxError (js "Missing body for " ++ option))
      let (body, rest) ← parseNodes rounds true [] [] rest.tail
      parseOptions rounds kind (assign (slotOf option) body options) rest

end

/-- `new Parser(source).parse()`. Each round reads a code unit at least. -/
def parse (source : JsString) : Except Failure (List (MessageNode Slot)) := do
  let (nodes, rest) ← parseNodes (source.length + 1) false [] [] source
  raiseIf (rest ≠ []) (.messageSyntaxError (js "Unbalanced '\x7d'"))
  .ok nodes

/-- The messages parsed so far. -/
abbrev Cache := List (JsString × List (MessageNode Slot))

/-- `parseMessage`, which leaves the message it parsed in the cache. -/
def parseMessage (cache : Cache) (message : JsString) :
    Except Failure (List (MessageNode Slot)) × Cache :=
  match cache.lookup message with
  | some cached => (.ok cached, cache)
  | none =>
    match parse message with
    | .ok parsed => (.ok parsed, (message, parsed) :: cache)
    | .error failure => (.error failure, cache)

/-- The cache after some messages. -/
def cacheAfter (messages : List JsString) : Cache :=
  messages.foldl (fun cache message => (parseMessage cache message).2) []

theorem lookup_cacheAfter (earlier : List JsString) (message : JsString)
    (nodes : List (MessageNode Slot))
    (found : (cacheAfter earlier).lookup message = some nodes) : parse message = .ok nodes := by
  induction earlier using List.reverseRecOn with
  | nil => cases found
  | append_singleton earlier last ih =>
    rw [cacheAfter, List.foldl_append, List.foldl_cons, List.foldl_nil] at found
    change (parseMessage (cacheAfter earlier) last).2.lookup message = some nodes at found
    rw [parseMessage] at found
    split at found
    · exact ih found
    · split at found
      next parsed isParsed =>
        rw [List.lookup_cons] at found
        split at found
        next same =>
          rw [beq_iff_eq.mp same, isParsed, Option.some.inj found]
        next => exact ih found
      next => exact ih found

/-- What was parsed before does not show. -/
theorem parseMessage_eq (earlier : List JsString) (message : JsString) :
    (parseMessage (cacheAfter earlier) message).1 = parse message := by
  rw [parseMessage]
  cases found : (cacheAfter earlier).lookup message with
  | some cached => exact (lookup_cacheAfter earlier message cached found).symm
  | none =>
    dsimp only
    split <;> simp_all

end Nexora.Messages
