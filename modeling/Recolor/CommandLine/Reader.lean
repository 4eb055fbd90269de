import Recolor.CommandLine.Argument
import Recolor.Text.Emphasis
import Recolor.Text.Line

namespace Recolor

inductive Pending where
  | nothing
  | setting (setting : Setting) (value : Option String)
  | input (value : String)
deriving DecidableEq, Repr

structure Reading where
  given : Given
  pending : Pending
  inputSeen : Bool
  wordsOnly : Bool

namespace Reading

def start : Reading := ⟨Given.none, .nothing, false, false⟩

def settle (r : Reading) : Except UsageError Reading :=
  match r.pending with
  | .nothing => .ok r
  | .setting _ none => .error .missingValue
  | .setting s (some value) =>
    (r.given.accept s value).map fun g => { r with given := g, pending := .nothing }
  | .input value =>
    (r.given.acceptInput value).map fun g => { r with given := g, pending := .nothing }

def awaiting? (r : Reading) : Option Setting :=
  match r.pending with
  | .setting s none => some s
  | _ => none

def giveValue (r : Reading) (s : Setting) (value : String) : Except UsageError Reading := do
  let r ← r.settle
  let given ← r.given.accept s value
  return { r with given := given }

def awaitValue (r : Reading) (s : Setting) : Except UsageError Reading := do
  let r ← r.settle
  return { r with pending := .setting s none }

def turnOn (r : Reading) (s : Switch) : Except UsageError Reading := do
  let r ← r.settle
  let given ← r.given.turnOn s
  return { r with given := given }

def endWith (r : Reading) (e : UsageError) : Except UsageError Reading := do
  let _ ← r.settle
  .error e

def readLong (scope : Scope) (r : Reading) (body : List Char) : Except UsageError Reading :=
  let (name, value) :=
    match body.span (· != '=') with
    | (name, _ :: value) => (String.ofList name, some (String.ofList value))
    | (name, []) => (String.ofList name, none)
  match scope.long? name, value with
  | none, _ => .error .unknownArgument
  | some (.setting s), some value => r.giveValue s value
  | some (.setting s), none => r.awaitValue s
  | some _, some _ => .error .unneededValue
  | some (.switch s), none => r.turnOn s
  | some .help, none => r.endWith .help
  | some .version, none => r.endWith .version

def readShorts (scope : Scope) (r : Reading) : List Char → Except UsageError Reading
  | [] => .ok r
  | c :: cs =>
    match scope.short? c with
    | none => .error .unknownArgument
    | some (.switch s) => do
      let r ← r.turnOn s
      r.readShorts scope cs
    | some .help => r.endWith .help
    | some .version => r.endWith .version
    | some (.setting s) =>
      match cs with
      | [] => r.awaitValue s
      | '=' :: cs => r.giveValue s (String.ofList cs)
      | cs => r.giveValue s (String.ofList cs)

def looksNumeric (pointSeen exponentSeen first : Bool) : List Char → Bool
  | [] => true
  | c :: cs =>
    if Text.isDigit c then looksNumeric pointSeen exponentSeen false cs
    else if c = '.' ∧ !pointSeen ∧ !exponentSeen ∧ !first then
      looksNumeric true exponentSeen false cs
    else if c = 'e' ∧ !exponentSeen ∧ !first ∧ !cs.isEmpty then
      looksNumeric pointSeen true false cs
    else false

def awaitsNegative (r : Reading) (cs : List Char) : Bool :=
  match r.awaiting? with
  | some s => s.takesNegative && looksNumeric false false true cs
  | none => false

inductive Word where
  | escape
  | long (body : List Char)
  | short (letters : List Char)
  | plain
deriving DecidableEq, Repr

def Word.ofText (s : String) : Word :=
  match s.toList with
  | ['-', '-'] => .escape
  | '-' :: '-' :: cs => .long cs
  | ['-'] => .plain
  | '-' :: cs => .short cs
  | _ => .plain

def fill (r : Reading) (s : Setting) (value : String) : Reading :=
  { r with pending := .setting s (some value) }

def placeWord (r : Reading) (word : String) : Except UsageError Reading :=
  if r.inputSeen then .error .unknownArgument
  else do
    let r ← r.settle
    return { r with pending := .input word, inputSeen := true }

def readWord (r : Reading) (word : String) : Except UsageError Reading :=
  match r.awaiting? with
  | some s => .ok (r.fill s word)
  | none => r.placeWord word

def readArgument (verb : Verb) (r : Reading) (word : String) : Except UsageError Reading :=
  if r.wordsOnly then r.placeWord word
  else
    match Word.ofText word with
    | .escape => .ok { r with wordsOnly := true }
    | .long body => r.readLong (.within verb) body
    | .short letters =>
      if r.awaitsNegative letters then r.readWord word
      else r.readShorts (.within verb) letters
    | .plain => r.readWord word

def settledAll (verb : Verb) (words : List String) : Except UsageError Given := do
  let r ← words.foldlM (readArgument verb) start
  let r ← r.settle
  return r.given

end Reading

namespace Given

def itemArguments (g : Given) : ItemArguments :=
  ⟨g.preset, g.template, g.group, g.isOn .noGroup, g.isOn .inventoryIcon⟩

def task (g : Given) : Verb → Task
  | .descriptor => .descriptor g.itemArguments (g.isOn .compact)
  | .command => .command g.itemArguments
  | .single => .single g.baseScale (g.isOn .fade) (g.isOn .keepBackground)
  | .icon => .icon (g.isOn .compact)
  | .preview => .preview (g.scale.getD 1)

def source (g : Given) : Except UsageError SourceArguments :=
  if g.group.isSome && g.isOn .noGroup then .error .conflict
  else
    match g.input with
    | .none => .error .missingInput
    | some input =>
      .ok ⟨input, g.output, g.handX, g.handY, g.ignoreColor, g.isOn .replaceBlank,
        g.isOn .replaceWhite, g.texture⟩

end Given

namespace CommandLine

def verb? (word : String) : Option Verb := Verb.all.find? fun v => v.name == word

def readHelp : List String → UsageError
  | [] => .help
  | [word] => if (verb? word).isSome || word == "help" then .help else .unknownCommand
  | _ => .unknownCommand

def readNothing (r : Reading) : Except UsageError Invocation := do
  let r ← r.settle
  if r.given.switches.isEmpty && r.given.config.isNone then .error .nothingGiven
  else .error .missingCommand

def readCommand (r : Reading) (verb : Verb) (words : List String) :
    Except UsageError Invocation := do
  let given ← Reading.settledAll verb words
  let source ← given.source
  let r ← r.settle
  return ⟨given.task verb, source, given.isOn .verbose || r.given.isOn .verbose,
    given.config.orElse fun _ => r.given.config⟩

def strayWord (word : String) : UsageError :=
  if (verb? word).isSome || word == "help" then .unknownArgument else .unknownCommand

def readTop (r : Reading) : List String → Except UsageError Invocation
  | [] => readNothing r
  | word :: words =>
    if r.wordsOnly then .error (strayWord word)
    else
      match Reading.Word.ofText word with
      | .escape => readTop { r with wordsOnly := true } words
      | .long body => do
        let r ← r.readLong .top body
        readTop r words
      | .short letters => do
        let r ← r.readShorts .top letters
        readTop r words
      | .plain =>
        match r.awaiting? with
        | some s => readTop (r.fill s word) words
        | none =>
          match verb? word with
          | some verb => readCommand r verb words
          | none => .error (if word = "help" then readHelp words else .unknownCommand)

def read (words : List String) : Except UsageError Invocation := readTop Reading.start words

end CommandLine

namespace UsageError

def valueText (s : Setting) (value reason : String) : String :=
  Text.alarm "error:" ++ " invalid value '" ++ Text.warning value ++ "' for '" ++
    Text.strong ("--" ++ s.name ++ " <" ++ s.placeholder ++ ">") ++ "': " ++ reason ++
    "\n\nFor more information, try '" ++ Text.strong "--help" ++ "'.\n"

def line : UsageError → String
  | .help => "help requested"
  | .version => "version requested"
  | .nothingGiven => "error: no command given"
  | .missingCommand => "error: no command given"
  | .unknownCommand => "error: unrecognized command"
  | .unknownArgument => "error: unexpected argument found"
  | .missingInput => "error: the input image was not provided"
  | .missingValue => "error: a value is required but none was supplied"
  | .unneededValue => "error: unexpected value for an option that takes none"
  | .conflict => "error: an argument cannot be used together with another"
  | .badValue s value reason => Text.firstLine (Text.plain (valueText s value reason))

end UsageError

end Recolor
