import ClusterObjects.Command.ListFlags

/-! # Arguments

How the arguments of the program are read. Options that concern every command
may stand before the command or after it, and what stands after it counts. A
long option takes its value from behind an equals sign or from the next
argument, a short one also from the characters behind it; an option is given
once at most on each side of the command, filters apart. After two dashes alone
every argument is a word.
-/

namespace ClusterObjects

/-- How results are shown. -/
inductive OutputFormat where
  | human
  | json
deriving DecidableEq

/-- The options of every command. -/
structure CommonOptions where
  output : OutputFormat
  namespaceName : String
  inMemory : Bool
  seed : Option String

/-- A command. -/
inductive Command where
  | resources
  | list (target : String) (flags : ListFlags)
  | get (target name : String)
  | delete (target name : String)
  | watch (target : String) (selector : Option String)

/-- What the program is asked for. -/
structure Invocation where
  options : CommonOptions
  command : Command

/-- Why arguments ask for no command. -/
inductive UsageStop where
  | wrong
  | help
  | version
deriving DecidableEq

namespace Arguments

/-- The options of the program. -/
inductive OptionName where
  | output
  | namespaceName
  | memory
  | seed
  | cluster
  | filter
  | selector
  | page
  | limit
  | ascending
  | orderBy
  | query
deriving DecidableEq

namespace OptionName

def long : OptionName → String
  | .output => "output"
  | .namespaceName => "ns"
  | .memory => "memory"
  | .seed => "seed"
  | .cluster => "cluster"
  | .filter => "filter"
  | .selector => "selector"
  | .page => "page"
  | .limit => "limit"
  | .ascending => "asc"
  | .orderBy => "order-by"
  | .query => "query"

def short? : OptionName → Option Char
  | .output => some 'o'
  | .filter => some 'f'
  | .selector => some 'l'
  | _ => none

def takesValue : OptionName → Bool
  | .memory | .ascending => false
  | _ => true

/-- Whether an option may be given again. -/
def isRepeatable : OptionName → Bool
  | .filter => true
  | _ => false

def common : List OptionName := [.output, .namespaceName, .memory, .seed, .cluster]

def accepts (name : OptionName) (value : String) : Bool :=
  match name with
  | .output => value == "human" || value == "json"
  | .seed => !value.isEmpty
  | .page | .limit => (Text.word? value.toList).isSome
  | _ => true

end OptionName

/-- Options with their values, the first given first. -/
abbrev Given := List (OptionName × String)

/-- The options and words of one side of the command, and the arguments that are
left over. -/
structure Side where
  given : Given
  words : List String
  rest : List String

def looksLikeOption (argument : String) : Bool :=
  match argument.toList with
  | '-' :: _ :: _ => true
  | _ => false

/-- One more option, if it may be given and can have the value. -/
def Side.give (side : Side) (name : OptionName) (value : String) : Except UsageStop Side :=
  if !name.accepts value then .error .wrong
  else if !name.isRepeatable && (side.given.lookup name).isSome then .error .wrong
  else .ok { side with given := side.given ++ [(name, value)] }

/-- What an argument writes. -/
inductive Token where
  | endOfOptions
  | option (name : OptionName) (value : Option String)
  | word (text : String)
  | stop (reason : UsageStop)

def longToken (known : List OptionName) (atTop : Bool) (text : List Char) : Token :=
  let (name, value) := match Text.cut ['='] text with
    | some (name, value) => (String.ofList name, some (String.ofList value))
    | none => (String.ofList text, none)
  match known.find? fun option => option.long == name with
  | some option =>
    if !option.takesValue && value.isSome then .stop .wrong else .option option value
  | none =>
    if name == "help" && value.isNone then .stop .help
    else if name == "version" && value.isNone && atTop then .stop .version
    else .stop .wrong

def shortToken (known : List OptionName) (atTop : Bool) (name : Char) (rest : List Char) :
    Token :=
  match known.find? fun option => option.short? == some name with
  | some option =>
    match rest with
    | [] => .option option none
    | '=' :: value => .option option (some (String.ofList value))
    | value => .option option (some (String.ofList value))
  | none =>
    if name == 'h' then .stop .help
    else if name == 'V' && atTop then .stop .version
    else .stop .wrong

/-- What an argument writes, given the options that are known. -/
def token (known : List OptionName) (atTop : Bool) (argument : String) : Token :=
  match argument.toList with
  | ['-', '-'] => .endOfOptions
  | '-' :: '-' :: text => longToken known atTop text
  | '-' :: name :: rest => shortToken known atTop name rest
  | _ => .word argument

/-- Read the arguments on one side of the command. Before the command, the first
word ends the side. -/
def readSide (known : List OptionName) (atTop : Bool) :
    List String → Side → Except UsageStop Side
  | [], side => .ok side
  | argument :: rest, side =>
    match token known atTop argument with
    | .endOfOptions =>
      if atTop then .error .wrong else .ok { side with words := side.words ++ rest }
    | .stop reason => .error reason
    | .word text =>
      if atTop then .ok { side with words := [text], rest }
      else readSide known atTop rest { side with words := side.words ++ [text] }
    | .option name value =>
      if !name.takesValue then
        match side.give name "" with
        | .error e => .error e
        | .ok side => readSide known atTop rest side
      else
        match value, rest with
        | some value, rest =>
          match side.give name value with
          | .error e => .error e
          | .ok side => readSide known atTop rest side
        | none, [] => .error .wrong
        | none, next :: rest =>
          if looksLikeOption next then .error .wrong
          else
            match side.give name next with
            | .error e => .error e
            | .ok side => readSide known atTop rest side

/-- The value of an option; of several the first. -/
def valueOf (given : Given) (name : OptionName) : Option String := given.lookup name

def numberOf (given : Given) (name : OptionName) : Option Nat :=
  (valueOf given name).bind fun text => Text.word? text.toList

/-- The options of every command, those after the command first. -/
def commonOptions (given : Given) : CommonOptions :=
  { output := if valueOf given .output = some "json" then .json else .human
    namespaceName := (valueOf given .namespaceName).getD ""
    inMemory := (valueOf given .memory).isSome || (valueOf given .seed).isSome
    seed := valueOf given .seed }

def listFlags (given : Given) : ListFlags :=
  { filters := given.filterMap fun (name, value) => if name = .filter then some value else none
    selector := valueOf given .selector
    page := numberOf given .page
    limit := numberOf given .limit
    ascending := (valueOf given .ascending).isSome
    orderBy := valueOf given .orderBy
    query := valueOf given .query }

/-- The options that only some command has. -/
def ownOptions (command : String) : List OptionName :=
  match command with
  | "ls" => [.filter, .selector, .page, .limit, .ascending, .orderBy, .query]
  | "watch" => [.selector]
  | _ => []

/-- The command with a name, from its options and words. -/
def commandOf (name : String) (side : Side) : Except UsageStop Command :=
  match name, side.words with
  | "resources", [] => .ok .resources
  | "ls", [target] => .ok (.list target (listFlags side.given))
  | "get", [target, object] => .ok (.get target object)
  | "delete", [target, object] => .ok (.delete target object)
  | "watch", [target] => .ok (.watch target (valueOf side.given .selector))
  | _, _ => .error .wrong

def commandNames : List String := ["resources", "ls", "get", "delete", "watch"]

def read (arguments : List String) : Except UsageStop Invocation := do
  let before ← readSide OptionName.common true arguments ⟨[], [], []⟩
  match before.words with
  | [name] =>
    if commandNames.contains name then
      let after ← readSide (OptionName.common ++ ownOptions name) false before.rest ⟨[], [], []⟩
      let command ← commandOf name after
      .ok ⟨commonOptions (after.given ++ before.given), command⟩
    else if name == "help" then .error .help
    else .error .wrong
  | _ => .error .wrong

end Arguments

end ClusterObjects
