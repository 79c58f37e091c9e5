/-!
# The options of the program

The program takes token definitions, a mode, and a file to read. Arguments are read from left to
right, and the first that cannot be taken decides the error; only then are the options checked
against each other. A request for the version or for help ends the reading at once, so what follows
it is not looked at.

Options with a value are written with the value attached (`-tA=a`, `-t=A=a`, `--token=A=a`) or as
two arguments (`-t A=a`, `--token A=a`); in the second form the value must not look like an option,
that is, start with `-` unless it is `-` alone. After an argument `--` no argument is an option.
-/

namespace LexerGen.CommandLine

/-- The automaton that is drawn. -/
inductive Drawing
  | nfa
  | dfa
  deriving DecidableEq, Repr

/-- **What the program is asked to do.** -/
structure Options where
  /-- Which messages are logged. -/
  logFilter : Option String := none
  /-- The token definitions, names and patterns, strongest first. -/
  tokens : List (String × String) := []
  /-- Whether to print the prenex text of the patterns. -/
  prenex : Bool := false
  /-- The automaton to draw, if any. -/
  dot : Option Drawing := none
  /-- Whether the drawing shows the sink. -/
  showSink : Bool := false
  /-- The file to read instead of the standard input. -/
  file : Option String := none
  deriving DecidableEq, Repr

/-- **Why arguments are refused.** -/
inductive UsageError
  | unknownOption (arg : String)
  | missingValue (option : String)
  | unexpectedValue (option : String)
  | invalidToken (value : String)
  | invalidDrawing (value : String)
  | repeatedOption (option : String)
  | emptyFile
  | extraArgument (arg : String)
  | noTokens
  | prenexWithDot
  | showSinkWithoutDot
  deriving DecidableEq, Repr

namespace UsageError

/-- The wording of each error. -/
def message : UsageError → String
  | unknownOption arg => s!"unknown option '{arg}'"
  | missingValue option => s!"option '{option}' needs a value"
  | unexpectedValue option => s!"option '{option}' takes no value"
  | invalidToken value => s!"invalid token '{value}': expected NAME=PATTERN"
  | invalidDrawing value => s!"invalid automaton '{value}': expected nfa or dfa"
  | repeatedOption option => s!"option '{option}' is given more than once"
  | emptyFile => "the name of the file is empty"
  | extraArgument arg => s!"unexpected argument '{arg}'"
  | noTokens => "no token is given"
  | prenexWithDot => "option '--prenex' excludes option '--dot'"
  | showSinkWithoutDot => "option '--show-sink' needs option '--dot'"

end UsageError

/-- **What the arguments ask for.** -/
inductive Request
  /-- The name and version of the program. -/
  | version
  /-- An overview of the options. -/
  | help
  /-- A run with these options. -/
  | run (options : Options)
  deriving DecidableEq, Repr

/-- The options that take a value. -/
inductive ValueOption
  | token
  | dot
  | logFilter
  deriving DecidableEq, Repr

/-- The options that take none. -/
inductive Flag
  | prenex
  | showSink
  | version
  | help
  deriving DecidableEq, Repr

/-- The long name of an option with a value. -/
def ValueOption.name : ValueOption → String
  | token => "token"
  | dot => "dot"
  | logFilter => "log-filter"

/-- The long name of an option without a value. -/
def Flag.name : Flag → String
  | prenex => "prenex"
  | showSink => "show-sink"
  | version => "version"
  | help => "help"

def valueOptions : List ValueOption := [.token, .dot, .logFilter]

def flags : List Flag := [.prenex, .showSink, .version, .help]

/-- A text up to the first `=`, and what follows it if there is one. -/
def splitAtEquals (cs : List Char) : List Char × Option (List Char) :=
  match cs.dropWhile (· != '=') with
  | [] => (cs, none)
  | _ :: value => (cs.takeWhile (· != '='), some value)

/-- **Reads a token definition** `NAME=PATTERN`; the name must not be empty. -/
def readToken (value : String) : Except UsageError (String × String) :=
  match splitAtEquals value.toList with
  | (c :: name, some pattern) => .ok (String.ofList (c :: name), String.ofList pattern)
  | _ => .error (.invalidToken value)

namespace Options

/-- Takes the value of an option. Tokens add up; other options are given once. -/
def setValue (o : Options) (option : ValueOption) (value : String) : Except UsageError Options :=
  match option with
  | .token => (readToken value).map fun token => { o with tokens := o.tokens ++ [token] }
  | .dot =>
    if o.dot.isSome then .error (.repeatedOption "--dot")
    else if value = "nfa" then .ok { o with dot := some .nfa }
    else if value = "dfa" then .ok { o with dot := some .dfa }
    else .error (.invalidDrawing value)
  | .logFilter =>
    if o.logFilter.isSome then .error (.repeatedOption "--log-filter")
    else .ok { o with logFilter := some value }

/-- Takes an argument that is no option. -/
def setFile (o : Options) (arg : String) : Except UsageError Options :=
  if o.file.isSome then .error (.extraArgument arg)
  else if arg = "" then .error .emptyFile
  else .ok { o with file := some arg }

/-- **Checks the options against each other.** Showing the sink needs a drawing, except that the
prenex mode, which excludes drawings, lifts that demand. -/
def check (o : Options) : Except UsageError Options :=
  if o.tokens.isEmpty then .error .noTokens
  else if o.prenex && o.dot.isSome then .error .prenexWithDot
  else if o.showSink && o.dot.isNone && !o.prenex then .error .showSinkWithoutDot
  else .ok o

end Options

/-- **An argument by its form.** -/
inductive Arg
  /-- The argument `--`. -/
  | endOfOptions
  /-- A long option, with its attached value if there is one. -/
  | long (name : List Char) (value : Option (List Char))
  /-- One or more short options. -/
  | short (cs : List Char)
  /-- Any other argument. -/
  | plain
  deriving DecidableEq, Repr

/-- The form of an argument. -/
def Arg.ofText : List Char → Arg
  | ['-', '-'] => .endOfOptions
  | '-' :: '-' :: rest =>
    let (name, value) := splitAtEquals rest
    .long name value
  | '-' :: c :: rest => .short (c :: rest)
  | _ => .plain

/-- **What reading one argument leads to.** -/
inductive Progress
  /-- The arguments after it are read with these options. -/
  | next (o : Options)
  /-- The argument after it is the value of an option. -/
  | expects (o : Options) (option : ValueOption) (written : String)
  /-- No more arguments are read. -/
  | done (request : Request)

/-- Takes an option without a value. -/
def Options.setFlag (o : Options) : Flag → Except UsageError Progress
  | .prenex =>
    if o.prenex then .error (.repeatedOption "--prenex") else .ok (.next { o with prenex := true })
  | .showSink =>
    if o.showSink then .error (.repeatedOption "--show-sink")
    else .ok (.next { o with showSink := true })
  | .version => .ok (.done .version)
  | .help => .ok (.done .help)

/-- Reads a long option. -/
def readLong (o : Options) (name : List Char) (value : Option (List Char)) :
    Except UsageError Progress :=
  let written := "--" ++ String.ofList name
  match valueOptions.find? fun v => v.name.toList == name with
  | some option =>
    match value with
    | some value => (o.setValue option (String.ofList value)).map .next
    | none => .ok (.expects o option written)
  | none =>
    match flags.find? fun f => f.name.toList == name, value with
    | some flag, none => o.setFlag flag
    | some _, some _ => .error (.unexpectedValue written)
    | none, _ => .error (.unknownOption written)

/-- **Reads short options.** A token takes all that follows it in the argument, without a leading
`=`; the other two end the reading. -/
def readShort (o : Options) (cs : List Char) : Except UsageError Progress :=
  match cs with
  | ['t'] => .ok (.expects o .token "-t")
  | 't' :: '=' :: value => (o.setValue .token (String.ofList value)).map .next
  | 't' :: value => (o.setValue .token (String.ofList value)).map .next
  | 'V' :: _ => o.setFlag .version
  | 'h' :: _ => o.setFlag .help
  | cs => .error (.unknownOption (String.ofList ('-' :: cs)))

/-- Reads one argument. -/
def readArg (o : Options) (arg : String) : Except UsageError Progress :=
  match Arg.ofText arg.toList with
  | .long name value => readLong o name value
  | .short cs => readShort o cs
  | .endOfOptions => .ok (.next o)
  | .plain => (o.setFile arg).map .next

/-- Takes arguments that cannot be options. -/
def readFiles (o : Options) : List String → Except UsageError Options
  | [] => .ok o
  | arg :: rest => do
    let o ← o.setFile arg
    readFiles o rest

/-- **Reads arguments from left to right.** If an option waits for its value, it is given with its
written form. -/
def readArgs (o : Options) (waiting : Option (ValueOption × String)) :
    List String → Except UsageError Request
  | [] =>
    match waiting with
    | some (_, written) => .error (.missingValue written)
    | none => o.check.map .run
  | arg :: rest =>
    match waiting, Arg.ofText arg.toList with
    | some (option, _), .plain => do
      let o ← o.setValue option arg
      readArgs o none rest
    | some (_, written), _ => .error (.missingValue written)
    | none, .endOfOptions => do
      let o ← readFiles o rest
      o.check.map .run
    | none, _ => do
      match ← readArg o arg with
      | .next o => readArgs o none rest
      | .expects o option written => readArgs o (some (option, written)) rest
      | .done request => .ok request

/-- **What a list of arguments asks for.** -/
def Request.ofArgs (args : List String) : Except UsageError Request := readArgs {} none args

end LexerGen.CommandLine
