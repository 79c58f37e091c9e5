import LexerGen.CommandLine.LogFilter
import LexerGen.CommandLine.Options
import LexerGen.CommandLine.Source
import LexerGen.Graph.Automaton
import LexerGen.Graph.Text
import LexerGen.Lexer

/-!
# What the program does

The program compiles the token definitions it is given and, depending on its mode, prints their
prenex forms, draws the automaton, or reads a text and prints its tokens one per line. It logs at
most one error, with the causes behind it, and its exit code is 0 on success, 1 after an error, 2 if
the arguments are refused, and 101 if it breaks off without a report.

Everything is decided by pure functions. `Options.run` is the program proper: it says what options
lead to, given what each source holds. Around it stands what the program leaves to libraries, namely
the reading of arguments and of the log filter, and the layout of an error with its causes
(`Failure.text`). `plan` says what is to be done as far as that can be known before any text is
read, and `run` is the whole.

Some things are not part of a report. The log filter can also be set in the environment, by the
variable `RUST_LOG`; here it is taken as unset, so that an option gives the filter or nothing does.
Messages that are no errors are left out, and so is the failure to write (`Error writing output`),
since printing always succeeds here. The overview of the options has a wording of its own
(`helpText`).
-/

namespace LexerGen.CommandLine

/-- The name of the program. -/
def programName : String := "munch"

/-- The version of the program. -/
def programVersion : String := "0.1.0"

/-- **An error with the causes behind it**, the nearest first. -/
structure Failure where
  message : String
  causes : List String
  deriving DecidableEq, Repr

namespace Failure

/-- The lines for the causes; they are numbered if there are several. -/
def causeLines (causes : List String) : List String :=
  match causes with
  | [cause] => ["    " ++ cause]
  | causes => causes.mapIdx fun i cause => s!"    {i}: {cause}"

/-- **The text of an error**: the message and, after a blank line, the causes. -/
def text (f : Failure) : String :=
  if f.causes.isEmpty then f.message
  else f.message ++ "\n\nCaused by:\n" ++ "\n".intercalate (causeLines f.causes)

end Failure

/-- **What a run leaves behind.** -/
structure Report where
  code : Nat
  /-- The error that is logged, if any. -/
  error : Option String
  /-- What is printed. -/
  output : String
  deriving DecidableEq, Repr

/-- **Output up to an error, if one arises.** -/
structure Outcome where
  output : List Char
  failure : Option Failure
  deriving DecidableEq, Repr

/-- The line for a token: its name and its quoted lexeme. -/
def tokenLine (t : Token) : List Char :=
  t.name.toList ++ ['\t'] ++ Text.quoted t.lexeme ++ ['\n']

/-- **The tokens of a scan, one per line**, up to the end or to a failure. -/
def printItems : List (Except LexError Token) → Outcome
  | [] => ⟨[], none⟩
  | .ok token :: rest =>
    let rest := printItems rest
    ⟨tokenLine token ++ rest.output, rest.failure⟩
  | .error e :: _ => ⟨[], some ⟨e.message, []⟩⟩

/-- **Prints the tokens of a text.** -/
def tokenize (lexer : Lexer) (source : Source) (text : Except ReadError String) : Outcome :=
  match text with
  | .error e => ⟨[], some ⟨source.errorMessage, [e.message]⟩⟩
  | .ok text => printItems (lexer.scan text.toList).items

/-- **Prints the prenex text of every pattern**, one per line, up to the first that is faulty. -/
def printPrenex : List (String × String) → Outcome
  | [] => ⟨[], none⟩
  | (name, pattern) :: rest =>
    match Pattern.toPrenex pattern.toList with
    | .error e => ⟨[], some ⟨(LexerError.badPattern name e).message, [e.message]⟩⟩
    | .ok prenex =>
      let rest := printPrenex rest
      ⟨name.toList ++ ['\t'] ++ prenex ++ ['\n'] ++ rest.output, rest.failure⟩

/-- The failure to compile a list of definitions. -/
def compileFailure (e : LexerError) : Failure where
  message := "Error building lexer"
  causes := e.message :: (e.cause?.map PatternError.message).toList

/-- **What is to be done**, apart from arguments and logging. -/
inductive Task
  /-- Nothing is read. -/
  | finished (outcome : Outcome)
  /-- The tokens of a text are printed. -/
  | tokenizes (lexer : Lexer) (source : Source)

/-- **The task that options set.** -/
def Options.task (o : Options) : Task :=
  if o.prenex then .finished (printPrenex o.tokens)
  else
    match Lexer.compile o.tokens with
    | .error e => .finished ⟨[], some (compileFailure e)⟩
    | .ok lexer =>
      match o.dot with
      | some .nfa => .finished ⟨lexer.nfa.graph.text ++ ['\n'], none⟩
      | some .dfa => .finished ⟨(lexer.dfa.graph o.showSink).text ++ ['\n'], none⟩
      | none =>
        .tokenizes lexer <|
          match o.file with
          | some path => .file path
          | none => .standardInput

/-- **What options lead to**, where `read` says what each source holds. -/
def Options.run (o : Options) (read : Source → Except ReadError String) : Outcome :=
  match o.task with
  | .finished outcome => outcome
  | .tokenizes lexer source => tokenize lexer source (read source)

/-- The report on an outcome, whose failure is logged if errors are. -/
def Outcome.report (outcome : Outcome) (logged : Bool) : Report where
  code := if outcome.failure.isSome then 1 else 0
  error := if logged then outcome.failure.map Failure.text else none
  output := String.ofList outcome.output

/-- The report on a log filter that cannot be used. -/
def LogFilterError.report (e : LogFilterError) : Report where
  code := if e.message?.isSome then 1 else 101
  error := e.message?
  output := ""

/-- The overview of the options, in the words of this library. -/
def helpText : String :=
  "Usage: " ++ programName ++ " [OPTIONS] --token <NAME=PATTERN> [FILE]\n\n" ++
    "Options:\n" ++
    "      --log-filter <FILTER>   Which messages are logged\n" ++
    "  -t, --token <NAME=PATTERN>  A token definition, in priority order\n" ++
    "      --prenex                Print the prenex form of each pattern and exit\n" ++
    "      --dot <nfa|dfa>         Draw the combined automaton and exit\n" ++
    "      --show-sink             Include the sink state when drawing a DFA\n" ++
    "  -h, --help                  Print this overview\n" ++
    "  -V, --version               Print the version\n"

/-- **What the program does**, as far as it is known before a text is read. -/
inductive Plan
  /-- The arguments are refused. -/
  | refused (error : UsageError)
  /-- No options are carried out. -/
  | finished (report : Report)
  /-- Options are carried out, with errors logged or not. -/
  | runs (o : Options) (logged : Bool)

/-- **The plan for a list of arguments.** Arguments are refused before all else, and an invalid log
filter is reported before any work is done. -/
def plan (args : List String) : Plan :=
  match Request.ofArgs args with
  | .error e => .refused e
  | .ok .version => .finished ⟨0, none, programName ++ " " ++ programVersion ++ "\n"⟩
  | .ok .help => .finished ⟨0, none, helpText⟩
  | .ok (.run o) =>
    match logDirectives (o.logFilter.getD "warn") with
    | .error e => .finished e.report
    | .ok directives => .runs o (logsErrors programName directives)

/-- **The whole run**, where `read` says what each source holds. -/
def run (args : List String) (read : Source → Except ReadError String) : Report :=
  match plan args with
  | .refused _ => ⟨2, none, ""⟩
  | .finished report => report
  | .runs o logged => (o.run read).report logged

end LexerGen.CommandLine
