import LexerGen.CommandLine.Run

/-!
# The program

Carries out the plan for the arguments: reads the text if one is needed, prints the output, and
reports errors on the standard error stream.
-/

open LexerGen.CommandLine

/-- Reads all bytes of a stream. -/
partial def readAll (stream : IO.FS.Stream) (bytes : ByteArray) : IO ByteArray := do
  let chunk ← stream.read 65536
  if chunk.isEmpty then return bytes else readAll stream (bytes ++ chunk)

/-- The bytes of a source. -/
def readBytes : Source → IO ByteArray
  | .standardInput => do readAll (← IO.getStdin) ByteArray.empty
  | .file path => IO.FS.readBinFile path

/-- The reason that the system gives for an error; its number may be given with a minus sign. -/
def readError (e : IO.Error) : ReadError :=
  let number? : Option UInt32 := match e with
    | .noFileOrDirectory _ n _ => some n
    | .permissionDenied _ n _ => some n
    | .inappropriateType _ n _ => some n
    | .invalidArgument _ n _ => some n
    | .resourceExhausted _ n _ => some n
    | _ => none
  match number?.bind fun n => Refusal.ofNumber? n.toInt32.toInt.natAbs with
  | some refusal => .refused refusal
  | none => .other (toString e)

/-- Reads a source, and says why where that fails. -/
def readSource (source : Source) : IO (Except ReadError String) := do
  try
    return decodeText (← readBytes source)
  catch e =>
    return .error (readError e)

/-- Prints a report and gives the exit code. -/
def finish (report : Report) : IO UInt32 := do
  IO.print report.output
  match report.error with
  | some error => IO.eprintln error
  | none => pure ()
  return UInt32.ofNat report.code

/-- Runs the program. -/
def main (args : List String) : IO UInt32 := do
  match plan args with
  | .refused e =>
    IO.eprintln ("error: " ++ e.message)
    return 2
  | .finished report => finish report
  | .runs o logged =>
    match o.task with
    | .finished outcome => finish (outcome.report logged)
    | .tokenizes lexer source => do
      finish ((tokenize lexer source (← readSource source)).report logged)
