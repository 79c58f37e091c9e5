import LexerGen.Text.Quoted

/-!
# Where texts come from

A text is read from the standard input or from a file. Reading fails if the system refuses it, for
one of a number of reasons that have numbers, or if the bytes are not the encoding of a text. If it
is known which files there are, it is known what reading leads to (`Sources.read`).
-/

namespace LexerGen.CommandLine

/-- **Where a text is read from.** -/
inductive Source
  | standardInput
  | file (path : String)
  deriving DecidableEq, Repr

/-- The message for a source that cannot be read. -/
def Source.errorMessage : Source → String
  | standardInput => "Error reading standard input"
  | file path => "Error reading " ++ Text.quotedString path

/-- **Why the system refuses to read.** -/
inductive Refusal
  | notFound
  | notAllowed
  | notDirectory
  | isDirectory
  | nameTooLong
  | tooManyLinks
  deriving DecidableEq, Repr

namespace Refusal

/-- The number of each reason. -/
def number : Refusal → Nat
  | notFound => 2
  | notAllowed => 13
  | notDirectory => 20
  | isDirectory => 21
  | nameTooLong => 36
  | tooManyLinks => 40

/-- The reason with a given number. -/
def ofNumber? (n : Nat) : Option Refusal :=
  [notFound, notAllowed, notDirectory, isDirectory, nameTooLong, tooManyLinks].find?
    fun refusal => refusal.number == n

/-- The wording of each reason. -/
def reason : Refusal → String
  | notFound => "No such file or directory"
  | notAllowed => "Permission denied"
  | notDirectory => "Not a directory"
  | isDirectory => "Is a directory"
  | nameTooLong => "File name too long"
  | tooManyLinks => "Too many levels of symbolic links"

/-- The parts of a path that name something, other than a directory itself or the one above it. -/
def names (path : String) : List String :=
  (path.splitOn "/").filter fun name => name != "" && name != "." && name != ".."

/-- **Why a file cannot be read that there is not.** A path without names leads to a directory. A
path is too long from 4096 bytes on and a name from 256 on, but only the first name is looked at if
it leads nowhere. -/
def ofPath (path : String) : Refusal :=
  if 4096 ≤ path.utf8ByteSize then nameTooLong
  else
    match names path with
    | [] => isDirectory
    | name :: _ => if 256 ≤ name.utf8ByteSize then nameTooLong else notFound

end Refusal

/-- **Why a text cannot be read.** -/
inductive ReadError
  /-- The system refuses. -/
  | refused (refusal : Refusal)
  /-- The bytes are not the encoding of a text. -/
  | notText
  /-- The system gives another reason. -/
  | other (message : String)
  deriving DecidableEq, Repr

/-- The wording of each error. -/
def ReadError.message : ReadError → String
  | refused refusal => refusal.reason ++ " (os error " ++ toString refusal.number ++ ")"
  | notText => "stream did not contain valid UTF-8"
  | other message => message

/-- The text that bytes encode. -/
def decodeText (bytes : ByteArray) : Except ReadError String :=
  match String.fromUTF8? bytes with
  | some text => .ok text
  | none => .error .notText

/-- **What there is to read**: the bytes on the standard input, and files with their paths. -/
structure Sources where
  standardInput : ByteArray
  files : List (String × ByteArray)

/-- **What each source holds**, or why it cannot be read. -/
def Sources.read (s : Sources) : Source → Except ReadError String
  | .standardInput => decodeText s.standardInput
  | .file path =>
    match s.files.lookup path with
    | some bytes => decodeText bytes
    | none => .error (.refused (.ofPath path))

end LexerGen.CommandLine
