import DecoratorVeil.Sentinel
import DecoratorVeil.Text.Quoted
import DecoratorVeil.Text.ShellWords

/-!
# Failures

Why an operation has no result, by cause, and the message of each cause.
-/

namespace DecoratorVeil

inductive SystemError where
  | noEntry
  | permissionDenied
  | notDirectory
  | isDirectory
  | nameTooLong
  | tooManyLinks
  deriving DecidableEq, Repr

namespace SystemError

def number : SystemError → Nat
  | .noEntry => 2
  | .permissionDenied => 13
  | .notDirectory => 20
  | .isDirectory => 21
  | .nameTooLong => 36
  | .tooManyLinks => 40

def description : SystemError → String
  | .noEntry => "No such file or directory"
  | .permissionDenied => "Permission denied"
  | .notDirectory => "Not a directory"
  | .isDirectory => "Is a directory"
  | .nameTooLong => "File name too long"
  | .tooManyLinks => "Too many levels of symbolic links"

end SystemError

/-- A failure of the tool's own, as opposed to one of its surroundings. -/
inductive ToolFailure where
  | general (message : String)
  /-- The source is no text of the language. -/
  | dialect (message : String)
  /-- A node or declaration of a kind that has no rule. -/
  | shape (kind : String)
  /-- Decorator ranges that cannot be marked. -/
  | range (message : String)
  /-- The formatter could not be run or refused its input. -/
  | formatter (message : String)
  deriving DecidableEq, Repr

def ToolFailure.message : ToolFailure → String
  | .general message => message
  | .dialect message => message
  | .shape kind => "Unknown node kind \x22" ++ kind ++ "\x22."
  | .range message => message
  | .formatter message => message

inductive Failure where
  | tool (failure : ToolFailure)
  | system (error : SystemError) (path : String)
  /-- A source file, by the path that was asked for, is not there. -/
  | missingFile (path : String)
  | linkLoop (path : String)
  /-- A path or argument holds the zero character. -/
  | zeroCharacter
  | commandWords (error : Text.ShellWords.WordsError)
  | emptyCommand
  | undecodable
  deriving DecidableEq, Repr

namespace Failure

def message : Failure → String
  | .tool failure => failure.message
  | .system error path =>
    "[Errno " ++ toString error.number ++ "] " ++ error.description ++ ": " ++ Text.quoted path
  | .missingFile path => "File not found: " ++ path
  | .linkLoop path => "Symlink loop from " ++ Text.quoted path
  | .zeroCharacter => "embedded null byte"
  | .commandWords error => error.message
  | .emptyCommand => "list index out of range"
  | .undecodable => "invalid UTF-8"

def isSystem : Failure → Bool
  | .system _ _ | .missingFile _ => true
  | _ => false

def isTool : Failure → Bool
  | .tool _ => true
  | _ => false

def dialect (text : String) : Failure := .tool (.dialect text)

def shape (kind : String) : Failure := .tool (.shape kind)

def formatter (text : String) : Failure := .tool (.formatter text)

def ofRangeError (error : Sentinel.RangeError) : Failure := .tool (.range error.message)

end Failure

end DecoratorVeil
