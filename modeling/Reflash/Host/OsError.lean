/-!
# Errors of the operating system

What can go wrong when a file is opened, read or written, with the wording of the system.
-/

namespace Reflash.Host

inductive OsError where
  | notFound
  | notDirectory
  | isDirectory
  | noSpace
  | nameTooLong
  | nulInPath
  | endOfFile
  | invalidText
  | other (text : String)
  deriving DecidableEq

def OsError.message : OsError → String
  | notFound => "No such file or directory (os error 2)"
  | notDirectory => "Not a directory (os error 20)"
  | isDirectory => "Is a directory (os error 21)"
  | noSpace => "No space left on device (os error 28)"
  | nameTooLong => "File name too long (os error 36)"
  | nulInPath => "file name contained an unexpected NUL byte"
  | endOfFile => "failed to fill whole buffer"
  | invalidText => "stream did not contain valid UTF-8"
  | other text => text

def textOf (bytes : ByteArray) : Except OsError String :=
  match String.fromUTF8? bytes with
  | some text => .ok text
  | none => .error .invalidText

end Reflash.Host
