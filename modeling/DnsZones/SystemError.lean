import DnsZones.Numeral

/-!
# Errors of the Operating System

Why an operation on files, pipes or programs failed.

Most errors come from the system and are reported with their number. Four are
found before the system is asked and have none.

## Main definitions

* `SystemError`: The errors.
* `SystemError.message`: How an error is reported.
-/

namespace DnsZones

/-- A failure of the operating system. -/
inductive SystemError where
  /-- A step of the path names nothing. -/
  | notFound
  /-- The file is no program that can be started. -/
  | execFormat
  /-- The file must not be run. -/
  | permissionDenied
  /-- The directory is in use by the system. -/
  | busy
  /-- The path names something already. -/
  | alreadyThere
  /-- A step of the path goes below something that is no directory. -/
  | notDirectory
  /-- The path names a directory. -/
  | isDirectory
  /-- The argument makes no sense to the system. -/
  | invalidArgument
  /-- The disk is full. -/
  | noSpace
  /-- The program at the other end of the pipe is gone. -/
  | brokenPipe
  /-- A name or a whole path is too long. -/
  | nameTooLong
  /-- The directory is not empty. -/
  | notEmpty
  /-- Following symbolic links does not come to an end. -/
  | tooManyLinks
  /-- The input ended before all that was asked for. -/
  | unexpectedEnd
  /-- The bytes of a text file are not UTF-8. -/
  | invalidText
  /-- The path has a character that no path can have. -/
  | nulInPath
  /-- The empty path is below no directory. -/
  | emptyPath
  deriving DecidableEq, Repr

namespace SystemError

/-- The system's number for an error. -/
def code? : SystemError → Option Nat
  | notFound => some 2
  | execFormat => some 8
  | permissionDenied => some 13
  | busy => some 16
  | alreadyThere => some 17
  | notDirectory => some 20
  | isDirectory => some 21
  | invalidArgument => some 22
  | noSpace => some 28
  | brokenPipe => some 32
  | nameTooLong => some 36
  | notEmpty => some 39
  | tooManyLinks => some 40
  | unexpectedEnd | invalidText | nulInPath | emptyPath => none

/-- What an error says. -/
def text : SystemError → String
  | notFound => "No such file or directory"
  | execFormat => "Exec format error"
  | permissionDenied => "Permission denied"
  | busy => "Device or resource busy"
  | alreadyThere => "File exists"
  | notDirectory => "Not a directory"
  | isDirectory => "Is a directory"
  | invalidArgument => "Invalid argument"
  | noSpace => "No space left on device"
  | brokenPipe => "Broken pipe"
  | nameTooLong => "File name too long"
  | notEmpty => "Directory not empty"
  | tooManyLinks => "Too many levels of symbolic links"
  | unexpectedEnd => "failed to fill whole buffer"
  | invalidText => "stream did not contain valid UTF-8"
  | nulInPath => "file name contained an unexpected NUL byte"
  | emptyPath => "cannot make an empty path absolute"

/-- How an error is reported. -/
def message (error : SystemError) : String :=
  match error.code? with
  | some code => error.text ++ " (os error " ++ Numeral.decimal code ++ ")"
  | none => error.text

end SystemError

end DnsZones
