/-!
# Input and output errors

What can go wrong when files are read or written, and the text each error is reported with.
-/

namespace ClassViewer

/-- An error of the operating system. -/
inductive OsError where
  | noEntry
  | noSuchDevice
  | argumentsTooLong
  | execFormat
  | badDescriptor
  | permissionDenied
  | alreadyExists
  | noDevice
  | notADirectory
  | isADirectory
  | invalidArgument
  | noSpace
  | nameTooLong
  | notEmpty
  | tooManyLinks
  deriving DecidableEq, Repr

namespace OsError

/-- The number the system gives the error. -/
def code : OsError → Nat
  | noEntry => 2
  | noSuchDevice => 6
  | argumentsTooLong => 7
  | execFormat => 8
  | badDescriptor => 9
  | permissionDenied => 13
  | alreadyExists => 17
  | noDevice => 19
  | notADirectory => 20
  | isADirectory => 21
  | invalidArgument => 22
  | noSpace => 28
  | nameTooLong => 36
  | notEmpty => 39
  | tooManyLinks => 40

/-- The system's words for the error. -/
def description : OsError → String
  | noEntry => "No such file or directory"
  | noSuchDevice => "No such device or address"
  | argumentsTooLong => "Argument list too long"
  | execFormat => "Exec format error"
  | badDescriptor => "Bad file descriptor"
  | permissionDenied => "Permission denied"
  | alreadyExists => "File exists"
  | noDevice => "No such device"
  | notADirectory => "Not a directory"
  | isADirectory => "Is a directory"
  | invalidArgument => "Invalid argument"
  | noSpace => "No space left on device"
  | nameTooLong => "File name too long"
  | notEmpty => "Directory not empty"
  | tooManyLinks => "Too many levels of symbolic links"

/-- The words and the number. -/
def message (e : OsError) : String := e.description ++ " (os error " ++ toString e.code ++ ")"

end OsError

/-- An error while reading or writing. -/
inductive IoError where
  /-- The operating system refused. -/
  | os (e : OsError)
  /-- A path with a NUL character names no file. -/
  | nulInPath
  /-- The file is not UTF-8 text. -/
  | notUtf8
  /-- The data ended inside a fixed-size field. -/
  | shortRead
  /-- The data does not have the checksum it was stored with. -/
  | badChecksum
  /-- The compressed data breaks the format. -/
  | corruptStream
  /-- The compressed data ends too early. -/
  | incompleteStream
  /-- A program that is waited for never ends. -/
  | unended
  /-- Any other error, by its text. -/
  | other (text : String)
  deriving DecidableEq, Repr

namespace IoError

/-- The text of the error. -/
def message : IoError → String
  | os e => e.message
  | nulInPath => "file name contained an unexpected NUL byte"
  | notUtf8 => "stream did not contain valid UTF-8"
  | shortRead => "failed to fill whole buffer"
  | badChecksum => "Invalid checksum"
  | corruptStream => "corrupt deflate stream"
  | incompleteStream => "incomplete deflate stream"
  | unended => "program did not end"
  | other text => text

/-- Whether the error says that something is not there. -/
def isNotFound : IoError → Bool
  | os .noEntry => true
  | _ => false

end IoError

end ClassViewer
