/-!
# Reading files

The console reads whole files as text. This module says what can go wrong with that,
and has directories that are given by their files, for a console that runs on data
instead of a disk.
-/

namespace ByteMachine.Console

/-- Why a file could not be read as text. -/
inductive ReadError where
  /-- The operating system gave this number and this text as the reason. -/
  | system (code : Nat) (reason : String)
  /-- The bytes are not the UTF-8 encoding of a text. -/
  | notText
  deriving DecidableEq, Repr

namespace ReadError

/-- There is no file with this path. -/
def notFound : ReadError := system 2 "No such file or directory"

/-- The path goes on behind a file. -/
def notDirectory : ReadError := system 20 "Not a directory"

/-- The path leads to a directory. -/
def isDirectory : ReadError := system 21 "Is a directory"

/-- The path or a part of it is too long. -/
def nameTooLong : ReadError := system 36 "File name too long"

/-- The text that reports why a file could not be read. -/
def message : ReadError → String
  | system code reason => reason ++ " (os error " ++ toString code ++ ")"
  | notText => "stream did not contain valid UTF-8"

end ReadError

/-- The text that bytes encode. -/
def decodeText (bytes : ByteArray) : Except ReadError String :=
  match String.fromUTF8? bytes with
  | some text => .ok text
  | none => .error .notText

/-- The longest name of a file, in bytes. -/
def maxNameSize : Nat := 255

/-- The longest path, in bytes. -/
def maxPathSize : Nat := 4095

/-- A directory without subdirectories, given by the names and bytes of its files. Of what
lies outside of it only the directories on the way to the root are known. -/
structure Directory where
  /-- The files. -/
  files : List (String × ByteArray)

namespace Directory

/-- Whether a part of a path leads nowhere else. -/
def staysHere (part : String) : Bool := part = "" || part = "."

/-- Follows a path from outside of the directory, given by its parts. -/
def followOutside : List String → Except ReadError ByteArray
  | [] => .error .isDirectory
  | part :: parts =>
    if staysHere part || part = ".." then followOutside parts
    else if maxNameSize < part.utf8ByteSize then .error .nameTooLong
    else .error .notFound

/-- Follows a path from the directory, given by its parts. -/
def follow (d : Directory) : List String → Except ReadError ByteArray
  | [] => .error .isDirectory
  | part :: parts =>
    if staysHere part then d.follow parts
    else if part = ".." then followOutside parts
    else if maxNameSize < part.utf8ByteSize then .error .nameTooLong
    else
      match d.files.lookup part, parts with
      | none, _ => .error .notFound
      | some bytes, [] => .ok bytes
      | some _, _ :: _ => .error .notDirectory

/-- The bytes of the file with a path, which starts at the root if it begins with a
slash. -/
def find (d : Directory) (path : String) : Except ReadError ByteArray :=
  if path = "" then .error .notFound
  else if maxPathSize < path.utf8ByteSize then .error .nameTooLong
  else
    let parts := path.splitOn "/"
    if parts.head? = some "" then followOutside parts else d.follow parts

/-- The text of the file with a path. -/
def read (d : Directory) (path : String) : Except ReadError String :=
  (d.find path).bind decodeText

end Directory

end ByteMachine.Console
