import LineShell.Text.Blank

/-!
# Errors of the system

A request to the system fails with a numbered cause, `SystemCode`.  `IoError` adds the causes
that are found before the system is asked, which have no number: names and arguments with a NUL
character, and input that is no UTF-8.
-/

namespace LineShell

/-- A numbered cause of failure. -/
inductive SystemCode where
  | noSuchEntry
  | argumentListTooLong
  | notExecutable
  | permissionDenied
  | alreadyExists
  | notDirectory
  | isDirectory
  | invalidArgument
  | programBusy
  | noSpaceLeft
  | nameTooLong
  | tooManyLinks
  deriving DecidableEq, Repr

namespace SystemCode

def number : SystemCode → Nat
  | noSuchEntry => 2
  | argumentListTooLong => 7
  | notExecutable => 8
  | permissionDenied => 13
  | alreadyExists => 17
  | notDirectory => 20
  | isDirectory => 21
  | invalidArgument => 22
  | programBusy => 26
  | noSpaceLeft => 28
  | nameTooLong => 36
  | tooManyLinks => 40

def all : List SystemCode :=
  [noSuchEntry, argumentListTooLong, notExecutable, permissionDenied, alreadyExists, notDirectory,
    isDirectory, invalidArgument, programBusy, noSpaceLeft, nameTooLong, tooManyLinks]

/-- The cause with a number. -/
def ofNumber? (n : Nat) : Option SystemCode := all.find? fun code => code.number == n

/-- The system's wording of a cause. -/
def description : SystemCode → Text
  | noSuchEntry => "No such file or directory".toList
  | argumentListTooLong => "Argument list too long".toList
  | notExecutable => "Exec format error".toList
  | permissionDenied => "Permission denied".toList
  | alreadyExists => "File exists".toList
  | notDirectory => "Not a directory".toList
  | isDirectory => "Is a directory".toList
  | invalidArgument => "Invalid argument".toList
  | programBusy => "Text file busy".toList
  | noSpaceLeft => "No space left on device".toList
  | nameTooLong => "File name too long".toList
  | tooManyLinks => "Too many levels of symbolic links".toList

end SystemCode

/-- Why reading, writing, opening or starting something failed. -/
inductive IoError where
  | system (code : SystemCode)
  | nulInPath
  /-- An argument or a variable of a program contains a NUL character. -/
  | nulInArgument
  /-- Input that should be text is no UTF-8. -/
  | notUtf8
  /-- A reason given by a command. -/
  | reported (reason : Text)
  deriving DecidableEq, Repr

def IoError.message : IoError → Text
  | .system code =>
    code.description ++ " (os error ".toList ++ Text.ofNat code.number ++ ")".toList
  | .nulInPath => "file name contained an unexpected NUL byte".toList
  | .nulInArgument => "nul byte found in provided data".toList
  | .notUtf8 => "stream did not contain valid UTF-8".toList
  | .reported reason => reason

end LineShell
