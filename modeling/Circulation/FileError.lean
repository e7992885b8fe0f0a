import Circulation.Text.Quoted

/-!
# Unreadable files

Why the text of a file cannot be read.

## Main definitions

* `Circulation.FileError` — the causes.
* `Circulation.FileError.message`, `Circulation.FileError.report` — the texts that report a cause.
-/

namespace Circulation

/-- Why the text of a file cannot be read. -/
inductive FileError where
  /-- The system refuses, with an error number, the kind of the error and a description. -/
  | system (number : Nat) (kind description : String)
  /-- The bytes of the file are not UTF-8. -/
  | notUtf8
  deriving DecidableEq, Repr

namespace FileError

/-- There is no file. -/
def notFound : FileError :=
  .system 2 "NotFound" "No such file or directory"

/-- The text that reports a cause. -/
def message : FileError → String
  | .system number _ description => description ++ " (os error " ++ toString number ++ ")"
  | .notUtf8 => "stream did not contain valid UTF-8"

/-- The text that reports a cause by its parts. -/
def report : FileError → String
  | .system number kind description =>
    "Os \x7b code: " ++ toString number ++ ", kind: " ++ kind ++ ", message: " ++
      Text.quote description ++ " \x7d"
  | .notUtf8 =>
    "Error \x7b kind: InvalidData, message: " ++ Text.quote "stream did not contain valid UTF-8" ++
      " \x7d"

end FileError

end Circulation
