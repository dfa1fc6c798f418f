/-!
# Refused file accesses

The reasons for which a file tree turns an access down, and the system's words
for them.
-/

namespace LieScribe

inductive Refusal where
  | notFound
  | occupied
  | notDirectory
  | isDirectory
  /-- A name, or a whole path, has more bytes than the system takes. -/
  | tooLong
  /-- A path holds the character that ends paths. -/
  | endsInside
  /-- What is to be copied is a directory. -/
  | notCopyable
  | notText
  deriving DecidableEq, Repr

namespace Refusal

def message : Refusal → String
  | .notFound => "No such file or directory (os error 2)"
  | .occupied => "File exists (os error 17)"
  | .notDirectory => "Not a directory (os error 20)"
  | .isDirectory => "Is a directory (os error 21)"
  | .tooLong => "File name too long (os error 36)"
  | .endsInside => "file name contained an unexpected NUL byte"
  | .notCopyable =>
      "the source path is neither a regular file nor a symlink to a regular file"
  | .notText => "stream did not contain valid UTF-8"

end Refusal

end LieScribe
