/-!
# Why a file cannot be used

The causes carry the wording of the operating system, with its error number.
-/
namespace LiveRules.Files

inductive ReadError where
  | notFound
  | notDirectory
  | isDirectory
  | linkLoop
  | notUtf8
  | nulByte
  | emptyPath
  /-- Something that exists already, or a directory with entries in it. -/
  | inTheWay
  deriving DecidableEq, Repr

namespace ReadError

def message : ReadError → String
  | notFound => "No such file or directory (os error 2)"
  | notDirectory => "Not a directory (os error 20)"
  | isDirectory => "Is a directory (os error 21)"
  | linkLoop => "Too many levels of symbolic links (os error 40)"
  | notUtf8 => "stream did not contain valid UTF-8"
  | nulByte => "file name contained an unexpected NUL byte"
  | emptyPath => "cannot make an empty path absolute"
  | inTheWay => "File exists (os error 17)"

end ReadError
end LiveRules.Files
