/-
This file models the files that a command can read: regular files below a working directory, named
by relative paths. A directory exists where a file stands below it. Nothing is known of what lies
outside the working directory, except that its parents are directories.
-/

namespace Hart.CommandLine

/-- Why a file could not be read. -/
inductive ReadError where
  /-- Nothing has that name. -/
  | notFound
  /-- A step of the path leads through something that is no directory. -/
  | notDirectory
  /-- The path names a directory. -/
  | isDirectory
  /-- The path or one of its parts is longer than names may be. -/
  | nameTooLong
  /-- The path contains a zero byte. -/
  | zeroByte
  /-- Anything else, in the words of the system. -/
  | other (message : String)
deriving DecidableEq

/-- The text shown for an error. -/
def ReadError.message : ReadError → String
  | notFound => "No such file or directory (os error 2)"
  | notDirectory => "Not a directory (os error 20)"
  | isDirectory => "Is a directory (os error 21)"
  | nameTooLong => "File name too long (os error 36)"
  | zeroByte => "file name contained an unexpected NUL byte"
  | other message => message

/-- The parts of a path, separated by slashes. -/
abbrev Path := List String

/-- Regular files with their paths below the working directory. -/
structure Files where
  entries : List (Path × ByteArray) := []

namespace Files

/-- Where a walk along a path has arrived. -/
inductive Place where
  /-- At a path below the working directory. -/
  | inside (path : Path)
  /-- At a directory outside the working directory. -/
  | outside
deriving DecidableEq

/-- The contents of the file with exactly this path. -/
def contents? (files : Files) (path : Path) : Option ByteArray :=
  files.entries.lookup path

/-- Whether a path names a directory. The working directory is one. -/
def isDirectory (files : Files) (path : Path) : Bool :=
  path.isEmpty || files.entries.any fun entry => path.isPrefixOf entry.1 && path != entry.1

/-- The longest name of a file, and the longest path, in bytes. -/
def nameLimit : Nat := 255
def pathLimit : Nat := 4096

/-- The directory above. -/
def Place.parent : Place → Place
  | inside [] => outside
  | inside path => inside path.dropLast
  | outside => outside

/-- Takes one step along a path. Empty parts and single dots stay where they are, but only a
directory lets them. -/
def follow (files : Files) (place : Place) (part : String) : Except ReadError Place :=
  match place with
  | .outside =>
    if part == "" || part == "." || part == ".." then .ok .outside else .error .notFound
  | .inside path =>
    if files.isDirectory path then
      if part == "" || part == "." then .ok place
      else if part == ".." then .ok place.parent
      else if nameLimit < part.utf8ByteSize then .error .nameTooLong
      else .ok (.inside (path ++ [part]))
    else if (files.contents? path).isSome then .error .notDirectory
    else .error .notFound

/-- Reads the file at a path. A path that starts with a slash leads away from the working directory,
and an empty path leads nowhere. -/
def read (files : Files) (path : String) : Except ReadError ByteArray :=
  if path.toList.contains '\x00' then .error .zeroByte
  else if path == "" then .error .notFound
  else if pathLimit ≤ path.utf8ByteSize then .error .nameTooLong
  else
    let start := if path.toList.head? == some '/' then Place.outside else Place.inside []
    match (path.splitOn "/").foldlM files.follow start with
    | .error error => .error error
    | .ok .outside => .error .isDirectory
    | .ok (.inside place) =>
      if files.isDirectory place then .error .isDirectory
      else
        match files.contents? place with
        | some contents => .ok contents
        | none => .error .notFound

end Files

end Hart.CommandLine
