import Rpn.Environment
/-!
A directory held in memory: files by name, and no directories inside. A path is read part by part.
Empty parts and single dots stay where they are; a file has no parts below it.
-/
namespace Rpn

structure Directory where
  files : List (String × ByteArray)

namespace Directory

def longestPart : Nat := 255
def longestPath : Nat := 4095

/-- Where a path has led so far. -/
inductive Place where
  | here
  | inside (bytes : ByteArray)
  | outside

def enter (directory : Directory) (place : Place) (part : String) : Except ReadError Place :=
  match place with
  | .inside _ => .error .notDirectory
  | .here | .outside =>
    if part = "" ∨ part = "." then .ok place
    else if part = ".." then .ok .outside
    else if longestPart < part.utf8ByteSize then .error .nameTooLong
    else
      match place, directory.files.lookup part with
      | .here, some bytes => .ok (.inside bytes)
      | _, _ => .error .notFound

def walk (directory : Directory) : Place → List String → Except ReadError Place
  | place, [] => .ok place
  | place, part :: rest =>
    match directory.enter place part with
    | .ok place => directory.walk place rest
    | .error error => .error error

def read (directory : Directory) (path : String) : Except ReadError ByteArray :=
  if path = "" then .error .notFound
  else if longestPath < path.utf8ByteSize then .error .nameTooLong
  else
    let start := if path.startsWith "/" then Place.outside else .here
    match directory.walk start (path.splitOn "/") with
    | .ok (.inside bytes) => .ok bytes
    | .ok _ => .error .isDirectory
    | .error error => .error error

end Directory

end Rpn
