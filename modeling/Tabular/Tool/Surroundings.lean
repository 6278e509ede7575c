/-!
# Tabular.Tool.Surroundings — the files and the environment around the tool

A command sees files and environment variables through functions.  `Surroundings.ofFiles` makes them
from a list of files; `plainPath` gives all the paths to one file the same form.
-/

namespace Tabular.Tool

/-- What the tool can find out about its surroundings. -/
structure Surroundings where
  /-- The content of a file, or why it cannot be read. -/
  fileContent : String → Except String String
  environment : String → Option String

/-- Whether a component of a path stays in the directory where it is read. -/
def staysPut (component : String) : Bool := component = "" ∨ component = "."

/-- A path without the components on the way that stay put.  The last component is kept in any case:
a path that ends in a slash or a dot leads to a directory, not to a file. -/
def plainPath (path : String) : String :=
  let components := path.splitOn "/"
  let root := if path.startsWith "/" then "/" else ""
  let way := components.dropLast.filter (!staysPut ·)
  root ++ "/".intercalate (way ++ components.getLast?.toList)

/-- The surroundings with files, given by their plain paths from the working directory. -/
def Surroundings.ofFiles (files : List (String × String)) (environment : String → Option String) :
    Surroundings where
  fileContent path :=
    match files.lookup (plainPath path) with
    | some content => .ok content
    | none => .error "there is no such file"
  environment

end Tabular.Tool
