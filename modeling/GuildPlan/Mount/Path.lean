/-
  Paths as texts.

  A path is cut into pieces at its slashes. An empty piece and a single dot lead nowhere;
  at the end of a path they do not count, so `lib/` and `lib/.` both name `lib`.
-/
namespace GuildPlan.Path

/-- The pieces between slashes. -/
def split : List Char → List (List Char)
  | [] => [[]]
  | c :: cs =>
    if c = '/' then [] :: split cs
    else
      match split cs with
      | [] => [[c]]
      | piece :: rest => (c :: piece) :: rest

def pieces (path : String) : List String := (split path.toList).map String.ofList

/-- A piece that leads nowhere. -/
def idle (piece : String) : Bool := piece == "" || piece == "."

/-- The pieces that lead somewhere. -/
def names (path : String) : List String := (pieces path).filter (!idle ·)

def isAbsolute (path : String) : Bool := path.toList.head? == some '/'

/-- Whether a path leads above the place where it starts, or starts elsewhere. -/
def escapes (path : String) : Bool := isAbsolute path || (pieces path).contains ".."

/-- The pieces from the last to the first, without idle ones at the end. -/
def backward (path : String) : List String := (pieces path).reverse.dropWhile idle

/-- The last name of a path; one that ends in two dots has none. -/
def fileName? (path : String) : Option String := (backward path).head?.filter (· != "..")

/-- What is left of a path without its last name, or the present directory. -/
def directory (path : String) : String :=
  match (backward path).tail.dropWhile idle with
  | [] => if isAbsolute path then "/" else "."
  | rest => "/".intercalate rest.reverse

/-- A path below a directory; an absolute one stays as it is. -/
def join (directory path : String) : String :=
  if isAbsolute path then path
  else if directory.toList.getLast? == some '/' then directory ++ path
  else directory ++ "/" ++ path

/-- What follows the last dot of a file name that does not begin with it. -/
def extension? (path : String) : Option String :=
  (fileName? path).bind fun name =>
    let backward := name.toList.reverse
    match backward.dropWhile (· ≠ '.') with
    | _ :: _ :: _ => some (String.ofList (backward.takeWhile (· ≠ '.')).reverse)
    | _ => none

/-- The extensions of scripts. -/
def scriptExtensions : List String := ["lua", "luau"]

def hasScriptExtension (path : String) : Bool :=
  (extension? path).any scriptExtensions.contains

end GuildPlan.Path
