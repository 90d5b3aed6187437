import GuildPlan.Mount.Path

/-
  File systems as trees of directories.

  A node is known by the names on the way to it from the root, which is always a directory and
  has itself above it. A path that begins with a slash starts at the root, and any other one at
  the working directory. Names are text, and names and paths can only be so long.
-/
namespace GuildPlan

inductive Node (α : Type)
  | directory
  | file (body : α)
  | link (target : String)

/-- The way from the root of a tree, name by name. -/
abbrev Way := List String

structure Tree (α : Type) where
  nodes : List (Way × Node α) := []
  /-- The working directory. -/
  home : Way := []

namespace Tree
variable {α β : Type}

/-- The working directory of a tree that is begun with nothing else in it. -/
def emptyHome : Way := ["srv", "guild"]

instance : EmptyCollection (Tree α) :=
  ⟨{ nodes := [(emptyHome.dropLast, .directory), (emptyHome, .directory)], home := emptyHome }⟩

def node? (t : Tree α) (way : Way) : Option (Node α) :=
  if way = [] then some .directory else t.nodes.lookup way

/-- Puts a node in its place, where there was one instead of it. -/
def put (t : Tree α) (way : Way) (n : Node α) : Tree α :=
  { t with nodes := t.nodes.filter (·.1 ≠ way) ++ [(way, n)] }

/-- Makes the directories that are missing on a way that goes on from `here`. -/
def makeWay (t : Tree α) (here : Way) : List String → Tree α
  | [] => t
  | name :: rest =>
    let next := here ++ [name]
    (if (t.node? next).isNone then t.put next .directory else t).makeWay next rest

/-- Where a path starts. -/
def start (t : Tree α) (path : String) : Way := if Path.isAbsolute path then [] else t.home

def withDirectory (t : Tree α) (path : String) : Tree α :=
  t.makeWay (t.start path) (Path.names path)

/-- Puts a node at a path, and the directories above it that are missing. -/
def withNode (t : Tree α) (path : String) (n : Node α) : Tree α :=
  let way := Path.names path
  (t.makeWay (t.start path) way.dropLast).put (t.start path ++ way) n

def withFile (t : Tree α) (path : String) (body : α) : Tree α := t.withNode path (.file body)
def withLink (t : Tree α) (path target : String) : Tree α := t.withNode path (.link target)

/-- Where a walk comes to: its end, a last name that is free in its directory, nowhere, or
a link with the pieces that are left. -/
inductive Walk
  | arrived (way : Way)
  | free (way : Way)
  | lost
  | diverted (here : Way) (pieces : List String)

/-- The most bytes that a name can have. -/
def nameLimit : Nat := 255

/-- Walks on from `here` up to the first link; only a directory can be walked on from. -/
def walk (t : Tree α) (here : Way) : List String → Walk
  | [] => .arrived here
  | piece :: rest =>
    match t.node? here with
    | some .directory =>
      if Path.idle piece then t.walk here rest
      else if piece = ".." then t.walk here.dropLast rest
      else if nameLimit < piece.utf8ByteSize then .lost
      else
        match t.node? (here ++ [piece]) with
        | none => if rest = [] then .free (here ++ [piece]) else .lost
        | some (.link target) =>
          .diverted (if Path.isAbsolute target then [] else here) (Path.pieces target ++ rest)
        | some _ => t.walk (here ++ [piece]) rest
    | _ => .lost

/-- Walks on from `here` through a limited number of links. -/
def follow (t : Tree α) : Nat → Way → List String → Walk
  | links, here, pieces =>
    match t.walk here pieces with
    | .diverted here pieces =>
      match links with
      | 0 => .lost
      | links + 1 => t.follow links here pieces
    | w => w

/-- The most links that one path may lead through. -/
def linkLimit : Nat := 40

/-- The most bytes that a path can have. -/
def pathLimit : Nat := 4095

/-- Walks along a path. -/
def reach (t : Tree α) (path : String) : Walk :=
  if pathLimit < path.utf8ByteSize then .lost
  else t.follow linkLimit (t.start path) (Path.pieces path)

/-- The way to what a path denotes. -/
def locate? (t : Tree α) (path : String) : Option Way :=
  match t.reach path with
  | .arrived way => some way
  | _ => none

/-- The content of the file that a path denotes. -/
def read? (t : Tree α) (path : String) : Option α :=
  match (t.locate? path).bind t.node? with
  | some (.file body) => some body
  | _ => none

/-- The tree with a file's content written, unless the path leads to no file and to no
free name in a directory. -/
def write? (t : Tree α) (path : String) (body : α) : Option (Tree α) :=
  match t.reach path with
  | .free way => some (t.put way (.file body))
  | .arrived way =>
    match t.node? way with
    | some (.file _) => some (t.put way (.file body))
    | _ => none
  | _ => none

/-- The nodes below a place, each with the rest of its way. -/
def below (t : Tree α) (here : Way) : List (Way × Node α) :=
  t.nodes.filterMap fun (way, n) =>
    match here.isPrefixOf? way with
    | some (name :: rest) => some (name :: rest, n)
    | _ => none

/-- The same tree with other file contents. -/
def map (f : α → β) (t : Tree α) : Tree β where
  nodes := t.nodes.map fun (way, n) =>
    (way, match n with
      | .directory => .directory
      | .file body => .file (f body)
      | .link target => .link target)
  home := t.home

end Tree
end GuildPlan
