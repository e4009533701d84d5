import LispEditor.Text.Slice

/-!
# Paths

A path is a list of parts between slashes. Parts that are empty or a single dot say nothing and are
left out; a part of two dots stays. An absolute path begins with a root of one slash, or of exactly
two.
-/

namespace LispEditor

/-- A path. -/
structure Path where
  root : Text
  parts : List Text
  deriving DecidableEq, Repr

namespace Path

/-- The parts of a text between slashes. -/
def splitSlashes : Text → List Text
  | [] => [[]]
  | c :: rest =>
      match splitSlashes rest with
      | [] => [[c]]
      | part :: parts => if c == '/' then [] :: part :: parts else (c :: part) :: parts

/-- The root of a written path. -/
def rootOf (text : Text) : Text :=
  match (text.takeWhile (· == '/')).length with
  | 0 => []
  | 2 => ['/', '/']
  | _ => ['/']

/-- Reads a path. -/
def ofText (text : Text) : Path :=
  ⟨rootOf text, (splitSlashes text).filter fun part => part != [] && part != ['.']⟩

/-- The written form of a path. -/
def text (path : Path) : Text :=
  if path.root.isEmpty && path.parts.isEmpty then ['.']
  else path.root ++ List.intercalate ['/'] path.parts

/-- The last part of a path. -/
def name (path : Path) : Text :=
  path.parts.getLast?.getD []

/-- The path that the last part lies in. -/
def parent (path : Path) : Path :=
  ⟨path.root, path.parts.dropLast⟩

/-- A path inside another one. -/
def child (path : Path) (name : Text) : Path :=
  ⟨path.root, path.parts ++ [name]⟩

/-- The end of a name from its last dot on, if the dot is neither its first nor its last
character. -/
def suffixOf (name : Text) : Text :=
  let tail := (name.reverse.takeWhile (· != '.')).reverse
  let stem := name.length - tail.length
  if tail.isEmpty || stem ≤ 1 then [] else '.' :: tail

/-- The suffix of a path's name. -/
def suffix (path : Path) : Text :=
  suffixOf path.name

end Path

end LispEditor
