/-!
# Paths

A path is a text in which slashes divide the names of directories and, last, of a file. Nothing
is normalised where paths are joined. Where a path is taken apart, empty components and single
dots are left out.
-/

namespace VoltageStats.Path

/-- The parts of a list of characters between slashes. -/
def splitSlashes : List Char → List (List Char)
  | [] => [[]]
  | c :: rest =>
    match splitSlashes rest with
    | [] => [[]]
    | part :: parts => if c = '/' then [] :: part :: parts else (c :: part) :: parts

/-- The parts of a path between slashes. -/
def segments (path : String) : List String := (splitSlashes path.toList).map String.ofList

/-- Whether a path starts at the root. -/
def isAbsolute (path : String) : Bool := path.toList.head? = some '/'

/-- The components of a path. -/
def components (path : String) : List String :=
  (segments path).filter fun segment => segment ≠ "" && segment ≠ "."

/-- The last component, if it is a name. -/
def fileName? (path : String) : Option String :=
  match (components path).getLast? with
  | some name => if name = ".." then none else some name
  | none => none

/-- What follows the last dot of the last component, unless that dot is its first character. -/
def extension? (path : String) : Option String := do
  let name ← fileName? path
  let reversed := name.toList.reverse
  let after := reversed.takeWhile (· ≠ '.')
  match reversed.drop after.length with
  | _ :: _ :: _ => some (String.ofList after.reverse)
  | _ => none

/-- The components before the last one, as a path; a single dot if there are none. -/
def directory (path : String) : String :=
  let before := "/".intercalate (components path).dropLast
  if isAbsolute path then "/" ++ before else if before = "" then "." else before

/-- A path continued by another. One that starts at the root takes the place of what is before
it. -/
def join (path next : String) : String :=
  if isAbsolute next then next
  else
    match path.toList.getLast? with
    | none => next
    | some c => if c = '/' then path ++ next else path ++ "/" ++ next

end VoltageStats.Path
