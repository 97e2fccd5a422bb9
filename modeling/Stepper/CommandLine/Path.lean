/-!
File paths in their plain form, without empty parts and parts that stay in
place, and what they lead to.
-/

namespace Stepper.CommandLine

/-- The parts of a path between its slashes. -/
def splitSlashes : List Char → List (List Char)
  | [] => [[]]
  | c :: rest =>
    if c = '/' then [] :: splitSlashes rest
    else
      match splitSlashes rest with
      | [] => [[c]]
      | part :: parts => (c :: part) :: parts

/-- The root of a path: exactly two slashes at its start count as two. -/
def pathRoot : List Char → String
  | '/' :: '/' :: '/' :: _ => "/"
  | '/' :: '/' :: _ => "//"
  | '/' :: _ => "/"
  | _ => ""

/-- The parts of a path that lead somewhere. -/
def pathParts (path : String) : List String :=
  let parts := (splitSlashes path.toList).filter fun part => part != [] && part != ['.']
  parts.map String.ofList

/-- A path without empty parts and single dots; the empty path is a dot. -/
def plainPath (path : String) : String :=
  let plain := pathRoot path.toList ++ "/".intercalate (pathParts path)
  if plain = "" then "." else plain

inductive FileRead where
  | contents (text : String)
  | missing
  | directory
  | notDirectory
  | nameTooLong
  | failed (reason : String)

/-- The files below a directory, each by the parts of its path. -/
abbrev Files : Type := List (List String × String)

namespace Files

/-- The most bytes that a part of a path may have. -/
def longestPart : Nat := 255

/-- The most bytes that a path may have. -/
def longestPath : Nat := 4095

def ofList (files : List (String × String)) : Files :=
  files.map fun (path, text) => (pathParts path, text)

/-- Whether a path leads to a directory: some file lies below it. -/
def isDirectory (files : Files) (parts : List String) : Bool :=
  files.any fun file => decide (parts.length < file.1.length) && parts.isPrefixOf file.1

/-- Where a path leads that has left the directory: only upwards. -/
def walkOutside : List String → FileRead
  | [] => .directory
  | part :: rest =>
    if part = ".." then walkOutside rest
    else if longestPart < part.utf8ByteSize then .nameTooLong
    else .missing

/-- Where a path leads from the directory `here` on. -/
def walk (files : Files) (here : List String) : List String → FileRead
  | [] => .directory
  | part :: rest =>
    let there := here ++ [part]
    if part = ".." then
      if here.isEmpty then walkOutside rest else walk files here.dropLast rest
    else if longestPart < part.utf8ByteSize then .nameTooLong
    else if files.isDirectory there then walk files there rest
    else
      match files.lookup there with
      | none => .missing
      | some text => if rest.isEmpty then .contents text else .notDirectory

def read (files : Files) (path : String) : FileRead :=
  if longestPath < path.utf8ByteSize then .nameTooLong
  else if path.startsWith "/" then walkOutside (pathParts path)
  else files.walk [] (pathParts path)

end Files

/-- The text of a file with every line end as a line feed. -/
def unixLines : List Char → List Char
  | '\r' :: '\n' :: rest => '\n' :: unixLines rest
  | '\r' :: rest => '\n' :: unixLines rest
  | c :: rest => c :: unixLines rest
  | [] => []

end Stepper.CommandLine
