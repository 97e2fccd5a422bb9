import Stepper.Value.Text

/-!
Outlines: a tree reduced to texts and depths, written as JSON.
-/

namespace Stepper

inductive Outline where
  | leaf (value : String) (depth : Option Int)
  | branch (depth : Int) (children : List Outline)

namespace Outline

mutual
/-- The outline of a tree. It fails only on a literal that is too long an integer. -/
def ofNode : Form → Except Failure Outline
  | .blank => .ok (.leaf "None" none)
  | .literal value depth => do
    let shown ← value.format
    return .leaf shown (some depth)
  | .operator name depth => .ok (.leaf name (some depth))
  | .expression children frame => do
    let outlines ← ofNodes children
    return .branch frame.depth outlines

def ofNodes : List Form → Except Failure (List Outline)
  | [] => .ok []
  | node :: rest => do
    let outline ← ofNode node
    let outlines ← ofNodes rest
    return outline :: outlines
end

/-- Items between two marks: on one line, or each on a line of its own,
`indent` spaces further in than the marks at nesting `level`. -/
def enclose (indent : Option Nat) (level : Nat) (first last : String) (items : List String) :
    String :=
  if items.isEmpty then first ++ last
  else
    match indent with
    | none => first ++ ", ".intercalate items ++ last
    | some width =>
      let line (level : Nat) := "\n" ++ "".pushn ' ' (width * level)
      first ++ line (level + 1) ++ ("," ++ line (level + 1)).intercalate items ++ line level ++ last

def object (indent : Option Nat) (level : Nat) (fields : List String) : String :=
  enclose indent level "\x7b" "\x7d" fields

def depthField (depth : Int) : String :=
  "\"depth\": " ++ integerDigits depth

mutual
/-- An outline as JSON in pure ASCII, at nesting `level`. -/
def write (indent : Option Nat) (level : Nat) : Outline → String
  | .leaf value depth =>
    object indent level
      (("\"value\": " ++ Text.quotedAscii value) :: (depth.map depthField).toList)
  | .branch depth children =>
    object indent level
      [depthField depth,
       "\"children\": " ++
         enclose indent (level + 1) "[" "]" (writeAll indent (level + 2) children)]

def writeAll (indent : Option Nat) (level : Nat) : List Outline → List String
  | [] => []
  | outline :: rest => write indent level outline :: writeAll indent level rest
end

/-- An outline as JSON: on one line, or indented by a number of spaces. -/
def toJson (outline : Outline) (indent : Option Nat) : String :=
  outline.write indent 0

end Outline

end Stepper
