import Stepper.Failure

/-!
Tokens: parentheses, spaces, and the runs of characters between them. A run
right after an opening parenthesis is an operator name, any other an argument.
-/

namespace Stepper

inductive Token.Kind where
  | leftParen
  | rightParen
  | operatorName
  | space
  | argument
  | endOfInput
deriving DecidableEq

structure Token where
  lexeme : String
  kind : Token.Kind
deriving DecidableEq

namespace Token

/-- The kind of a run, which depends on what stands before it. -/
def Kind.ofRun (afterOpen : Bool) : Kind :=
  if afterOpen then .operatorName else .argument

def Kind.ofChar (afterOpen : Bool) (c : Char) : Kind :=
  if c = '(' then .leftParen
  else if c = ')' then .rightParen
  else if c = ' ' ∨ c = '\n' then .space
  else .ofRun afterOpen

/-- The kind of a piece of text after the piece `previous`; no piece is the
end of the input. A piece that is not one character counts as part of a run. -/
def classify (piece previous : Option String) : Kind :=
  match piece.map String.toList with
  | none => .endOfInput
  | some [c] => .ofChar (previous = some "(") c
  | some _ => .ofRun (previous = some "(")

/-- The longest segment of `source` from position `start` on whose characters
are all of `kind` after `previous`. There is none when the end of the input is
sought from the end on: every position there is of that kind. -/
def readRun? (source : String) (start : Nat) (kind : Kind) (previous : Option String) :
    Option String :=
  if kind = .endOfInput ∧ source.length ≤ start then none
  else
    some (String.ofList ((source.toList.drop start).takeWhile fun c =>
      decide (Kind.ofChar (previous = some "(") c = kind)))

/-- As `readRun?`, but a negative position counts from the end of the text. A
run that reaches the end goes on at the beginning: it is kept as far as the end
if the whole text is of its kind, and lost otherwise. -/
def readRunFrom (source : String) (start : Int) (kind : Kind) (previous : Option String) :
    Except Failure (Option String) :=
  match start with
  | .ofNat start => .ok (readRun? source start kind previous)
  | .negSucc back =>
    if source.length ≤ back then .error .beforeText
    else
      let isKind (c : Char) : Bool := decide (Kind.ofChar (previous = some "(") c = kind)
      let tail := source.toList.drop (source.length - (back + 1))
      if tail.all isKind && !source.toList.all isKind then .ok (some "")
      else .ok (some (String.ofList (tail.takeWhile isKind)))

def isRunChar (c : Char) : Bool :=
  c != '(' && c != ')' && c != ' ' && c != '\n'

/-- The token of a run given in reverse, if it is not empty. -/
def ofRun (kind : Kind) (reversed : List Char) : List Token :=
  if reversed.isEmpty then [] else [⟨String.ofList reversed.reverse, kind⟩]

/-- Scan a text. `reversed` is the run read so far, and `kind` its kind. -/
def scan (kind : Kind) (reversed : List Char) : List Char → List Token
  | [] => ofRun kind reversed ++ [⟨"", .endOfInput⟩]
  | c :: rest =>
    if isRunChar c then scan kind (c :: reversed) rest
    else
      ofRun kind reversed ++
        ⟨String.singleton c, .ofChar false c⟩ :: scan (.ofRun (c == '(')) [] rest

/-- The tokens of a text. The last one, of empty lexeme, is the end of the input. -/
def tokenize (source : String) : List Token :=
  scan .argument [] source.toList

end Token

end Stepper
