import Stepper.Token
import Stepper.Value.Basic

/-!
Reading trees from text. Literals inside parentheses keep their text; a text
that is one bare argument reads as a literal, a number if it spells one.
-/

namespace Stepper.Node

/-- The trees of a row of tokens, up to the first offending one. `levels` holds
the children read so far of each expression that is still open, in reverse and
innermost first; `height` is the largest number of open expressions since the
current tree began. -/
def readTokens (source : String) :
    List (List Form) → Nat → List Token → List Form × Option Failure
  | [], _, [] => ([], none)
  | _ :: _, _, [] => ([], some (.malformed (.unmatchedOpen source)))
  | levels, height, token :: rest =>
    let leaf (node : Form) :=
      match levels with
      | [] => ([], some (.malformed (.outsideParentheses token.lexeme source)))
      | children :: outer => readTokens source ((node :: children) :: outer) height rest
    match token.kind with
    | .leftParen => readTokens source ([] :: levels) (max height (levels.length + 1)) rest
    | .operatorName => leaf (.operator token.lexeme levels.length)
    | .argument => leaf (.literal (.text token.lexeme) levels.length)
    | .rightParen =>
      match levels with
      | [] => ([], some (.malformed (.unmatchedClose source)))
      -- the tree is complete, and the next one starts afresh
      | [children] =>
        let (trees, failure) := readTokens source [] 0 rest
        (.expression children.reverse { depth := 0, height } :: trees, failure)
      | children :: siblings :: outer =>
        let node : Form := .expression children.reverse { depth := outer.length + 1 }
        readTokens source ((node :: siblings) :: outer) height rest
    | .space => readTokens source levels height rest
    | .endOfInput => readTokens source levels height rest

/-- The text of the only token other than spaces, if that is an argument. -/
def bareArgument? (tokens : List Token) : Option String :=
  match tokens.filter fun token => token.kind != .space && token.kind != .endOfInput with
  | [token] => if token.kind = .argument then some token.lexeme else none
  | _ => none

/-- A text on its own: a number if it spells one, else a symbol. -/
def bareLiteral (text : String) : Except Failure Form := do
  match ← Number.parse text with
  | some number => return .literal (.ofNumber number) 0
  | none => return .literal (.text text) 0

/-- The trees of a text from left to right, and what stopped the reading
before its end, if anything did. -/
def readAll (source : String) : List Form × Option Failure :=
  let tokens := Token.tokenize source
  match bareArgument? tokens with
  | some text =>
    match bareLiteral text with
    | .ok node => ([node], none)
    | .error failure => ([], some failure)
  | none => readTokens source [] 0 tokens

/-- The one tree of a text; the empty text is blank. -/
def read (source : String) : Except Failure Form :=
  if source = "" then .ok .blank
  else
    match readAll source with
    | ([], none) => .error (.malformed (.nothingRead source))
    | ([], some failure) => .error failure
    | ([root], none) => .ok root
    | ([_], some failure) => .error failure
    | (_ :: _ :: _, _) => .error (.malformed (.trailingContent source))

/-- The one tree of a text that may not be empty. -/
def readForm (source : String) : Except Failure Form :=
  if source = "" then .error (.malformed .emptySource) else read source

end Stepper.Node
