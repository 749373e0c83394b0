import Covenant.Text.Quoted

/-!
# Tokens of conditions

A condition is scanned byte by byte. Blanks separate tokens; a zero byte ends the text early.
A token records its kind, its literal text and the offset of its first byte.
-/

set_option autoImplicit false

namespace Covenant.Condition

inductive TokenKind where
  | illegal
  | endOfText
  | name
  | intLiteral
  | floatLiteral
  | textLiteral
  | andWord
  | orWord
  | notWord
  | inWord
  | isWord
  | ifWord
  | elseWord
  | forWord
  | trueWord
  | falseWord
  | noneWord
  | plus
  | minus
  | star
  | doubleStar
  | slash
  | doubleSlash
  | percent
  | equal
  | notEqual
  | less
  | lessEqual
  | greater
  | greaterEqual
  | openParen
  | closeParen
  | openBracket
  | closeBracket
  | comma
  | dot
  deriving DecidableEq, Repr

def TokenKind.label : TokenKind → String
  | .illegal => "ILLEGAL"
  | .endOfText => "EOF"
  | .name => "IDENT"
  | .intLiteral => "INT"
  | .floatLiteral => "FLOAT"
  | .textLiteral => "STRING"
  | .andWord => "and"
  | .orWord => "or"
  | .notWord => "not"
  | .inWord => "in"
  | .isWord => "is"
  | .ifWord => "if"
  | .elseWord => "else"
  | .forWord => "for"
  | .trueWord => "True"
  | .falseWord => "False"
  | .noneWord => "None"
  | .plus => "+"
  | .minus => "-"
  | .star => "*"
  | .doubleStar => "**"
  | .slash => "/"
  | .doubleSlash => "//"
  | .percent => "%"
  | .equal => "=="
  | .notEqual => "!="
  | .less => "<"
  | .lessEqual => "<="
  | .greater => ">"
  | .greaterEqual => ">="
  | .openParen => "("
  | .closeParen => ")"
  | .openBracket => "["
  | .closeBracket => "]"
  | .comma => ","
  | .dot => "."

structure Token where
  kind : TokenKind
  literal : Text
  offset : Nat
  deriving DecidableEq, Repr

def reservedWords : List (Text × TokenKind) :=
  [("and", .andWord), ("or", .orWord), ("not", .notWord), ("in", .inWord), ("is", .isWord),
    ("if", .ifWord), ("else", .elseWord), ("for", .forWord), ("True", .trueWord),
    ("False", .falseWord), ("None", .noneWord)]

def wordKind (word : Text) : TokenKind := (reservedWords.lookup word).getD .name

def isBlank (byte : UInt8) : Bool := byte == 32 || byte == 9 || byte == 10 || byte == 13

def continuesName (byte : UInt8) : Bool := Text.isLetter byte || Text.isDigit byte

/-!
## Lexemes

A lexeme is read off the front of the text: its kind, its literal, and how many bytes it takes.
-/

structure Lexeme where
  kind : TokenKind
  literal : Text
  length : Nat
  deriving DecidableEq, Repr

/-- The value of a quoted text up to its closing quote, and the bytes it takes. Without a closing
quote there is no value, and the bytes run to the end or to a zero byte. -/
def quotedBody (quote : UInt8) : Text → Option Text × Nat
  | [] => (none, 0)
  | byte :: rest =>
    if byte = 0 then (none, 0)
    else if byte = quote then (some [], 1)
    else if byte = 92 then
      match rest with
      | [] => (none, 1)
      | escaped :: rest =>
        if escaped = 0 then (none, 1)
        else
          let (value, length) := quotedBody quote rest
          let meaning : Text :=
            if escaped = 110 then [10]
            else if escaped = 116 then [9]
            else if escaped = 92 ∨ escaped = 39 ∨ escaped = 34 then [escaped]
            else [92, escaped]
          (value.map (meaning ++ ·), length + 2)
    else
      let (value, length) := quotedBody quote rest
      (value.map (byte :: ·), length + 1)

def leadingDigits (text : Text) : Text := text.takeWhile Text.isDigit

def fractionPart (afterDigits : Bool) : Text → Text
  | 46 :: rest =>
    if afterDigits || !(leadingDigits rest).isEmpty then 46 :: leadingDigits rest else []
  | _ => []

def exponentPart : Text → Text
  | letter :: mark :: rest =>
    if letter = 101 ∨ letter = 69 then
      if Text.isDigit mark then letter :: leadingDigits (mark :: rest)
      else if mark = 43 ∨ mark = 45 then letter :: mark :: leadingDigits rest
      else []
    else []
  | _ => []

def numberLexeme (text : Text) : Lexeme :=
  let whole := leadingDigits text
  let fraction := fractionPart (!whole.isEmpty) (text.drop whole.length)
  let exponent := exponentPart (text.drop (whole.length + fraction.length))
  let literal := whole ++ fraction ++ exponent
  let kind := if fraction.isEmpty && exponent.isEmpty then .intLiteral else .floatLiteral
  ⟨kind, literal, literal.length⟩

def wordLexeme (text : Text) : Lexeme :=
  let word := text.takeWhile continuesName
  ⟨wordKind word, word, word.length⟩

def marks : List (Text × TokenKind) :=
  [([61, 61], .equal), ([33, 61], .notEqual), ([60, 61], .lessEqual), ([62, 61], .greaterEqual),
    ([42, 42], .doubleStar), ([47, 47], .doubleSlash), ([60], .less), ([62], .greater),
    ([42], .star), ([47], .slash), ([43], .plus), ([45], .minus), ([37], .percent),
    ([40], .openParen), ([41], .closeParen), ([91], .openBracket), ([93], .closeBracket),
    ([44], .comma), ([46], .dot)]

def lexeme (byte : UInt8) (rest : Text) : Lexeme :=
  let second := rest.headD 0
  match marks.lookup [byte, second] with
  | some kind => ⟨kind, [byte, second], 2⟩
  | none =>
    if Text.isDigit byte || (byte == 46 && Text.isDigit second) then
      numberLexeme (byte :: rest)
    else
      match marks.lookup [byte] with
      | some kind => ⟨kind, [byte], 1⟩
      | none =>
        if byte = 34 ∨ byte = 39 then
          match quotedBody byte rest with
          | (some value, length) => ⟨.textLiteral, value, length + 1⟩
          | (none, length) => ⟨.illegal, "unterminated string", length + 1⟩
        else if Text.isLetter byte then wordLexeme (byte :: rest)
        else ⟨.illegal, Text.ofCodePoint byte.toNat, 1⟩

/-- The tokens from `offset` on; `skip` bytes of the front belong to a token already read. -/
def scanFrom (offset : Nat) : Nat → Text → List Token
  | _, [] => [⟨.endOfText, [], offset⟩]
  | skip + 1, _ :: rest => scanFrom (offset + 1) skip rest
  | 0, byte :: rest =>
    if byte = 0 then [⟨.endOfText, [], offset⟩]
    else if isBlank byte then scanFrom (offset + 1) 0 rest
    else
      let found := lexeme byte rest
      ⟨found.kind, found.literal, offset⟩ :: scanFrom (offset + 1) (found.length - 1) rest

def scan (text : Text) : List Token := scanFrom 0 0 text

/-!
## Syntax errors
-/

/-- What can be wrong with the text of a condition. -/
inductive SyntaxCause where
  | expected (wanted found : TokenKind)
  | trailing (found : TokenKind)
  | misplaced (found : TokenKind)
  | illegal (literal : Text)
  | invalidNumber (literal : Text)
  | otherCallInPrecondition
  | returnInPrecondition
  | severalImplications
  | tooManyBackticks
  deriving DecidableEq, Repr

def SyntaxCause.message : SyntaxCause → Text
  | .expected wanted found => "expected " ++ wanted.label ++ ", got " ++ found.label
  | .trailing found => "unexpected " ++ found.label ++ " after expression"
  | .misplaced found => "unexpected " ++ found.label ++ " in expression"
  | .illegal literal => "illegal token " ++ Text.quoted literal
  | .invalidNumber literal => "invalid number " ++ Text.quoted literal
  | .otherCallInPrecondition => "preconditions cannot refer to other calls"
  | .returnInPrecondition => "preconditions cannot refer to the return value"
  | .severalImplications => "only one implication per condition"
  | .tooManyBackticks => "at most two backticks may follow a name"

structure SyntaxError where
  source : Text
  offset : Nat
  cause : SyntaxCause
  deriving DecidableEq, Repr

def SyntaxError.message (error : SyntaxError) : Text :=
  "invalid condition " ++ Text.quoted error.source ++ " at offset "
    ++ Text.ofNat error.offset ++ ": " ++ error.cause.message

end Covenant.Condition
