import Covenant.Yaml.Token

/-!
# Scanning

The scanner keeps the characters that are left, the indentation of the open block collections, and
for each open flow collection the place where a key may have begun.
-/

set_option autoImplicit false

namespace Covenant.Yaml

structure Cursor where
  rest : List Nat
  mark : Mark

namespace Cursor

def nextBy (count : Nat) (cursor : Cursor) : Cursor :=
  let mark := cursor.mark
  ⟨cursor.rest.drop count, ⟨mark.index + count, mark.line, mark.column + count⟩⟩

def next (cursor : Cursor) : Cursor := cursor.nextBy 1

def nextLine (cursor : Cursor) : List Nat × Cursor :=
  let mark := cursor.mark
  match cursor.rest with
  | 13 :: 10 :: rest => ([10], ⟨rest, ⟨mark.index + 2, mark.line + 1, 0⟩⟩)
  | point :: rest =>
    (if point == 0x2028 || point == 0x2029 then [point] else [10],
      ⟨rest, ⟨mark.index + 1, mark.line + 1, 0⟩⟩)
  | [] => ([], cursor)

def atDocumentMark (cursor : Cursor) : Bool :=
  cursor.mark.column == 0 && isDocumentMark cursor.rest

def skipBlanks (cursor : Cursor) : Cursor :=
  cursor.nextBy (cursor.rest.takeWhile isBlank).length

def skipLine (cursor : Cursor) : Cursor :=
  cursor.nextBy (cursor.rest.takeWhile (!isBreak ·)).length

def skipSpace : Nat → Cursor → Cursor
  | 0, cursor => cursor
  | fuel + 1, cursor =>
    match cursor.rest with
    | point :: _ =>
      if isBlank point then skipSpace fuel cursor.next
      else if isBreak point then skipSpace fuel cursor.nextLine.2
      else cursor
    | [] => cursor

/-- Moves over comments with nothing but space between them. The line break behind the last one
stays. -/
def skipComments : Nat → Cursor → Cursor
  | 0, cursor => cursor
  | fuel + 1, cursor =>
    let ended := cursor.skipLine
    let beyond := skipSpace ended.rest.length ended
    if beyond.rest.head? == some 35 then skipComments fuel beyond else ended

end Cursor

/-!
## Scalars
-/

inductive Gap where
  | blanks (points : List Nat)
  | breaks (first : List Nat) (others : List Nat)

/-- What a gap stands for: a single line break is a space, further ones stay. -/
def Gap.points : Gap → List Nat
  | .blanks points => points
  | .breaks [10] [] => [32]
  | .breaks [10] others => others
  | .breaks first others => first ++ others

/-- Reads the space up to the next word. In a plain scalar, a tab that indents a line less than the
scalar is refused. -/
def readGap (tabLimit : Nat) : Nat → Gap → Cursor → Option (Gap × Cursor)
  | 0, gap, cursor => some (gap, cursor)
  | fuel + 1, gap, cursor =>
    match cursor.rest, gap with
    | point :: _, .blanks points =>
      if isBlank point then readGap tabLimit fuel (.blanks (points ++ [point])) cursor.next
      else if isBreak point then
        let (first, beyond) := cursor.nextLine
        readGap tabLimit fuel (.breaks first []) beyond
      else some (gap, cursor)
    | point :: _, .breaks first others =>
      if isBlank point then
        if point == 9 && cursor.mark.column < tabLimit then none
        else readGap tabLimit fuel gap cursor.next
      else if isBreak point then
        let (another, beyond) := cursor.nextLine
        readGap tabLimit fuel (.breaks first (others ++ another)) beyond
      else some (gap, cursor)
    | [], _ => some (gap, cursor)

def endsPlain (inFlow : Bool) : List Nat → Bool
  | [] => true
  | point :: rest =>
    isBlank point || isBreak point || (point == 58 && endsWord rest)
      || (inFlow && (point == 44 || (point == 63 && endsAtSpace rest) || point == 91
        || point == 93 || point == 123 || point == 125))

def readWord (inFlow : Bool) : Nat → Cursor → List Nat × Cursor
  | 0, cursor => ([], cursor)
  | fuel + 1, cursor =>
    if endsPlain inFlow cursor.rest then ([], cursor)
    else
      let (word, beyond) := readWord inFlow fuel cursor.next
      (cursor.rest.take 1 ++ word, beyond)

/-- Reads a plain scalar. `gap` is the space in front. The flag says whether a line ended behind
the scalar. -/
def readPlain (inFlow : Bool) (indent : Nat) :
    Nat → Gap → Cursor → Option (List Nat × Bool × Cursor)
  | 0, _, cursor => some ([], false, cursor)
  | fuel + 1, gap, cursor =>
    let lineEnded := match gap with
      | .blanks _ => false
      | .breaks _ _ => true
    if cursor.atDocumentMark || cursor.rest.head? == some 35
        || (lineEnded && !inFlow && cursor.mark.column < indent) then
      some ([], lineEnded, cursor)
    else
      let (word, ended) := readWord inFlow cursor.rest.length cursor
      if word.isEmpty then some ([], lineEnded, cursor)
      else do
        let (space, beyond) ← readGap indent ended.rest.length (.blanks []) ended
        if beyond.mark.index == ended.mark.index then return (gap.points ++ word, false, beyond)
        let (others, endsLine, finish) ← readPlain inFlow indent fuel space beyond
        return (gap.points ++ word ++ others, endsLine, finish)

def hexPoint? (digits : List Nat) : Option Nat :=
  digits.foldlM (fun value point =>
    if 48 ≤ point && point ≤ 57 then some (value * 16 + (point - 48))
    else if 65 ≤ point && point ≤ 70 then some (value * 16 + (point - 55))
    else if 97 ≤ point && point ≤ 102 then some (value * 16 + (point - 87))
    else none) 0

def readHexEscape (count : Nat) (cursor : Cursor) : Option (Nat × Cursor) := do
  let digits := cursor.rest.take count
  if digits.length < count then none
  let point ← hexPoint? digits
  if (0xD800 ≤ point && point ≤ 0xDFFF) || 0x10FFFF < point then none
  return (point, cursor.nextBy count)

/-- Letters behind a backslash, and the characters that they stand for. -/
def escapes : List (Nat × Nat) :=
  [(48, 0), (97, 7), (98, 8), (116, 9), (110, 10), (118, 11), (102, 12), (114, 13), (101, 27),
    (34, 34), (92, 92), (78, 0x85), (95, 0xA0), (76, 0x2028), (80, 0x2029)]

/-- What else may stand behind a backslash stands for itself. -/
def escaped? (letter : Nat) : Option Nat :=
  if letter == 9 || letter == 32 || letter == 39 then some letter else escapes.lookup letter

def readEscape (cursor : Cursor) : Option (Nat × Cursor) :=
  match cursor.rest with
  | 120 :: _ => readHexEscape 2 cursor.next
  | 117 :: _ => readHexEscape 4 cursor.next
  | 85 :: _ => readHexEscape 8 cursor.next
  | letter :: _ => (escaped? letter).map (fun point => (point, cursor.next))
  | [] => none

def readQuoted (single : Bool) : Nat → Cursor → Option (List Nat × Cursor)
  | 0, _ => none
  | fuel + 1, cursor =>
    if cursor.atDocumentMark then none
    else
      let continueWith (points : List Nat) (beyond : Cursor) : Option (List Nat × Cursor) := do
        let (others, finish) ← readQuoted single fuel beyond
        return (points ++ others, finish)
      match cursor.rest with
      | [] => none
      | point :: rest =>
        if single && point == 39 then
          if rest.head? == some 39 then continueWith [39] cursor.next.next
          else some ([], cursor.next)
        else if !single && point == 34 then some ([], cursor.next)
        else if !single && point == 92 then
          if rest.head?.any isBreak then do
            let (gap, beyond) ←
              readGap 0 rest.length (.breaks [] []) cursor.next.nextLine.2
            continueWith gap.points beyond
          else do
            let (value, beyond) ← readEscape cursor.next
            continueWith [value] beyond
        else if isBlank point || isBreak point then do
          let (gap, beyond) ← readGap 0 cursor.rest.length (.blanks []) cursor
          continueWith gap.points beyond
        else continueWith [point] cursor.next

/-!
## Tokens
-/

structure PossibleKey where
  /-- Whether a key must stand here, since the line continues a block mapping. -/
  required : Bool
  position : Nat
  mark : Mark

structure Scanner where
  cursor : Cursor
  tokens : List Token
  indent : Int
  indents : List Int
  keyAllowed : Bool
  /-- The possible keys: of the block context last, of open flow collections in front. -/
  keys : List (Option PossibleKey)

namespace Scanner

def start (points : List Nat) : Scanner :=
  ⟨⟨points, ⟨0, 0, 0⟩⟩, [], -1, [], true, [none]⟩

def inFlow (scanner : Scanner) : Bool := 1 < scanner.keys.length

def column (scanner : Scanner) : Nat := scanner.cursor.mark.column

def push (scanner : Scanner) (kind : TokenKind) : Scanner :=
  { scanner with tokens := scanner.tokens ++ [⟨kind, scanner.cursor.mark.line + 1⟩] }

def insert (scanner : Scanner) (position : Nat) (token : Token) : Scanner :=
  { scanner with
    tokens := scanner.tokens.take position ++ token :: scanner.tokens.drop position }

def advance (scanner : Scanner) (count : Nat) : Scanner :=
  { scanner with cursor := scanner.cursor.nextBy count }

def dropKey (scanner : Scanner) : Option Scanner :=
  match scanner.keys with
  | some key :: others => if key.required then none else some { scanner with keys := none :: others }
  | _ => some scanner

def saveKey (scanner : Scanner) : Option Scanner :=
  if scanner.keyAllowed then do
    let dropped ← scanner.dropKey
    let key : PossibleKey :=
      { required := !scanner.inFlow && scanner.indent == scanner.column
        position := scanner.tokens.length
        mark := scanner.cursor.mark }
    return { dropped with keys := some key :: dropped.keys.tail }
  else some scanner

def openBlock (scanner : Scanner) (column : Nat) (position : Nat) (token : Token) : Scanner :=
  if !scanner.inFlow && scanner.indent < column then
    { scanner.insert position token with
      indent := column, indents := scanner.indent :: scanner.indents }
  else scanner

def closeBlocks (column : Int) : List Int → Scanner → Scanner
  | [], scanner => scanner
  | outer :: others, scanner =>
    if column < scanner.indent then
      closeBlocks column others { scanner.push .blockEnd with indent := outer, indents := others }
    else scanner

def unroll (scanner : Scanner) (column : Int) : Scanner :=
  if scanner.inFlow then scanner else closeBlocks column scanner.indents scanner

/-- Moves over space and comments to the next token. In block context, a line may start with a
key. -/
def toNextToken : Nat → Scanner → Scanner
  | 0, scanner => scanner
  | fuel + 1, scanner =>
    let cursor := scanner.cursor
    match cursor.rest with
    | [] => scanner
    | point :: _ =>
      if (point == 0xFEFF && cursor.mark.column == 0) || point == 32
          || (point == 9 && (scanner.inFlow || !scanner.keyAllowed)) then
        toNextToken fuel { scanner with cursor := cursor.next }
      else if point == 35 then
        toNextToken fuel { scanner with cursor := cursor.skipComments cursor.rest.length }
      else if isBreak point then
        toNextToken fuel { scanner with
          cursor := cursor.nextLine.2
          keyAllowed := scanner.keyAllowed || !scanner.inFlow }
      else scanner

def skipLineComment (scanner : Scanner) : Scanner :=
  let beyond := scanner.cursor.skipBlanks
  if beyond.rest.head? == some 35 then { scanner with cursor := beyond.skipLine } else scanner

/-- Whether a key that may have begun earlier is still possible: on the same line, at most 1024
characters back. -/
def keyIsNear (scanner : Scanner) (key : PossibleKey) : Bool :=
  key.mark.line == scanner.cursor.mark.line
    && scanner.cursor.mark.index ≤ key.mark.index + 1024

def fetchLoneValue (scanner : Scanner) : Option Scanner :=
  if scanner.inFlow then some ({ scanner with keyAllowed := false }.push .value |>.advance 1)
  else if scanner.keyAllowed then
    let opened := scanner.openBlock scanner.column scanner.tokens.length
      ⟨.blockMappingStart, scanner.cursor.mark.line + 1⟩
    some (opened.push .value |>.advance 1)
  else none

def fetchValue (scanner : Scanner) : Option Scanner :=
  match scanner.keys with
  | some key :: others =>
    let settled := { scanner with keys := none :: others }
    if scanner.keyIsNear key then
      let keyed := settled.insert key.position ⟨.key, key.mark.line + 1⟩
      let opened := keyed.openBlock key.mark.column key.position
        ⟨.blockMappingStart, key.mark.line + 1⟩
      some ({ opened with keyAllowed := false }.push .value |>.advance 1)
    else if key.required then none
    else settled.fetchLoneValue
  | _ => scanner.fetchLoneValue

/-- Opens a block where one may begin, unless it is open. -/
def beginBlock (scanner : Scanner) (kind : TokenKind) : Option Scanner :=
  if !scanner.inFlow && !scanner.keyAllowed then none
  else (scanner.openBlock scanner.column scanner.tokens.length
    ⟨kind, scanner.cursor.mark.line + 1⟩).dropKey

def fetchBlockEntry (scanner : Scanner) : Option Scanner := do
  let begun ← scanner.beginBlock .blockSequenceStart
  return { begun with keyAllowed := true }.push .blockEntry |>.advance 1

def fetchKey (scanner : Scanner) : Option Scanner := do
  let begun ← scanner.beginBlock .blockMappingStart
  return { begun with keyAllowed := !scanner.inFlow }.push .key |>.advance 1

def fetchPlain (scanner : Scanner) : Option Scanner := do
  let saved ← scanner.saveKey
  let (points, lineEnded, beyond) ← readPlain scanner.inFlow (scanner.indent + 1).toNat
    scanner.cursor.rest.length (.blanks []) scanner.cursor
  let pushed := saved.push (.scalar .plain (Text.ofCodePoints points))
  let finished := { pushed with cursor := beyond, keyAllowed := lineEnded }
  return if lineEnded then finished else finished.skipLineComment

def fetchQuoted (scanner : Scanner) (single : Bool) : Option Scanner := do
  let saved ← scanner.saveKey
  let (points, beyond) ← readQuoted single scanner.cursor.rest.length scanner.cursor.next
  let style := if single then ScalarStyle.singleQuoted else .doubleQuoted
  let pushed := saved.push (.scalar style (Text.ofCodePoints points))
  return { pushed with cursor := beyond, keyAllowed := false }.skipLineComment

def fetchFlowStart (scanner : Scanner) (kind : TokenKind) : Option Scanner := do
  let saved ← scanner.saveKey
  return ({ saved with keyAllowed := true, keys := none :: saved.keys }.push kind |>.advance 1
    |>.skipLineComment)

def fetchFlowEnd (scanner : Scanner) (kind : TokenKind) : Option Scanner := do
  let dropped ← scanner.dropKey
  let keys := if scanner.inFlow then dropped.keys.tail else dropped.keys
  return ({ dropped with keyAllowed := false, keys := keys }.push kind |>.advance 1
    |>.skipLineComment)

def fetchDocumentMark (scanner : Scanner) (kind : TokenKind) : Option Scanner := do
  let dropped ← (scanner.unroll (-1)).dropKey
  return { dropped with keyAllowed := false }.push kind |>.advance 3

def startsPlain (inFlow : Bool) (point : Nat) (rest : List Nat) : Bool :=
  if point == 45 then !(rest.head?.any isBlank)
  else if point == 63 || point == 58 then !inFlow && !endsWord rest
  else !("[]\x7b\x7d,#&*!|>'\"%@`".toList.any (fun letter => letter.toNat == point))
    && !isBlank point && !isBreak point

def fetch (scanner : Scanner) : Option Scanner :=
  let moved := toNextToken scanner.cursor.rest.length scanner
  let scanner := moved.unroll moved.column
  let cursor := scanner.cursor
  match cursor.rest with
  | [] => do
      let dropped ← (scanner.unroll (-1)).dropKey
      return { dropped with keyAllowed := false }.push .streamEnd
  | point :: rest =>
    if cursor.atDocumentMark then
      scanner.fetchDocumentMark (if point == 45 then .documentStart else .documentEnd)
    else if point == 91 then scanner.fetchFlowStart .flowSequenceStart
    else if point == 123 then scanner.fetchFlowStart .flowMappingStart
    else if point == 93 then scanner.fetchFlowEnd .flowSequenceEnd
    else if point == 125 then scanner.fetchFlowEnd .flowMappingEnd
    else if point == 44 then do
      let dropped ← scanner.dropKey
      return ({ dropped with keyAllowed := true }.push .flowEntry |>.advance 1 |>.skipLineComment)
    else if point == 45 && endsWord rest then scanner.fetchBlockEntry
    else if point == 63 && (scanner.inFlow || endsWord rest) then
      scanner.fetchKey.map skipLineComment
    else if point == 58 && (scanner.inFlow || endsWord rest) then
      scanner.fetchValue.map skipLineComment
    else if point == 39 then scanner.fetchQuoted true
    else if point == 34 then scanner.fetchQuoted false
    else if startsPlain scanner.inFlow point rest then scanner.fetchPlain
    else none

def run : Nat → Scanner → List Token × Bool
  | 0, scanner => (scanner.tokens, false)
  | fuel + 1, scanner =>
    match scanner.fetch with
    | none => (scanner.tokens, false)
    | some next =>
      if next.tokens.getLast?.any (fun token => token.kind == .streamEnd) then (next.tokens, true)
      else run fuel next

end Scanner

def scan (source : Text) : List Token × Bool :=
  let points := Text.codePoints source
  if !Text.isValid source || !points.all isAllowed then ([], false)
  else
    let body := if points.head? == some 0xFEFF then points.tail else points
    Scanner.run (body.length + 1) (.start body)

end Covenant.Yaml
