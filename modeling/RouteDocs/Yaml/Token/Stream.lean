import RouteDocs.Yaml.Token.Name
import RouteDocs.Yaml.Token.Scalar

/-!
# RouteDocs.Yaml.Token.Stream — the tokens of a text

`Scanner.step` reads one token and the starts and ends of blocks before it.  A scalar, alias or flow
collection may turn out to be a key only when the colon after it is met: until then its place among the
tokens is remembered, and the key token is put there later.  Such a key has to end on its line, within
1024 characters.
-/

namespace RouteDocs.Yaml

/-- The place of a token that may be a key. -/
structure KeyPlace where
  /-- The number of tokens before it. -/
  tokenCount : Nat
  /-- It is the only thing that can stand here. -/
  needed : Bool
  mark : Mark
deriving Repr, Inhabited

/-- Whether the place of a key is on another line than `m`, or too far before it. -/
def KeyPlace.isStale (k : KeyPlace) (m : Mark) : Bool :=
  k.mark.line != m.line || 1024 < m.index - k.mark.index

/-- The state of reading tokens. -/
structure Scanner where
  cursor : Cursor
  /-- The tokens read, the latest first. -/
  tokens : List Token := []
  flowLevel : Nat := 0
  /-- The column of the innermost block, `-1` outside. -/
  indent : Int := -1
  /-- The columns of the blocks around it. -/
  outer : List Int := []
  keyAllowed : Bool := true
  /-- Places of possible keys by flow level. -/
  keys : List (Nat × KeyPlace) := []
  done : Bool := false
deriving Inhabited

namespace Scanner

/-- The scanner with one more token. -/
def push (s : Scanner) (t : Token) : Scanner := { s with tokens := t :: s.tokens }

/-- A list with an item put after the first `n` ones, counted from the end. -/
def insertAfter {α : Type} (n : Nat) (x : α) (reversed : List α) : List α :=
  let later := reversed.length - n
  reversed.take later ++ x :: reversed.drop later

/-- Drops the places of keys that can no longer be one. -/
def dropStaleKeys (s : Scanner) : Except Fault Scanner :=
  let stale (k : KeyPlace) : Bool := k.isStale s.cursor.mark
  if s.keys.any fun k => stale k.2 && k.2.needed then .error .simpleKey
  else .ok { s with keys := s.keys.filter fun k => !stale k.2 }

/-- Drops the place of a key at the current flow level. -/
def dropKey (s : Scanner) : Except Fault Scanner :=
  match s.keys.lookup s.flowLevel with
  | none => .ok s
  | some k =>
    if k.needed then .error .simpleKey
    else .ok { s with keys := s.keys.filter fun k => k.1 != s.flowLevel }

/-- Remembers that the next token may be a key. -/
def saveKey (s : Scanner) : Except Fault Scanner :=
  if !s.keyAllowed then .ok s
  else do
    let needed := s.flowLevel = 0 && s.indent == s.cursor.mark.column
    let s ← s.dropKey
    return { s with keys := (s.flowLevel, ⟨s.tokens.length, needed, s.cursor.mark⟩) :: s.keys }

/-- Ends the blocks to the right of a column, given the columns of the blocks around. -/
def endBlocks (column : Int) : Int → List Int → List Token → Int × List Int × List Token
  | indent, [], tokens =>
    if column < indent then (-1, [], .blockEnd :: tokens) else (indent, [], tokens)
  | indent, next :: outer, tokens =>
    if column < indent then endBlocks column next outer (.blockEnd :: tokens)
    else (indent, next :: outer, tokens)

/-- Ends the blocks to the right of a column, outside flow collections. -/
def unwind (s : Scanner) (column : Int) : Scanner :=
  if s.flowLevel != 0 then s
  else
    let (indent, outer, tokens) := endBlocks column s.indent s.outer s.tokens
    { s with indent, outer, tokens }

/-- Starts a block at a column to the right of the innermost one. -/
def startBlock (s : Scanner) (column : Nat) (t : Token) (place : Nat) : Scanner :=
  if s.indent < column then
    { s with indent := column, outer := s.indent :: s.outer,
             tokens := insertAfter place t s.tokens }
  else s

/-- Passes over spaces, comments and line breaks; outside flow collections a key may start a line. -/
def skipGap (inFlow : Bool) : (inComment keyAllowed : Bool) → Mark → List Char → Bool × Cursor
  | _, keyAllowed, m, [] => (keyAllowed, ⟨m, []⟩)
  | inComment, keyAllowed, m, a :: r =>
    if isBreak a then skipGap inFlow false (keyAllowed || !inFlow) (m.step a) r
    else if inComment || a == ' ' then skipGap inFlow inComment keyAllowed (m.step a) r
    else if a == '#' then skipGap inFlow true keyAllowed (m.step a) r
    else (keyAllowed, ⟨m, a :: r⟩)

/-- Goes to the next token. -/
def toToken (s : Scanner) : Scanner :=
  let c := s.cursor
  let c := if c.mark.index = 0 && c.rest.head? == some byteOrderMark then c.next else c
  let (keyAllowed, c) := skipGap (s.flowLevel != 0) false s.keyAllowed c.mark c.rest
  { s with keyAllowed, cursor := c }

/-- Passes over `n` characters. -/
def skip (s : Scanner) : Nat → Scanner
  | 0 => s
  | n + 1 => skip { s with cursor := s.cursor.next } n

/-- The end of the text. -/
def readEnd (s : Scanner) : Except Fault Scanner := do
  let s ← (s.unwind (-1)).dropKey
  return { s.push .streamEnd with keyAllowed := false, keys := [], done := true }

/-- A directive. -/
def readDirective (s : Scanner) : Except Fault Scanner := do
  let s ← (s.unwind (-1)).dropKey
  let (d, cursor) ← s.cursor.readDirective
  return { s.push (.directive d) with keyAllowed := false, cursor }

/-- The mark at the start or end of a document. -/
def readDocumentMark (s : Scanner) (t : Token) : Except Fault Scanner := do
  let s ← (s.unwind (-1)).dropKey
  return ({ s with keyAllowed := false }.skip 3).push t

/-- The start of a flow collection. -/
def readFlowStart (s : Scanner) (t : Token) : Except Fault Scanner := do
  let s ← s.saveKey
  return ({ s with flowLevel := s.flowLevel + 1, keyAllowed := true }.skip 1).push t

/-- The end of a flow collection. -/
def readFlowEnd (s : Scanner) (t : Token) : Except Fault Scanner := do
  let s ← s.dropKey
  return ({ s with flowLevel := s.flowLevel - 1, keyAllowed := false }.skip 1).push t

/-- A comma between items. -/
def readFlowEntry (s : Scanner) : Except Fault Scanner := do
  let s ← { s with keyAllowed := true }.dropKey
  return (s.skip 1).push .flowEntry

/-- A hyphen before an item. -/
def readBlockEntry (s : Scanner) : Except Fault Scanner := do
  if s.flowLevel = 0 && !s.keyAllowed then .error .indicator
  let s := if s.flowLevel = 0 then
      s.startBlock s.cursor.mark.column .sequenceStart s.tokens.length
    else s
  let s ← { s with keyAllowed := true }.dropKey
  return (s.skip 1).push .blockEntry

/-- A question mark before a key. -/
def readKey (s : Scanner) : Except Fault Scanner := do
  if s.flowLevel = 0 && !s.keyAllowed then .error .indicator
  let s := if s.flowLevel = 0 then
      s.startBlock s.cursor.mark.column .mappingStart s.tokens.length
    else s
  let s ← { s with keyAllowed := s.flowLevel = 0 }.dropKey
  return (s.skip 1).push .key

/-- A colon before a value: what was read last may become its key. -/
def readValue (s : Scanner) : Except Fault Scanner := do
  match s.keys.lookup s.flowLevel with
  | some k =>
    let s := { s with keys := s.keys.filter (fun e => e.1 != s.flowLevel),
                      tokens := insertAfter k.tokenCount .key s.tokens }
    let s := if s.flowLevel = 0 then s.startBlock k.mark.column .mappingStart k.tokenCount else s
    return ({ s with keyAllowed := false }.skip 1).push .value
  | none =>
    if s.flowLevel = 0 && !s.keyAllowed then .error .indicator
    let s := if s.flowLevel = 0 then
        s.startBlock s.cursor.mark.column .mappingStart s.tokens.length
      else s
    let s ← { s with keyAllowed := s.flowLevel = 0 }.dropKey
    return (s.skip 1).push .value

/-- An alias or anchor. -/
def readName (s : Scanner) (token : String → Token) : Except Fault Scanner := do
  let s ← s.saveKey
  let (name, cursor) ← s.cursor.next.readName
  return { s.push (token name) with keyAllowed := false, cursor }

/-- A tag. -/
def readTag (s : Scanner) : Except Fault Scanner := do
  let s ← s.saveKey
  let (t, cursor) ← s.cursor.readTag
  return { s.push (.tag t) with keyAllowed := false, cursor }

/-- A block scalar. -/
def readBlockScalar (s : Scanner) (folded : Bool) : Except Fault Scanner := do
  let s ← { s with keyAllowed := true }.dropKey
  let (text, cursor) ← s.cursor.readBlock folded s.indent
  return { s.push (.scalar text false) with cursor }

/-- A quoted scalar. -/
def readQuotedScalar (s : Scanner) (double : Bool) : Except Fault Scanner := do
  let s ← s.saveKey
  let (text, cursor) ← s.cursor.readQuoted double
  return { s.push (.scalar text false) with keyAllowed := false, cursor }

/-- A plain scalar. -/
def readPlainScalar (s : Scanner) : Except Fault Scanner := do
  let s ← s.saveKey
  let (text, lineEnded, cursor) := s.cursor.readPlain (s.flowLevel != 0) s.indent
  return { s.push (.scalar text true) with keyAllowed := lineEnded, cursor }

/-- Whether a plain scalar may start with the text ahead. -/
def plainStarts (inFlow : Bool) : List Char → Bool
  | [] => false
  | a :: r =>
    !(atGap (a :: r) || "-?:,[]\x7b\x7d#&*!|>'\"%@\x60".toList.contains a) ||
      (!atGap r && (a == '-' || (!inFlow && (a == '?' || a == ':'))))

/-- Reads the next token. -/
def step (s : Scanner) : Except Fault Scanner := do
  let s ← s.toToken.dropStaleKeys
  let s := s.unwind s.cursor.mark.column
  let c := s.cursor
  let inFlow := s.flowLevel != 0
  match c.rest with
  | [] => s.readEnd
  | a :: r =>
    let lineStart := c.mark.column = 0
    if a == '%' && lineStart then s.readDirective
    else if a == '-' && lineStart && c.atDocumentMark then s.readDocumentMark .documentStart
    else if a == '.' && lineStart && c.atDocumentMark then s.readDocumentMark .documentEnd
    else if a == '[' then s.readFlowStart .flowSequenceStart
    else if a == '\x7b' then s.readFlowStart .flowMappingStart
    else if a == ']' then s.readFlowEnd .flowSequenceEnd
    else if a == '\x7d' then s.readFlowEnd .flowMappingEnd
    else if a == ',' then s.readFlowEntry
    else if a == '-' && atGap r then s.readBlockEntry
    else if a == '?' && (inFlow || atGap r) then s.readKey
    else if a == ':' && (inFlow || atGap r) then s.readValue
    else if a == '*' then s.readName .alias
    else if a == '&' then s.readName .anchor
    else if a == '!' then s.readTag
    else if a == '|' && !inFlow then s.readBlockScalar false
    else if a == '>' && !inFlow then s.readBlockScalar true
    else if a == '\'' then s.readQuotedScalar false
    else if a == '"' then s.readQuotedScalar true
    else if plainStarts inFlow c.rest then s.readPlainScalar
    else .error .indicator

/-- The number of tokens before the first that may still become a key. -/
def settledCount (s : Scanner) : Nat :=
  s.keys.foldl (fun n k => if k.2.isStale s.cursor.mark then n else min n k.2.tokenCount)
    s.tokens.length

/-- Reads tokens until the end of the text or a fault. -/
def run : (fuel : Nat) → Scanner → Scanner × Option Fault
  | 0, s => (s, some .unterminated)
  | fuel + 1, s =>
    match s.step with
    | .error f => (s, some f)
    | .ok s => if s.done then (s, none) else run fuel s

end Scanner

/-- The tokens of a text, and the fault at which reading stopped, if it did.  A token that may become
a key waits for the one after it, so that at a fault only those before it are known.  Each step but the
last reads a character. -/
def tokensOf (text : List Char) : List Token × Option Fault :=
  let (s, fault) := Scanner.run (text.length + 2) { cursor := ⟨{}, text⟩ }
  match fault with
  | none => (s.tokens.reverse, none)
  | some f => (s.tokens.reverse.take s.settledCount, some f)

end RouteDocs.Yaml
