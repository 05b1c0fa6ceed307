import RouteDocs.Decimal.Numeral
import RouteDocs.Yaml.Token

/-!
# RouteDocs.Yaml.Token.Name — anchors, tags and directives

Names of anchors and handles of tags are made of letters, digits, hyphens and underscores; the rest of
a tag is a URI in which other characters are escaped byte by byte.
-/

namespace RouteDocs.Yaml

namespace Cursor

/-- The name of an anchor or alias, after its indicator. -/
def readName (c : Cursor) : Except Fault (String × Cursor) :=
  let (name, c) := c.span isNameChar
  let ended := match c.rest with
    | [] => true
    | a :: _ => atGap c.rest || "?:,]\x7d%@\x60".toList.contains a
  if name.isEmpty || !ended then .error .anchor else .ok (String.ofList name, c)

/-- A character of a URI. -/
def isUriChar (c : Char) : Bool := isNameChar c || ";/?:@&=+$,.!~*'()[]".toList.contains c

/-- Bytes that are escaped one after the other. -/
def readEscapedBytes : (fuel : Nat) → (acc : List UInt8) → Cursor →
    Except Fault (List UInt8 × Cursor)
  | 0, acc, c => .ok (acc.reverse, c)
  | fuel + 1, acc, c =>
    match c.rest with
    | '%' :: a :: b :: r =>
      match Text.hexDigit? a, Text.hexDigit? b with
      | some x, some y =>
        readEscapedBytes fuel ((x * 16 + y).toUInt8 :: acc) ⟨c.mark.steps ['%', a, b], r⟩
      | _, _ => .error .tag
    | '%' :: _ => .error .tag
    | _ => .ok (acc.reverse, c)

/-- A URI, which is not empty. -/
def readUriFrom : (fuel : Nat) → (acc : List Char) → Cursor → Except Fault (List Char × Cursor)
  | 0, acc, c => .ok (acc, c)
  | fuel + 1, acc, c =>
    let (part, c) := c.span isUriChar
    match c.rest with
    | '%' :: _ => do
      let (bytes, c) ← readEscapedBytes (c.rest.length + 1) [] c
      match String.fromUTF8? ⟨bytes.toArray⟩ with
      | some s => readUriFrom fuel (acc ++ part ++ s.toList) c
      | none => .error .tag
    | _ => .ok (acc ++ part, c)

/-- A URI, which is not empty. -/
def readUri (c : Cursor) : Except Fault (String × Cursor) := do
  let (uri, c') ← readUriFrom (c.rest.length + 1) [] c
  if c'.mark.index = c.mark.index then .error .tag else return (String.ofList uri, c')

/-- The handle of a tag: an exclamation mark, or a name between two of them. -/
def readHandle (c : Cursor) : Except Fault (String × Cursor) :=
  match c.rest with
  | '!' :: ' ' :: _ => .ok ("!", c.next)
  | '!' :: _ =>
    let (name, c') := c.next.span isNameChar
    match c'.rest with
    | '!' :: _ => .ok (String.ofList ('!' :: name ++ ['!']), c'.next)
    | _ => .error .tag
  | _ => .error .tag

/-- Whether another exclamation mark follows before the next space or line break. -/
def hasSecondMark : List Char → Bool
  | [] => false
  | a :: r => a == '!' || (a != ' ' && !isBreak a && hasSecondMark r)

/-- A tag, from its exclamation mark on. -/
def readTag (c : Cursor) : Except Fault (TagText × Cursor) := do
  let (t, c) ← match c.rest with
    | _ :: '<' :: _ => do
      let (uri, c) ← c.next.next.readUri
      match c.rest with
      | '>' :: _ => pure ((⟨none, uri⟩ : TagText), c.next)
      | _ => .error .tag
    | _ :: r =>
      if atGap r then pure ((⟨none, "!"⟩ : TagText), c.next)
      else do
        let (handle, c) ← if hasSecondMark r then c.readHandle else pure ("!", c.next)
        let (suffix, c) ← c.readUri
        pure ((⟨some handle, suffix⟩ : TagText), c)
    | [] => .error .tag
  if atSpace c.rest then return (t, c) else .error .tag

/-- A number in digits. -/
def readNumber (c : Cursor) : Except Fault (Nat × Cursor) :=
  let (ds, c) := c.span Text.isAsciiDigit
  if ds.isEmpty then .error .directive
  else if Decimal.maxDigits < ds.length then .error .number
  else .ok (Decimal.digitsNumber ds, c)

/-- The version after the name of its directive. -/
def readVersion (c : Cursor) : Except Fault (Directive × Cursor) := do
  let (major, c) ← c.skipSpaces.readNumber
  match c.rest with
  | '.' :: _ => do
    let (minor, c) ← c.next.readNumber
    if atSpace c.rest then return (.version major minor, c) else .error .directive
  | _ => .error .directive

/-- The handle and the start of a tag after the name of their directive. -/
def readTagRule (c : Cursor) : Except Fault (Directive × Cursor) := do
  let (handle, c) ← c.skipSpaces.readHandle
  match c.rest with
  | ' ' :: _ => do
    let (start, c) ← c.skipSpaces.readUri
    if atSpace c.rest then return (.tag handle start, c) else .error .directive
  | _ => .error .directive

/-- A directive, from its percent sign on, with the end of its line. -/
def readDirective (c : Cursor) : Except Fault (Directive × Cursor) := do
  let (name, c) := c.next.span isNameChar
  if name.isEmpty || !atSpace c.rest then .error .directive
  else
    let (d, c) ← match String.ofList name with
      | "YAML" => c.readVersion
      | "TAG" => c.readTagRule
      | _ => pure (.reserved, c.toLineEnd)
    return (d, ← c.skipHeaderEnd .directive)

end Cursor

end RouteDocs.Yaml
