import RouteDocs.Text.Word

/-!
# RouteDocs.Text.Base64 — bytes as text

Three bytes are four characters that stand for six bits each.  A text is written in lines; reading
passes over characters that stand for nothing.
-/

namespace RouteDocs.Text

/-- The character of six bits. -/
def sextetChar (n : Nat) : Char :=
  if n < 26 then Char.ofNat (65 + n)
  else if n < 52 then Char.ofNat (71 + n)
  else if n < 62 then Char.ofNat (n - 4)
  else if n = 62 then '+' else '/'

/-- The six bits of a character. -/
def sextet? (c : Char) : Option Nat :=
  if 'A' ≤ c && c ≤ 'Z' then some (c.toNat - 65)
  else if 'a' ≤ c && c ≤ 'z' then some (c.toNat - 71)
  else if isAsciiDigit c then some (c.toNat + 4)
  else if c == '+' then some 62
  else if c == '/' then some 63
  else none

/-- The bytes of whole groups of eight bits among pieces of six. -/
def bytesOfSextets : List Nat → List UInt8
  | [a, b] => [UInt8.ofNat (a * 4 + b / 16)]
  | [a, b, c] => [UInt8.ofNat (a * 4 + b / 16), UInt8.ofNat (b * 16 + c / 4)]
  | [a, b, c, d] =>
    [UInt8.ofNat (a * 4 + b / 16), UInt8.ofNat (b * 16 + c / 4), UInt8.ofNat (c * 64 + d)]
  | _ => []

/-- Reads on after `pending` pieces of a group and `pads` signs of padding. -/
def decodeFrom : (pending : List Nat) → (pads : Nat) → List Char → Option (List UInt8)
  | pending, _, [] => if pending.isEmpty then some [] else none
  | pending, pads, c :: r =>
    if c == '=' then
      if pending.length < 2 then decodeFrom pending pads r
      else if pending.length + pads + 1 < 4 then decodeFrom pending (pads + 1) r
      else some (bytesOfSextets pending)
    else match sextet? c with
      | none => decodeFrom pending pads r
      | some s =>
        if pending.length < 3 then decodeFrom (pending ++ [s]) 0 r
        else (decodeFrom [] 0 r).map (bytesOfSextets (pending ++ [s]) ++ ·)

/-- The bytes that a text stands for.  A text that stops within a group without padding stands for
none. -/
def decodeBase64? (s : List Char) : Option (List UInt8) := decodeFrom [] 0 s

/-- Bytes as text without lines. -/
def encodeGroups : List UInt8 → List Char
  | [] => []
  | [a] => [sextetChar (a.toNat / 4), sextetChar (a.toNat % 4 * 16), '=', '=']
  | [a, b] =>
    [sextetChar (a.toNat / 4), sextetChar (a.toNat % 4 * 16 + b.toNat / 16),
      sextetChar (b.toNat % 16 * 4), '=']
  | a :: b :: c :: r =>
    sextetChar (a.toNat / 4) :: sextetChar (a.toNat % 4 * 16 + b.toNat / 16) ::
      sextetChar (b.toNat % 16 * 4 + c.toNat / 64) :: sextetChar (c.toNat % 64) :: encodeGroups r

/-- The text cut into lines of `width` characters, each with its line feed; `left` characters fit in
the line that is begun. -/
def foldLines (width : Nat) : (left : Nat) → List Char → List Char
  | _, [] => ['\n']
  | 0, c :: r => '\n' :: c :: foldLines width (width - 1) r
  | left + 1, c :: r => c :: foldLines width left r

/-- Bytes as lines of at most 76 characters. -/
def encodeBase64 (bs : List UInt8) : List Char :=
  match encodeGroups bs with
  | [] => []
  | s => foldLines 76 76 s

end RouteDocs.Text
