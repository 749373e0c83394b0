import Covenant.Text
import Covenant.Text.Printable

/-!
# Quoted text

Printable characters stand for themselves, a quote and a backslash are escaped, the common controls
have letter escapes, other controls and bytes that are no UTF-8 have two hexadecimal digits, and
other unprintable characters four or eight.
-/

set_option autoImplicit false

namespace Covenant.Text

def letterEscape? (point : Nat) : Option UInt8 :=
  match point with
  | 7 => some 97
  | 8 => some 98
  | 9 => some 116
  | 10 => some 110
  | 11 => some 118
  | 12 => some 102
  | 13 => some 114
  | 34 => some 34
  | 92 => some 92
  | _ => none

/-- A printable character, or the escape of another one. -/
def escapedPoint (point : Nat) : Text :=
  match letterEscape? point with
  | some letter => [92, letter]
  | none =>
    if isPrintable point then ofCodePoint point
    else if point < 0x80 then "\\x" ++ hex 2 point
    else if point < 0x10000 then "\\u" ++ hex 4 point
    else "\\U" ++ hex 8 point

def quotedCharacter (decoded : Decoded) (first : UInt8) : Text :=
  if decoded.valid then escapedPoint decoded.point else "\\x" ++ hex 2 first.toNat

def quoted (text : Text) : Text :=
  34 :: (decode text).flatMap (fun (decoded, first) => quotedCharacter decoded first) ++ [34]

def quotedPoint (point : Nat) : Text :=
  39 :: (if point = 39 then [92, 39] else if point = 34 then [34] else escapedPoint point) ++ [39]

end Covenant.Text
