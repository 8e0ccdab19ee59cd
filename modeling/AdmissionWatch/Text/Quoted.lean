import AdmissionWatch.Text.Blank
import AdmissionWatch.Text.Hex

/-!
# Quoted text

Text in double quotes, as diagnostics show it: quotes and backslashes are escaped, and so is what
would not be seen.
-/

namespace AdmissionWatch.Text

/-- Ranges of characters that are not seen by themselves: controls, format characters, combining
marks and the private ones. Both ends are included. -/
def unseenRanges : List (Nat × Nat) :=
  [(0x00, 0x1f), (0x7f, 0x9f), (0xad, 0xad), (0x300, 0x36f), (0x600, 0x605), (0x61c, 0x61c), (0x6dd, 0x6dd),
   (0x70f, 0x70f), (0x890, 0x891), (0x8e2, 0x8e2), (0x180e, 0x180e), (0x200b, 0x200f), (0x202a, 0x202e),
   (0x2060, 0x2064), (0x2066, 0x206f), (0x20d0, 0x20f0), (0xe000, 0xf8ff), (0xfe00, 0xfe0f), (0xfeff, 0xfeff),
   (0xfff9, 0xfffb), (0xf0000, 0xffffd), (0x100000, 0x10fffd)]

/-- Whether a character is not seen by itself. -/
def isUnseen (c : Char) : Bool :=
  (isBlank c && c != ' ') || unseenRanges.any fun r => r.1 ≤ c.toNat && c.toNat ≤ r.2

/-- The hexadecimal digits of a number, without zeros before them. -/
def hexText (n : Nat) : List Char :=
  match (hexPadded 6 n).dropWhile (· == '0') with
  | [] => ['0']
  | digits => digits

/-- A character between quotes. -/
def quotedChar (c : Char) : List Char :=
  match c with
  | '"' => ['\\', '"']
  | '\\' => ['\\', '\\']
  | '\n' => ['\\', 'n']
  | '\r' => ['\\', 'r']
  | '\t' => ['\\', 't']
  | '\x00' => ['\\', '0']
  | c => if isUnseen c then ['\\', 'u', '\x7b'] ++ hexText c.toNat ++ ['\x7d'] else [c]

/-- A text in quotes. -/
def quoted (s : String) : String :=
  String.ofList ('"' :: s.toList.flatMap quotedChar ++ ['"'])

end AdmissionWatch.Text
