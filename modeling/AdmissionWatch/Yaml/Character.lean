/-!
# Characters of YAML

Which characters a YAML text may hold, which of them break lines, and the classes that decide where
a token ends. `normalize` turns the line breaks that mean the same into one, so that from there on a
line ends with `\n` or with one of the two Unicode separators.
-/

namespace AdmissionWatch.Yaml

/-- Whether a text may hold the character. -/
def isAllowed (c : Char) : Bool :=
  let n := c.toNat
  n == 0x09 || n == 0x0a || n == 0x0d || (0x20 ≤ n && n ≤ 0x7e) || n == 0x85 || (0xa0 ≤ n && n ≤ 0xd7ff)
    || (0xe000 ≤ n && n ≤ 0xfffd) || 0x10000 ≤ n

/-- The mark that may open a line. It takes up a column of it. -/
def byteOrderMark : Char := '\ufeff'

/-- Line breaks, `\r` and the next-line character apart. -/
def isBreak (c : Char) : Bool :=
  c = '\n' || c = '\u2028' || c = '\u2029'

/-- Spaces and tabs. -/
def isBlank (c : Char) : Bool :=
  c = ' ' || c = '\t'

/-- Whether a text starts with a blank or a break, or is at its end. -/
def startsBlank : List Char → Bool
  | [] => true
  | c :: _ => isBlank c || isBreak c

/-- Whether a text starts with a break or is at its end. -/
def startsBreak : List Char → Bool
  | [] => true
  | c :: _ => isBreak c

/-- The characters of words: letters, digits, underscore and hyphen. -/
def isWord (c : Char) : Bool :=
  c.isAlphanum || c = '_' || c = '-'

/-- A text with one break for each of `\r\n`, `\r` and the next-line character. -/
def normalize : List Char → List Char
  | [] => []
  | '\r' :: '\n' :: s => '\n' :: normalize s
  | c :: s => (if c = '\r' || c = '\u0085' then '\n' else c) :: normalize s

/-- The normalized text; none when it holds a character that is not allowed. -/
def prepare? (s : List Char) : Option (List Char) :=
  if s.all isAllowed then some (normalize s) else none

/-- Whether a text starts with the mark `---` or `...` alone in its place. -/
def startsDocumentMark : List Char → Bool
  | '-' :: '-' :: '-' :: s => startsBlank s
  | '.' :: '.' :: '.' :: s => startsBlank s
  | _ => false

end AdmissionWatch.Yaml
