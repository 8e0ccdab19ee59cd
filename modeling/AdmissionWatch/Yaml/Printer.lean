import AdmissionWatch.Decimal.Text
import AdmissionWatch.Yaml.Value

/-!
# Writing YAML

Values as block style text, as short as it reads back: strings are plain where nothing else could be
meant, several lines make a literal block, and only empty collections stand in brackets. A sequence
that is the value of a mapping stands at the mapping's own column.
-/

namespace AdmissionWatch.Yaml

/-- A text being written. -/
structure Sheet where
  /-- The text, latest character first. -/
  text : List Char := []
  column : Nat := 0
  /-- Whether what is next needs no blank before it. -/
  spaced : Bool := true
  /-- Whether the line holds nothing but indentation and the marks of blocks. -/
  fresh : Bool := true
  deriving Repr, Inhabited

namespace Sheet

/-- Writes a character that does not end the line. -/
def put (s : Sheet) (c : Char) : Sheet :=
  { s with text := c :: s.text, column := s.column + 1 }

/-- Writes a character that ends the line. -/
def putBreak (s : Sheet) (c : Char) : Sheet :=
  { s with text := c :: s.text, column := 0 }

/-- Writes characters of one line. -/
def puts (s : Sheet) (cs : List Char) : Sheet :=
  cs.foldl put s

/-- Goes to a column, on a new line unless this one has nothing past it. -/
def indentTo (s : Sheet) (indent : Nat) : Sheet :=
  let s := if !s.fresh || indent < s.column || (s.column = indent && !s.spaced) then s.putBreak '\n' else s
  { s.puts (List.replicate (indent - s.column) ' ') with spaced := true, fresh := true }

/-- Writes a blank where one is needed. -/
def space (s : Sheet) : Sheet :=
  if s.spaced then s else s.put ' '

/-- Writes the mark of a block, after which another block may begin on the same line. -/
def blockMark (s : Sheet) (mark : Char) : Sheet :=
  { s.space.put mark with spaced := false }

/-- Writes a mark within a line. -/
def mark (s : Sheet) (cs : List Char) : Sheet :=
  { s.puts cs with spaced := false, fresh := false }

end Sheet

/-- Whether a character is written as it is. -/
def isPrintable (c : Char) : Bool :=
  let n := c.toNat
  n == 0x0a || (0x20 ≤ n && n ≤ 0x7e) || (0xa0 ≤ n && n ≤ 0xd7ff)
    || (0xe000 ≤ n && n ≤ 0xfffd && n != 0xfeff) || 0x10000 ≤ n

/-- Whether a character ends a line of the text written. -/
def endsLine (c : Char) : Bool :=
  isBreak c || c = '\r' || c = '\u0085'

/-- Whether a character parts words, as the end of the text does. -/
def parts : Option Char → Bool
  | none => true
  | some c => isBlank c || endsLine c || c = '\x00'

/-- What matters about a text for the choice of its style. -/
structure Shape where
  /-- Whether it would be taken for something else without quotes. -/
  marked : Bool := false
  special : Bool := false
  lines : Bool := false
  spaceBefore : Bool := false
  spaceAfter : Bool := false
  breakBefore : Bool := false
  breakAfter : Bool := false
  breakThenSpace : Bool := false
  spaceThenBreak : Bool := false
  deriving Repr

namespace Shape

/-- Characters that may not open a plain scalar. -/
def openingMarks : List Char :=
  ['#', ',', '[', ']', '\x7b', '\x7d', '&', '*', '!', '|', '>', '\'', '"', '%', '@', '\x60']

/-- Whether a character stands for something else than itself, given its neighbours. -/
def isMark (before : Option Char) (c : Char) (after : Option Char) : Bool :=
  match before with
  | none => openingMarks.contains c || ((c = '?' || c = ':' || c = '-') && parts after)
  | some b => (c = ':' && parts after) || (c = '#' && parts (some b))

/-- Takes the characters of a text into its shape. -/
def scan (before : Option Char) (s : Shape) : List Char → Shape
  | [] => s
  | c :: rest =>
    let after := rest.head?
    let isSpace := c = ' '
    let isEnd := endsLine c
    let s := { s with
      marked := s.marked || isMark before c after
      special := s.special || !isPrintable c
      lines := s.lines || isEnd
      spaceBefore := s.spaceBefore || (isSpace && before.isNone)
      spaceAfter := s.spaceAfter || (isSpace && after.isNone)
      breakBefore := s.breakBefore || (isEnd && before.isNone)
      breakAfter := s.breakAfter || (isEnd && after.isNone)
      breakThenSpace := s.breakThenSpace || (isSpace && before.any endsLine)
      spaceThenBreak := s.spaceThenBreak || (isEnd && before == some ' ') }
    scan (some c) s rest

/-- The shape of a text. -/
def ofText (text : List Char) : Shape :=
  let opens := ['-', '-', '-'].isPrefixOf text || ['.', '.', '.'].isPrefixOf text
  scan none { marked := opens } text

/-- Whether the text may stand without quotes. -/
def plainAllowed (s : Shape) : Bool :=
  !(s.marked || s.special || s.lines || s.spaceBefore || s.spaceAfter || s.breakBefore || s.breakAfter
    || s.breakThenSpace || s.spaceThenBreak)

/-- Whether the text may stand in single quotes. -/
def singleAllowed (s : Shape) : Bool :=
  !(s.special || s.breakThenSpace || s.spaceThenBreak)

/-- Whether the text may be a literal block. -/
def literalAllowed (s : Shape) : Bool :=
  !(s.special || s.spaceAfter || s.spaceThenBreak)

end Shape

/-- The style of a string. A key on the line of its value is no block. -/
def Style.ofText (text : List Char) (isKey : Bool) : Style :=
  let shape := Shape.ofText text
  let wished : Style :=
    if text.contains '\n' then .literal
    else if Plain.meaning text = .text && !Plain.isPaddedDigits text then .plain
    else .singleQuoted
  let wished := if isKey && shape.lines then .doubleQuoted else wished
  let wished := if wished = .plain && !shape.plainAllowed then .singleQuoted else wished
  let wished := if wished = .singleQuoted && !shape.singleAllowed then .doubleQuoted else wished
  if wished = .literal && (text = [] || isKey || !shape.literalAllowed) then .doubleQuoted else wished

/-- What stands for a character in double quotes. -/
def escaped (c : Char) : List Char :=
  let short (d : Char) : List Char := ['\\', d]
  match c with
  | '\x00' => short '0'
  | '\x07' => short 'a'
  | '\x08' => short 'b'
  | '\t' => short 't'
  | '\n' => short 'n'
  | '\x0b' => short 'v'
  | '\x0c' => short 'f'
  | '\r' => short 'r'
  | '\x1b' => short 'e'
  | '"' => short '"'
  | '\\' => short '\\'
  | '\u0085' => short 'N'
  | '\u2028' => short 'L'
  | '\u2029' => short 'P'
  | c =>
    if isPrintable c then [c]
    else
      let n := c.toNat
      let digits (width : Nat) : List Char := (Text.hexPadded width n).map Char.toUpper
      if n ≤ 0xff then short 'x' ++ digits 2
      else if n ≤ 0xffff then short 'u' ++ digits 4
      else short 'U' ++ digits 8

namespace Sheet

/-- Writes the lines of a text at a column; a quote is written twice in quotes. -/
def lines (s : Sheet) (indent : Nat) (quoted : Bool) : (broken : Bool) → List Char → Sheet × Bool
  | broken, [] => (s, broken)
  | broken, c :: rest =>
    if isBreak c then
      let s := if quoted && !broken && c = '\n' then s.putBreak '\n' else s
      let s : Sheet := { s.putBreak c with fresh := true }
      s.lines indent quoted true rest
    else
      let s := if broken then s.indentTo indent else s
      let s := if quoted && c = '\'' then s.put c else s
      let s : Sheet := { s.put c with fresh := false }
      s.lines indent quoted false rest

/-- The marks after the bar of a literal block: how deep it is indented where it begins with a
blank, and which breaks at its end count. -/
def literalMarks (text : List Char) : List Char :=
  let depth := if text.head?.any fun c => c = ' ' || isBreak c then ['2'] else []
  match text.reverse with
  | c :: d :: _ => if !isBreak c then depth ++ ['-'] else if isBreak d then depth ++ ['+'] else depth
  | [c] => if isBreak c then depth ++ ['+'] else depth ++ ['-']
  | [] => depth ++ ['-']

/-- Writes a scalar in a style. -/
def scalar (s : Sheet) (indent : Nat) (text : List Char) : Style → Sheet
  | .plain =>
    if text = [] then s
    else { s.space.puts text with spaced := false, fresh := false }
  | .singleQuoted =>
    let s := s.space.mark ['\'']
    let (s, broken) := s.lines indent true false text
    let s := if broken then s.indentTo indent else s
    s.mark ['\'']
  | .doubleQuoted => (s.space.mark ['"']).puts (text.flatMap escaped) |>.mark ['"']
  | .literal | .folded =>
    let s := s.space.mark ('|' :: literalMarks text)
    let s := { s.putBreak '\n' with spaced := true, fresh := true }
    (s.lines indent false true text).1

/-- The characters of a tag that are written as they are. -/
def isTagCharacter (c : Char) : Bool :=
  isWord c || [';', '/', '?', ':', '@', '&', '=', '+', '$', ',', '.', '~', '*', '\'', '(', ')', '[', ']'].contains c

/-- The characters that stand for a character of a tag. -/
def tagText (c : Char) : List Char :=
  if isTagCharacter c then [c]
  else (String.singleton c).toUTF8.toList.flatMap fun b => '%' :: (Text.hexPadded 2 b.toNat).map Char.toUpper

/-- Writes a tag, if there is one. -/
def tag (s : Sheet) : Option String → Sheet
  | none => s
  | some name => s.space.mark ('!' :: name.toList.flatMap tagText)

end Sheet

namespace Value

/-- The text of a number. -/
def numberText : Number → String
  | .int n => toString n
  | .double bits => Decimal.shortestText Decimal.yamlLayout (.ofBits bits)

/-- The text of a scalar that is not a string. -/
def wordText : Value → List Char
  | null => "null".toList
  | bool b => (if b then "true" else "false").toList
  | num n => (numberText n).toList
  | _ => []

/-- The longest key, in bytes, that stands on the line of its value. -/
def longestKey : Nat := 128

/-- The size of a tag as it is written, its mark included. -/
def tagSize : Option String → Nat
  | none => 0
  | some name => name.utf8ByteSize + 1

/-- Whether a key stands on the line of its value. -/
def isSimpleKey (tag : Option String) : Value → Bool
  | str s => !(s.toList.any endsLine) && tagSize tag + s.utf8ByteSize ≤ longestKey
  | seq items => items.isEmpty && tagSize tag ≤ longestKey
  | map entries => entries.isEmpty && tagSize tag ≤ longestKey
  | tagged name v => isSimpleKey (some name) v
  | v => tagSize tag + v.wordText.length ≤ longestKey

mutual

/-- Writes a value. `indent` is the column of the block around it, -1 outside of all; `inMapping`
and `isKey` tell where it stands. -/
def write (indent : Int) (inMapping isKey : Bool) (tag : Option String) : Value → Sheet → Sheet
  | tagged name v, s => write indent inMapping isKey (some name) v s
  | str text, s =>
    (s.tag tag).scalar (indent.toNat + 2) text.toList (.ofText text.toList isKey)
  | seq items, s =>
    let s := s.tag tag
    match items with
    | [] => s.space.mark ['[', ']']
    | item :: items =>
      let inner := if indent < 0 then 0 else if inMapping && !s.fresh then indent else indent + 2
      writeItems inner items (write inner false false none item ((s.indentTo inner.toNat).blockMark '-'))
  | map entries, s =>
    let s := s.tag tag
    match entries with
    | [] => s.space.mark ['\x7b', '\x7d']
    | (k, v) :: entries =>
      let inner := if indent < 0 then 0 else indent + 2
      let s := s.indentTo inner.toNat
      let s :=
        if k.isSimpleKey none then
          write inner true false none v ((write inner true true none k s).mark [':'])
        else
          let s := (write inner true false none k (s.blockMark '?')).indentTo inner.toNat
          write inner true false none v (s.blockMark ':')
      writeEntries inner entries s
  | word, s => (s.tag tag).scalar 0 word.wordText .plain

/-- Writes the items of a block sequence at a column. -/
def writeItems (column : Int) : List Value → Sheet → Sheet
  | [], s => s
  | item :: items, s =>
    writeItems column items (write column false false none item ((s.indentTo column.toNat).blockMark '-'))

/-- Writes the entries of a block mapping at a column. -/
def writeEntries (column : Int) : List (Value × Value) → Sheet → Sheet
  | [], s => s
  | (k, v) :: entries, s =>
    let s := s.indentTo column.toNat
    let s :=
      if k.isSimpleKey none then write column true false none v ((write column true true none k s).mark [':'])
      else
        let s := (write column true false none k (s.blockMark '?')).indentTo column.toNat
        write column true false none v (s.blockMark ':')
    writeEntries column entries s

end

/-- The text of a value as a document. -/
def text (v : Value) : String :=
  let s := (write (-1) false false none v {}).indentTo 0
  String.ofList s.text.reverse

/-- The text of a string, a number or a truth value. -/
def scalarText? : Value → Option String
  | str s => some s
  | num n => some (numberText n)
  | bool b => some (if b then "true" else "false")
  | _ => none

end Value

end AdmissionWatch.Yaml
