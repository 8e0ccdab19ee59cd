import AdmissionWatch.Text.Hex
import AdmissionWatch.Yaml.Character

/-!
# Scalars of YAML

The scalars: plain, quoted and block. Each reader takes the text from the scalar on and answers its
value, what follows it, and the position there. Line breaks within a scalar are folded: one break is
a space, and of several all but the first are kept.
-/

namespace AdmissionWatch.Yaml

/-- A position: characters since the start of the text, lines, and characters since the start of the
line. -/
structure Position where
  index : Nat
  line : Nat
  column : Nat
  deriving DecidableEq, Repr, Inhabited

namespace Position

/-- The position after one more character of the line. -/
def next (p : Position) : Position :=
  { p with index := p.index + 1, column := p.column + 1 }

/-- The position after so many more characters of the line. -/
def advance (p : Position) (n : Nat) : Position :=
  { p with index := p.index + n, column := p.column + n }

/-- The position after a break. -/
def nextLine (p : Position) : Position :=
  { index := p.index + 1, line := p.line + 1, column := 0 }

end Position

/-- How a scalar is written. -/
inductive Style where
  | plain
  | singleQuoted
  | doubleQuoted
  | literal
  | folded
  deriving DecidableEq, Repr, Inhabited

/-- A scalar on the way: its characters so far, latest first, and the blanks and breaks that have
been seen but not yet taken into it. -/
structure Folding where
  text : List Char := []
  blanks : List Char := []
  /-- Whether a break has been seen, so that blanks do not count. -/
  broken : Bool := false
  /-- The first break, if it was a character of its own. -/
  first : Option Char := none
  /-- The breaks after the first, latest first. -/
  more : List Char := []
  deriving Repr, Inhabited

namespace Folding

/-- Takes a blank. -/
def blank (f : Folding) (c : Char) : Folding :=
  if f.broken then f else { f with blanks := c :: f.blanks }

/-- Takes a break. -/
def lineBreak (f : Folding) (c : Char) : Folding :=
  if f.broken then { f with more := c :: f.more } else { f with blanks := [], broken := true, first := some c }

/-- Takes what has been seen into the text. -/
def join (f : Folding) : Folding :=
  let gap :=
    if f.broken then
      match f.first with
      | some '\n' => if f.more = [] then [' '] else f.more
      | some c => f.more ++ [c]
      | none => f.more
    else f.blanks
  { text := gap ++ f.text }

/-- Takes a character of the scalar itself. -/
def push (f : Folding) (c : Char) : Folding :=
  let f := f.join
  { f with text := c :: f.text }

/-- The text. -/
def value (f : Folding) : List Char :=
  f.text.reverse

end Folding

/-- The characters that end a plain scalar within brackets. -/
def isFlowMark (c : Char) : Bool :=
  c = ',' || c = '[' || c = ']' || c = '\x7b' || c = '\x7d'

/-- Reads a plain scalar. `gap` tells that blanks or breaks have been read since its last character.
Also answered: whether it ended after a break. -/
def plainScalar? (inFlow : Bool) (indent : Nat) :
    List Char → Position → Folding → Bool → Option (List Char × List Char × Position × Bool)
  | [], p, f, _ => some (f.value, [], p, f.broken)
  | c :: s, p, f, gap =>
    if isBlank c then
      if f.broken && p.column < indent && c = '\t' then none else plainScalar? inFlow indent s p.next (f.blank c) true
    else if isBreak c then plainScalar? inFlow indent s p.nextLine (f.lineBreak c) true
    else if gap && ((!inFlow && p.column < indent) || (p.column = 0 && startsDocumentMark (c :: s)) || c = '#') then
      some (f.value, c :: s, p, f.broken)
    else if inFlow && c = ':' && (match s with
        | d :: _ => isFlowMark d || d = '?'
        | [] => false) then none
    else if (c = ':' && startsBlank s) || (inFlow && isFlowMark c) then some (f.value, c :: s, p, f.broken)
    else plainScalar? inFlow indent s p.next (f.push c) false

/-- What a backslash and the characters after it denote, and how many characters that takes after
the backslash. -/
def escape? : List Char → Option (Char × Nat)
  | [] => none
  | c :: s =>
    match c with
    | '0' => some ('\x00', 1)
    | 'a' => some ('\x07', 1)
    | 'b' => some ('\x08', 1)
    | 't' | '\t' => some ('\t', 1)
    | 'n' => some ('\n', 1)
    | 'v' => some ('\x0b', 1)
    | 'f' => some ('\x0c', 1)
    | 'r' => some ('\r', 1)
    | 'e' => some ('\x1b', 1)
    | ' ' => some (' ', 1)
    | '"' => some ('"', 1)
    | '/' => some ('/', 1)
    | '\\' => some ('\\', 1)
    | 'N' => some ('\u0085', 1)
    | '_' => some ('\u00a0', 1)
    | 'L' => some ('\u2028', 1)
    | 'P' => some ('\u2029', 1)
    | 'x' => codePoint 2 s
    | 'u' => codePoint 4 s
    | 'U' => codePoint 8 s
    | _ => none
where
  /-- The character whose code point is written by the next `width` digits. -/
  codePoint (width : Nat) (s : List Char) : Option (Char × Nat) :=
    let digits := s.take width
    if digits.length = width then
      match Text.hexNumber? digits with
      | some n =>
        if (0xd800 ≤ n && n ≤ 0xdfff) || 0x10ffff < n then none else some (Char.ofNat n, width + 1)
      | none => none
    else none

/-- What the reader of a quoted scalar does with the next character. -/
inductive Skip where
  /-- It is read. -/
  | none
  /-- It and the next so many are part of an escape. -/
  | escape (more : Nat)
  /-- It is an escaped break. -/
  | break
  deriving DecidableEq, Repr

/-- Reads a quoted scalar after its opening quote. -/
def quotedScalar? (single : Bool) :
    List Char → Position → Folding → Skip → Option (List Char × List Char × Position)
  | [], _, _, _ => none
  | _ :: s, p, f, .escape 0 => quotedScalar? single s p.next f .none
  | _ :: s, p, f, .escape (n + 1) => quotedScalar? single s p.next f (.escape n)
  | _ :: s, p, f, .break => quotedScalar? single s p.nextLine f .none
  | c :: s, p, f, .none =>
    if isBlank c then quotedScalar? single s p.next (f.blank c) .none
    else if isBreak c then quotedScalar? single s p.nextLine (f.lineBreak c) .none
    else if p.column = 0 && startsDocumentMark (c :: s) then none
    else if single then
      if c = '\'' then
        match s with
        | '\'' :: _ => quotedScalar? single s p.next (f.push '\'') (.escape 0)
        | _ => some (f.join.value, s, p.next)
      else quotedScalar? single s p.next (f.push c) .none
    else if c = '"' then some (f.join.value, s, p.next)
    else if c = '\\' then
      match s with
      | d :: _ =>
        if isBreak d then quotedScalar? single s p.next { f.join with broken := true } .break
        else
          match escape? s with
          | some (e, n) => quotedScalar? single s p.next (f.push e) (.escape (n - 1))
          | none => none
      | [] => none
    else quotedScalar? single s p.next (f.push c) .none

/-- Which breaks at its end a block scalar keeps. -/
inductive Chomping where
  | strip
  | clip
  | keep
  deriving DecidableEq, Repr

/-- The header of a block scalar, after its mark: chomping and indentation, in either order. -/
def blockHeader? (s : List Char) : Option (Chomping × Nat × List Char) :=
  let chomping? : List Char → Option (Chomping × List Char)
    | '+' :: s => some (.keep, s)
    | '-' :: s => some (.strip, s)
    | _ => none
  let indentation? : List Char → Option (Nat × List Char)
    | c :: s => if c.isDigit then some (c.toNat - 48, s) else none
    | [] => none
  let (chomping, indentation, rest) :=
    match chomping? s with
    | some (chomping, s) =>
      match indentation? s with
      | some (n, s) => (chomping, some n, s)
      | none => (chomping, none, s)
    | none =>
      match indentation? s with
      | some (n, s) =>
        match chomping? s with
        | some (chomping, s) => (chomping, some n, s)
        | none => (.clip, some n, s)
      | none => (.clip, none, s)
  if indentation = some 0 then none else some (chomping, indentation.getD 0, rest)

/-- Skips blanks. -/
def skipBlanks : List Char → Position → List Char × Position
  | [], p => ([], p)
  | c :: s, p => if isBlank c then skipBlanks s p.next else (c :: s, p)

/-- Skips a comment, up to the end of the line. -/
def skipComment : List Char → Position → List Char × Position
  | [], p => ([], p)
  | c :: s, p => if isBreak c then (c :: s, p) else skipComment s p.next

/-- Skips blanks and a comment at the end of a line, and the break there. -/
def endOfLine? (s : List Char) (p : Position) : Option (List Char × Position) :=
  let (s, p) := skipBlanks s p
  let (s, p) :=
    match s with
    | '#' :: _ => skipComment s p
    | _ => (s, p)
  match s with
  | [] => some ([], p)
  | c :: s => if isBreak c then some (s, p.nextLine) else none

/-- Skips the indentation of the lines of a block scalar and the lines without text, whose
breaks are answered. An indentation of zero is not known yet. Also answered: the furthest column
reached. -/
def blockBreaks? (indent : Nat) :
    List Char → Position → Nat → List Char → Option (List Char × Position × Nat × List Char)
  | [], p, furthest, breaks => some ([], p, max furthest p.column, breaks)
  | c :: s, p, furthest, breaks =>
    let inIndent := indent = 0 || p.column < indent
    if inIndent && c = ' ' then blockBreaks? indent s p.next furthest breaks
    else if inIndent && c = '\t' then none
    else if isBreak c then blockBreaks? indent s p.nextLine (max furthest p.column) (breaks ++ [c])
    else some (c :: s, p, max furthest p.column, breaks)

/-- The rest of the line. -/
def restOfLine : List Char → Position → List Char × List Char × Position
  | [], p => ([], [], p)
  | c :: s, p =>
    if isBreak c then ([], c :: s, p)
    else
      let (line, s, p) := restOfLine s p.next
      (c :: line, s, p)

/-- Reads the lines of a block scalar. `text` is what has been read, `first` the break before the
current line, `more` the breaks of the empty lines after it, and `blankBefore` tells whether the
line before began with a blank. -/
def blockLines? (literal : Bool) (chomping : Chomping) (indent : Nat) :
    Nat → List Char → Position → (text first more : List Char) → (blankBefore : Bool) →
    Option (List Char × List Char × Position)
  | 0, _, _, _, _, _, _ => none
  | fuel + 1, s, p, text, first, more, blankBefore =>
    match s with
    | c :: _ =>
      if p.column = indent then
        let blankNow := isBlank c
        let gap :=
          if !literal && first = ['\n'] && !blankBefore && !blankNow then (if more = [] then [' '] else more)
          else first ++ more
        let (line, s, p) := restOfLine s p
        let (first, s, p) :=
          match s with
          | b :: s => ([b], s, p.nextLine)
          | [] => ([], [], p)
        match blockBreaks? indent s p 0 [] with
        | some (s, p, _, more) =>
          blockLines? literal chomping indent fuel s p (text ++ gap ++ line) first more blankNow
        | none => none
      else some (finish text first more, s, p)
    | [] => some (finish text first more, s, p)
where
  /-- The text with the breaks at its end that are kept. -/
  finish (text first more : List Char) : List Char :=
    match chomping with
    | .strip => text
    | .clip => text ++ first
    | .keep => text ++ first ++ more

/-- Reads a block scalar after its mark. `parent` is the indentation of the block around it, -1
outside of all. -/
def blockScalar? (literal : Bool) (parent : Int) (s : List Char) (p : Position) :
    Option (List Char × List Char × Position) := do
  let (chomping, increment, rest) ← blockHeader? s
  let p := p.advance (s.length - rest.length)
  let (s, p) ← endOfLine? rest p
  let given := if increment = 0 then 0 else (max parent 0).toNat + increment
  let (s, p, furthest, more) ← blockBreaks? given s p 0 []
  let indent := if given = 0 then max furthest (max (parent + 1) 1).toNat else given
  blockLines? literal chomping indent (s.length + 1) s p [] [] more false

end AdmissionWatch.Yaml
