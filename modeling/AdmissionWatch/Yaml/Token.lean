import AdmissionWatch.Yaml.Scalar

/-!
# Tokens of YAML

A text as a sequence of tokens. Indentation becomes tokens of its own, and the key of a mapping is
announced by a token that is put before it when the colon after it is met; for that the scanner
remembers where a key may have begun.
-/

namespace AdmissionWatch.Yaml

/-- A token. -/
inductive Token where
  | version (major minor : Nat)
  | tagPrefix (handle start : List Char)
  | documentStart
  | documentEnd
  | blockSequenceStart
  | blockMappingStart
  | blockEnd
  | flowSequenceStart
  | flowSequenceEnd
  | flowMappingStart
  | flowMappingEnd
  | blockEntry
  | flowEntry
  | key
  | value
  | alias (name : List Char)
  | anchor (name : List Char)
  | tag (handle suffix : List Char)
  | scalar (text : List Char) (style : Style)
  deriving DecidableEq, Repr, Inhabited

/-- A place where the key of a mapping may have begun. -/
structure PossibleKey where
  /-- The number of tokens before it. -/
  place : Nat
  position : Position
  /-- Whether nothing else than a key can stand there. -/
  required : Bool
  deriving Repr

/-- The state of the scanner. -/
structure Scanner where
  rest : List Char
  position : Position := ⟨0, 0, 0⟩
  /-- The tokens so far, latest first. -/
  tokens : List Token := []
  /-- The column of the current block, -1 outside of all. -/
  indent : Int := -1
  /-- The columns of the blocks around it. -/
  indents : List Int := []
  /-- The possible key of the current level. -/
  possible : Option PossibleKey := none
  /-- The possible keys of the levels around it; as many as there are open brackets. -/
  outer : List (Option PossibleKey) := []
  /-- Whether a key may begin here. -/
  keyAllowed : Bool := true
  deriving Repr

namespace Scanner

/-- Whether the scanner is within brackets. -/
def inFlow (s : Scanner) : Bool :=
  !s.outer.isEmpty

/-- Adds a token. -/
def emit (s : Scanner) (t : Token) : Scanner :=
  { s with tokens := t :: s.tokens }

/-- Takes `n` characters of the line. -/
def drop (s : Scanner) (n : Nat) : Scanner :=
  { s with rest := s.rest.drop n, position := s.position.advance n }

/-- Puts a token before the token at a place. -/
def insertAt (s : Scanner) (place : Nat) (t : Token) : Scanner :=
  let after := s.tokens.length - place
  { s with tokens := s.tokens.take after ++ t :: s.tokens.drop after }

/-- Opens a block at a column beyond the current one; its token goes to a place, or to the end. -/
def openBlock (s : Scanner) (column : Nat) (place : Option Nat) (t : Token) : Scanner :=
  if !s.inFlow && s.indent < column then
    let s := { s with indents := s.indent :: s.indents, indent := column }
    match place with
    | some place => s.insertAt place t
    | none => s.emit t
  else s

/-- Closes the blocks beyond a column, outermost last, given the columns around the current one. -/
def closeBlocks (column : Int) : List Int → Scanner → Scanner
  | [], s => s
  | outer :: indents, s =>
    if s.indent > column then
      closeBlocks column indents { s.emit .blockEnd with indent := outer, indents := indents }
    else s

/-- Closes the blocks beyond a column; within brackets none. -/
def unindent (s : Scanner) (column : Int) : Scanner :=
  if s.inFlow then s else closeBlocks column s.indents s

/-- Gives up the possible key of the current level; none when it had to be one. -/
def dropKey? (s : Scanner) : Option Scanner :=
  match s.possible with
  | some k => if k.required then none else some { s with possible := none }
  | none => some s

/-- Remembers that a key may begin here. -/
def saveKey? (s : Scanner) : Option Scanner :=
  if s.keyAllowed then do
    let required := !s.inFlow && s.indent = s.position.column
    let s ← s.dropKey?
    return { s with possible := some ⟨s.tokens.length, s.position, required⟩ }
  else some s

/-- The most characters of a key that is not marked as one. -/
def longestKey : Nat := 1024

/-- A possible key, unless the scanner has left its line or has gone too far; none when it had to be
one. -/
def refreshKey? (p : Position) : Option PossibleKey → Option (Option PossibleKey)
  | none => some none
  | some k =>
    if k.position.line < p.line || k.position.index + longestKey < p.index then
      if k.required then none else some none
    else some (some k)

/-- Gives up the possible keys that the scanner has left behind. -/
def refreshKeys? (s : Scanner) : Option Scanner := do
  let possible ← refreshKey? s.position s.possible
  let outer ← s.outer.mapM (refreshKey? s.position)
  return { s with possible, outer }

/-- Skips blanks, comments and line breaks. A tab counts as blank only where no key may begin. -/
def toToken : List Char → Scanner → Bool → Scanner
  | [], s, _ => { s with rest := [] }
  | c :: rest, s, inComment =>
    if isBreak c then
      toToken rest { s with position := s.position.nextLine, keyAllowed := s.keyAllowed || !s.inFlow } false
    else if inComment || c = ' ' || (c = '\t' && (s.inFlow || !s.keyAllowed))
        || (c = byteOrderMark && s.position.column = 0) then
      toToken rest { s with position := s.position.next } inComment
    else if c = '#' then toToken rest { s with position := s.position.next } true
    else { s with rest := c :: rest }

/-- Continues after a scalar or another token that was read to its end. -/
def resume (s : Scanner) (t : Token) (rest : List Char) (p : Position) : Scanner :=
  { s.emit t with rest := rest, position := p }

/-- The scanner outside of all blocks and without a possible key, as directives and document marks
need it. -/
def outside? (s : Scanner) : Option Scanner := do
  let s ← (s.unindent (-1)).dropKey?
  return { s with keyAllowed := false }

/-- A run of word characters and the rest. -/
def word (s : List Char) : List Char × List Char :=
  (s.takeWhile isWord, s.dropWhile isWord)

/-- A number of at most nine digits and the rest. -/
def versionNumber? (s : List Char) : Option (Nat × List Char) :=
  let digits := s.takeWhile Char.isDigit
  if digits = [] ∨ 9 < digits.length then none
  else some (digits.foldl (fun n c => n * 10 + (c.toNat - 48)) 0, s.drop digits.length)

/-- Whether a character may stand in the suffix of a tag; in a verbatim one more may. -/
def isTagChar (verbatim : Bool) (c : Char) : Bool :=
  isWord c || ";/?:@&=+$.%!~*'()".contains c || (verbatim && (c = ',' || c = '[' || c = ']'))

/-- The bytes of escapes `%XX` at the start of a text, at most `n`, and the rest. -/
def escapedBytes : Nat → List Char → List UInt8 × List Char
  | n + 1, '%' :: a :: b :: s =>
    match Text.hexNumber? [a, b] with
    | some v =>
      let (bytes, rest) := escapedBytes n s
      (UInt8.ofNat v :: bytes, rest)
    | none => ([], '%' :: a :: b :: s)
  | _, s => ([], s)

/-- The number of bytes of a character, by its first byte. -/
def widthOf? (b : UInt8) : Option Nat :=
  if b < 0x80 then some 1
  else if b &&& 0xe0 = 0xc0 then some 2
  else if b &&& 0xf0 = 0xe0 then some 3
  else if b &&& 0xf8 = 0xf0 then some 4
  else none

/-- The character written by escapes at the start of a text, and the rest. -/
def escapedChar? (s : List Char) : Option (Char × List Char) :=
  match escapedBytes 1 s with
  | ([b], _) =>
    match widthOf? b with
    | none => none
    | some width =>
      let (bytes, rest) := escapedBytes width s
      match String.fromUTF8? ⟨bytes.toArray⟩ with
      | some text =>
        match text.toList with
        | [c] => some (c, rest)
        | _ => none
      | none => none
  | _ => none

/-- The suffix of a tag and the rest. -/
def tagSuffix? (verbatim : Bool) : Nat → List Char → Option (List Char × List Char)
  | 0, _ => none
  | _, [] => some ([], [])
  | fuel + 1, c :: s =>
    if c = '%' then
      match escapedChar? (c :: s) with
      | some (e, rest) => (tagSuffix? verbatim fuel rest).map fun (t, r) => (e :: t, r)
      | none => none
    else if isTagChar verbatim c then (tagSuffix? verbatim fuel s).map fun (t, r) => (c :: t, r)
    else some ([], c :: s)

/-- The handle of a tag, from its exclamation mark on, and the rest. -/
def tagHandle : List Char → List Char × List Char
  | '!' :: s =>
    match word s with
    | (w, '!' :: rest) => ('!' :: w ++ ['!'], rest)
    | (w, rest) => ('!' :: w, rest)
  | s => ([], s)

/-- Reads a tag. -/
def tag? (inFlow : Bool) (s : List Char) : Option (Token × List Char) := do
  let (token, rest) ←
    match s with
    | '!' :: '<' :: s => do
      let (suffix, rest) ← tagSuffix? true (s.length + 1) s
      match suffix, rest with
      | [], _ => none
      | _, '>' :: rest => some (Token.tag [] suffix, rest)
      | _, _ => none
    | s =>
      match tagHandle s with
      | (handle, rest) => do
        let (suffix, rest') ← tagSuffix? false (rest.length + 1) rest
        if 1 < handle.length ∧ handle.getLast? = some '!' then
          if suffix = [] then none else some (Token.tag handle suffix, rest')
        else
          match handle.drop 1 ++ suffix with
          | [] => some (Token.tag [] ['!'], rest')
          | suffix => some (Token.tag ['!'] suffix, rest')
  if startsBlank rest || (inFlow && rest.head? = some ',') then some (token, rest) else none

/-- Whether the name of an anchor or alias may end here. -/
def endsName : List Char → Bool
  | [] => true
  | c :: s => startsBlank (c :: s) || "?:,]\x7d%@".contains c || c = '\x60'

/-- Reads the name of an anchor or alias. -/
def name? (s : List Char) : Option (List Char × List Char) :=
  match word s with
  | ([], _) => none
  | (w, rest) => if endsName rest then some (w, rest) else none

/-- Reads a directive after its percent sign, with the rest of its line. -/
def directive? (s : List Char) (p : Position) : Option (Token × List Char × Position) := do
  let (kind, rest) := word s
  if !startsBlank rest then none
  else
    let (token, rest') ←
      match String.ofList kind with
      | "YAML" => do
        let (major, rest) ← versionNumber? (rest.dropWhile isBlank)
        match rest with
        | '.' :: rest => do
          let (minor, rest) ← versionNumber? rest
          some (Token.version major minor, rest)
        | _ => none
      | "TAG" => do
        let (handle, rest) := tagHandle (rest.dropWhile isBlank)
        if handle.getLast? ≠ some '!' then none
        else
          match rest with
          | c :: _ => do
            if !isBlank c then none
            else
              let rest := rest.dropWhile isBlank
              let (start, rest) ← tagSuffix? true (rest.length + 1) rest
              if start = [] ∨ !startsBlank rest then none else some (Token.tagPrefix handle start, rest)
          | [] => none
      | _ => none
    let (rest, p) ← endOfLine? rest' (p.advance (s.length - rest'.length))
    return (token, rest, p)

/-- Opens a bracket. -/
def openFlow? (s : Scanner) (t : Token) : Option Scanner := do
  let s ← s.saveKey?
  return ({ s with outer := s.possible :: s.outer, possible := none, keyAllowed := true }.drop 1).emit t

/-- Closes a bracket. -/
def closeFlow? (s : Scanner) (t : Token) : Option Scanner := do
  let s ← s.dropKey?
  let s :=
    match s.outer with
    | k :: outer => { s with possible := k, outer := outer }
    | [] => s
  return ({ s with keyAllowed := false }.drop 1).emit t

/-- The colon after a key: the key is announced where it began, or, when it was marked, it is
complete. -/
def colon? (s : Scanner) : Option Scanner :=
  match s.possible with
  | some k =>
    let s := (s.insertAt k.place .key).openBlock k.position.column (some k.place) .blockMappingStart
    some (({ s with possible := none, keyAllowed := false }.drop 1).emit .value)
  | none =>
    if s.inFlow then some (({ s with keyAllowed := false }.drop 1).emit .value)
    else if s.keyAllowed then
      some (((s.openBlock s.position.column none .blockMappingStart).drop 1).emit .value)
    else none

/-- Whether a plain scalar may begin here. -/
def startsPlain (inFlow : Bool) (c : Char) (s : List Char) : Bool :=
  !(isBlank c || "-?:,[]\x7b\x7d#&*!|>'\"%@".contains c || c = '\x60')
    || (c = '-' && !(match s with
      | d :: _ => isBlank d
      | [] => false))
    || (!inFlow && (c = '?' || c = ':') && !startsBlank s)

/-- Reads the token at the start of `c :: rest`; none when none begins so. -/
def token? (s : Scanner) (c : Char) (rest : List Char) : Option Scanner :=
  let p := s.position
  if p.column = 0 && c = '%' then do
    let s ← s.outside?
    let (t, rest, p) ← directive? rest p.next
    return s.resume t rest p
  else if p.column = 0 && startsDocumentMark (c :: rest) then do
    let s ← s.outside?
    return (s.drop 3).emit (if c = '-' then .documentStart else .documentEnd)
  else if c = '[' then s.openFlow? .flowSequenceStart
  else if c = '\x7b' then s.openFlow? .flowMappingStart
  else if c = ']' then s.closeFlow? .flowSequenceEnd
  else if c = '\x7d' then s.closeFlow? .flowMappingEnd
  else if c = ',' then do
    let s ← s.dropKey?
    return ({ s with keyAllowed := true }.drop 1).emit .flowEntry
  else if c = '-' && startsBlank rest then
    if s.inFlow || s.keyAllowed then do
      let s ← (s.openBlock p.column none .blockSequenceStart).dropKey?
      return ({ s with keyAllowed := true }.drop 1).emit .blockEntry
    else none
  else if c = '?' && (s.inFlow || startsBlank rest) then
    if s.inFlow || s.keyAllowed then do
      let s ← (s.openBlock p.column none .blockMappingStart).dropKey?
      return ({ s with keyAllowed := !s.inFlow }.drop 1).emit .key
    else none
  else if c = ':' && (s.inFlow || startsBlank rest) then s.colon?
  else if c = '*' || c = '&' then do
    let s ← s.saveKey?
    let (name, rest') ← name? rest
    return { s with keyAllowed := false }.resume (if c = '*' then .alias name else .anchor name) rest'
      (p.advance (name.length + 1))
  else if c = '!' then do
    let s ← s.saveKey?
    let (t, rest') ← tag? s.inFlow (c :: rest)
    return { s with keyAllowed := false }.resume t rest' (p.advance (rest.length + 1 - rest'.length))
  else if (c = '|' || c = '>') && !s.inFlow then do
    let s ← s.dropKey?
    let (text, rest, p) ← blockScalar? (c = '|') s.indent rest p.next
    return { s with keyAllowed := true }.resume (.scalar text (if c = '|' then .literal else .folded)) rest p
  else if c = '\'' || c = '"' then do
    let s ← s.saveKey?
    let (text, rest, p) ← quotedScalar? (c = '\'') rest p.next {} .none
    return { s with keyAllowed := false }.resume
      (.scalar text (if c = '\'' then .singleQuoted else .doubleQuoted)) rest p
  else if startsPlain s.inFlow c rest then do
    let s ← s.saveKey?
    let (text, rest, p, broken) ← plainScalar? s.inFlow (s.indent + 1).toNat (c :: rest) p {} false
    return { s with keyAllowed := broken }.resume (.scalar text .plain) rest p
  else none

/-- The tokens of the rest of a text; none when it has an error. Each step takes at least one
character. -/
def run? : Nat → Scanner → Option (List Token)
  | 0, _ => none
  | fuel + 1, s => do
    let s ← (toToken s.rest s false).refreshKeys?
    match s.rest with
    | [] =>
      let s ← (s.unindent (-1)).dropKey?
      return s.tokens.reverse
    | c :: rest =>
      let s ← (s.unindent s.position.column).token? c rest
      run? fuel s

end Scanner

/-- The tokens of a text; none when it has an error. -/
def tokens? (text : List Char) : Option (List Token) := do
  let s ← prepare? text
  Scanner.run? (s.length + 1) { rest := s }

end AdmissionWatch.Yaml
