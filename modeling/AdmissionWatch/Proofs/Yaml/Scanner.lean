import Mathlib.Logic.Relation
import AdmissionWatch.Proofs.Yaml.Scalar

/-!
# Scanning the lines of a block

The scanner takes one token after the other off the text (`Step`), and what it answers for the text is
found at the end of such steps (`run?_of_steps`). On a line of a block mapping it goes from a place
where no key has begun to the next such place (`At`): over the key, whose announcement is put before it
when the colon is met, and over the value. A line further to the right opens a block, one further to the
left closes the blocks in between.
-/

namespace AdmissionWatch.Yaml.Scanner

variable {s s' t : Scanner} {tokens : List Token} {indent outer : Int} {indents : List Int} {c : Char}
  {gap rest : List Char} {name text : List Char} {column : Nat}

/-! ### Steps -/

/-- Goes to the start of the next token, closes the blocks that end before it and reads it. -/
def step? (s : Scanner) : Option Scanner := do
  let s ← (toToken s.rest s false).refreshKeys?
  match s.rest with
  | [] => none
  | c :: rest => (s.unindent s.position.column).token? c rest

/-- The tokens at the end of the text, all blocks closed; none where there is more text. -/
def finish? (s : Scanner) : Option (List Token) := do
  let s ← (toToken s.rest s false).refreshKeys?
  if s.rest = [] then
    let s ← (s.unindent (-1)).dropKey?
    return s.tokens.reverse
  else none

/-- A token is read, and that takes something off the text. -/
structure Step (s s' : Scanner) : Prop where
  reads : step? s = some s'
  shortens : s'.rest.length < s.rest.length

theorem run?_of_finish (h : finish? s = some tokens) (fuel : Nat) : run? (fuel + 1) s = some tokens := by
  unfold finish? at h
  unfold run?
  cases hstart : (toToken s.rest s false).refreshKeys? with
  | none => simp [hstart] at h
  | some t =>
    simp only [hstart, Option.bind_eq_bind, Option.bind_some] at h ⊢
    split at h
    · rename_i hrest
      rw [hrest]
      exact h
    · cases h

theorem run?_of_step (h : step? s = some s') (fuel : Nat) : run? (fuel + 1) s = run? fuel s' := by
  unfold step? at h
  rw [run?]
  cases hstart : (toToken s.rest s false).refreshKeys? with
  | none => simp [hstart] at h
  | some t =>
    simp only [hstart, Option.bind_eq_bind, Option.bind_some] at h ⊢
    cases hrest : t.rest with
    | nil => simp [hrest] at h
    | cons c rest =>
      simp only [hrest] at h
      simp [h]

theorem run?_of_steps (h : Relation.ReflTransGen Step s s') (hend : finish? s' = some tokens) {fuel : Nat}
    (hfuel : s.rest.length < fuel) : run? fuel s = some tokens := by
  -- Each step leaves less text, so fuel for one more than what is left is never used up.
  induction h using Relation.ReflTransGen.head_induction_on generalizing fuel with
  | refl =>
    obtain ⟨fuel, rfl⟩ := Nat.exists_eq_succ_of_ne_zero (Nat.ne_zero_of_lt hfuel)
    exact run?_of_finish hend fuel
  | head hstep _ ih =>
    obtain ⟨fuel, rfl⟩ := Nat.exists_eq_succ_of_ne_zero (Nat.ne_zero_of_lt hfuel)
    rw [Nat.succ_eq_add_one, run?_of_step hstep.reads]
    exact ih (Nat.lt_of_lt_of_le hstep.shortens (Nat.le_of_lt_succ hfuel))

theorem step?_eq (hstart : toToken s.rest s false = t) (hkeys : t.refreshKeys? = some t) (hrest : t.rest = c :: rest) :
    step? s = (t.unindent t.position.column).token? c rest := by
  simp [step?, hstart, hkeys, hrest]

theorem finish?_eq (hstart : toToken s.rest s false = t) (hkeys : t.refreshKeys? = some t) (hrest : t.rest = [])
    (hclosed : (t.unindent (-1)).dropKey? = some s') : finish? s = some s'.tokens.reverse := by
  simp [finish?, hstart, hkeys, hrest, hclosed]

/-! ### Between tokens -/

/-- Where the scanner is outside of brackets and no key has begun. -/
structure At (s : Scanner) (rest : List Char) (tokens : List Token) (indent : Int) (indents : List Int) : Prop where
  rest : s.rest = rest
  tokens : s.tokens = tokens.reverse
  indent : s.indent = indent
  indents : s.indents = indents
  possible : s.possible = none
  outer : s.outer = []

/-- Blanks and empty lines before the line of a token. -/
def IsGap (gap : List Char) : Prop := ∀ c ∈ gap, c = ' ' ∨ c = '\n'

theorem toToken_line (hgap : IsGap gap) (hs : s.outer = []) :
    ∃ p : Position, p.column = 0 ∧
      ∀ rest, toToken (gap ++ '\n' :: rest) s false = toToken rest
        { s with position := p, keyAllowed := true } false := by
  induction gap generalizing s with
  | nil => exact ⟨s.position.nextLine, rfl, fun rest => by simp [toToken, isBreak, inFlow, hs]⟩
  | cons d gap ih =>
    obtain ⟨hd, htail⟩ := List.forall_mem_cons.mp hgap
    rcases hd with rfl | rfl
    · obtain ⟨p, hp, hgo⟩ := ih htail (s := { s with position := s.position.next }) hs
      refine ⟨p, hp, fun rest => ?_⟩
      rw [List.cons_append, toToken, ← hgo]
      simp [isBreak]
    · obtain ⟨p, hp, hgo⟩ := ih htail (s := { s with position := s.position.nextLine, keyAllowed := true }) hs
      refine ⟨p, hp, fun rest => ?_⟩
      rw [List.cons_append, toToken, ← hgo]
      simp [isBreak, inFlow, hs]

/-- Whether a token starts with a character; blanks, breaks, marks and comments do not. -/
def startsToken (c : Char) : Bool :=
  !(isBreak c || c = ' ' || c = '\t' || c = byteOrderMark || c = '#')

theorem toToken_blanks (n : Nat) (hc : startsToken c) :
    toToken (List.replicate n ' ' ++ c :: rest) s false =
      { s with rest := c :: rest, position := s.position.advance n } := by
  induction n generalizing s with
  | zero =>
    simp only [startsToken, Bool.not_eq_true', Bool.or_eq_false_iff, decide_eq_false_iff_not] at hc
    simp [toToken, hc, Position.advance]
  | succ n ih =>
    rw [List.replicate_succ, List.cons_append, toToken]
    simp [isBreak, ih, Position.next_advance]

theorem refreshKeys?_none (hpossible : s.possible = none) (houter : s.outer = []) : s.refreshKeys? = some s := by
  obtain ⟨⟩ := s
  cases hpossible
  cases houter
  rfl

theorem unindent_of_le (h : s.indent ≤ column) : s.unindent column = s := by
  unfold unindent
  split
  · rfl
  · cases hindents : s.indents with
    | nil => rfl
    | cons outer indents => rw [closeBlocks, if_neg (Int.not_lt.mpr h)]

/-- Back to the column of the block around the current one. -/
theorem unindent_once (houter : s.outer = []) (hindents : s.indents = outer :: indents) (hcolumn : column < s.indent)
    (hback : outer ≤ column) :
    s.unindent column = { s.emit .blockEnd with indent := outer, indents := indents } := by
  have hflow : s.inFlow = false := by simp [inFlow, houter]
  rw [unindent, hflow, if_neg Bool.false_ne_true, hindents, closeBlocks, if_pos hcolumn]
  cases indents with
  | nil => rfl
  | cons o indents => exact if_neg (Int.not_lt.mpr hback)

/-! ### Scalars -/

theorem saveKey?_of_not_allowed (h : t.keyAllowed = false) : t.saveKey? = some t := by
  simp [saveKey?, h]

theorem saveKey?_of_allowed (hallowed : t.keyAllowed = true) (hpossible : t.possible = none) :
    t.saveKey? = some { t with
      possible := some ⟨t.tokens.length, t.position, !t.inFlow && t.indent = t.position.column⟩ } := by
  simp [saveKey?, dropKey?, hallowed, hpossible]

theorem token?_quoted (hsave : t.saveKey? = some s') (htext : ∀ c ∈ text, isAsciiPrintable c)
    (hrest : rest.head? ≠ some '\'') :
    t.token? '\'' (doubled text ++ '\'' :: rest) = some ({ s' with keyAllowed := false }.resume
      (.scalar text .singleQuoted) rest (t.position.advance (singleQuoted text).length)) := by
  have hread := quotedScalar?_doubled htext hrest (p := t.position.next) (Nat.succ_pos _) .empty
  rw [token?]
  simp [startsDocumentMark, hsave, hread, singleQuoted, Position.next_advance]

theorem startsDocumentMark_of_ne (hhyphen : c ≠ '-') (hdot : c ≠ '.') (rest : List Char) :
    startsDocumentMark (c :: rest) = false := by
  unfold startsDocumentMark
  split
  · simp_all
  · simp_all
  · rfl

theorem token?_plain {word : List Char} (hsave : t.saveKey? = some s') (hflow : t.inFlow = false)
    (hflow' : s'.inFlow = false) (hword : isPlainWord (c :: word)) (hrest : startsBlank rest) :
    t.token? c (word ++ ':' :: rest) = some ({ s' with keyAllowed := false }.resume
      (.scalar (c :: word) .plain) (':' :: rest) (t.position.advance (c :: word).length)) := by
  simp only [isPlainWord, Bool.and_eq_true] at hword
  obtain ⟨⟨hlower, hchars⟩, -⟩ := hword
  have hne : ∀ d, d.isLower = false → c ≠ d := fun d => ne_of_class hlower
  have hdocument := startsDocumentMark_of_ne (hne '-' (by decide)) (hne '.' (by decide)) (word ++ ':' :: rest)
  have hall : ∀ d ∈ c :: word, isWordChar d :=
    List.forall_mem_cons.mpr ⟨by simp [isWordChar, hlower], List.all_eq_true.mp hchars⟩
  have hread := plainScalar?_word hall hrest (s'.indent + 1).toNat t.position []
  have hstart : startsPlain false c (word ++ ':' :: rest) = true := by
    simp (disch := decide) [startsPlain, isBlank, hne]
  rw [List.cons_append] at hread
  rw [token?]
  simp (disch := decide) [hdocument, hne, hsave, hread, hstart, hflow, hflow']

theorem writtenName_cons (name : List Char) : ∃ c more, writtenName name = c :: more ∧ startsToken c := by
  unfold writtenName
  split
  · rename_i hplain
    cases name with
    | nil => cases hplain
    | cons c word =>
      simp only [isPlainWord, Bool.and_eq_true] at hplain
      have hne : ∀ d, d.isLower = false → c ≠ d := fun d => ne_of_class hplain.1.1
      exact ⟨c, word, rfl, by simp (disch := decide) [startsToken, isBreak, byteOrderMark, hne]⟩
  · exact ⟨'\'', _, rfl, rfl⟩

theorem token?_name {more : List Char} (hwritten : writtenName name = c :: more) (hsave : t.saveKey? = some s')
    (hflow : t.inFlow = false) (hflow' : s'.inFlow = false) (hname : ∀ c ∈ name, isAsciiPrintable c)
    (hrest : startsBlank rest) :
    t.token? c (more ++ ':' :: rest) = some ({ s' with keyAllowed := false }.resume
      (.scalar name (nameStyle name)) (':' :: rest) (t.position.advance (writtenName name).length)) := by
  unfold writtenName nameStyle at *
  split at hwritten
  · rename_i hplain
    subst hwritten
    rw [if_pos hplain, if_pos hplain]
    exact token?_plain hsave hflow hflow' hplain hrest
  · rename_i hquoted
    obtain ⟨rfl, rfl⟩ := List.cons.inj hwritten
    rw [if_neg hquoted, if_neg hquoted, List.append_assoc]
    exact token?_quoted hsave hname (by simp)

/-! ### The colon after a key -/

/-- Where the scanner is after the colon of a key that began at a column. -/
structure AtValue (s : Scanner) (rest : List Char) (tokens : List Token) (column : Nat) (indents : List Int) : Prop
    extends At s rest tokens column indents where
  noKey : s.keyAllowed = false
  beyond : column ≤ s.position.column

/-- A key of one line that has just been read: it began at a column, and the last token is for it. -/
structure AfterKey (s : Scanner) (rest : List Char) (tokens : List Token) (name : List Char) (indent : Int)
    (indents : List Int) (column : Nat) : Prop where
  possible : ∃ k : PossibleKey, s.possible = some k ∧ k.place = tokens.length ∧ k.position.column = column ∧
    k.position.line = s.position.line ∧ s.position.index ≤ k.position.index + longestKey
  beyond : column < s.position.column
  rest : s.rest = ':' :: rest
  tokens : s.tokens = .scalar name (nameStyle name) :: tokens.reverse
  indent : s.indent = indent
  indents : s.indents = indents
  outer : s.outer = []

/-- The tokens for a key, after the token of the block that it opens if it stands to the right of the
current one. -/
def keyTokens (name : List Char) (indent : Int) (column : Nat) : List Token :=
  (if indent < column then [.blockMappingStart] else []) ++ [.key, .scalar name (nameStyle name), .value]

theorem refreshKeys?_near {k : PossibleKey} (hpossible : s.possible = some k) (houter : s.outer = [])
    (hline : k.position.line = s.position.line) (hnear : s.position.index ≤ k.position.index + longestKey) :
    s.refreshKeys? = some s := by
  obtain ⟨⟩ := s
  cases hpossible
  cases houter
  simp only at hline hnear
  simp [refreshKeys?, refreshKey?, hline, Nat.not_lt.mpr hnear]

/-- The announcement of a key goes before its own token, and the block that it opens before that. -/
theorem AfterKey.announced (h : AfterKey s rest tokens name indent indents column) (hindent : indent ≤ column) :
    ∃ t, (s.insertAt tokens.length .key).openBlock column (some tokens.length) .blockMappingStart = t ∧
      t.rest = ':' :: rest ∧ t.position = s.position ∧
      .value :: t.tokens = (tokens ++ keyTokens name indent column).reverse ∧ t.indent = column ∧
      t.indents = (if indent < column then indent :: indents else indents) ∧ t.outer = [] := by
  refine ⟨_, rfl, ?_⟩
  by_cases hdeep : indent < column
  · have htwo : tokens.length + 1 + 1 - tokens.length = 2 := by omega
    simp [openBlock, inFlow, insertAt, keyTokens, hdeep, h.rest, h.tokens, h.indent, h.indents, h.outer, htwo]
  · have hsame : indent = column := Int.le_antisymm hindent (Int.not_lt.mp hdeep)
    simp [openBlock, insertAt, keyTokens, h.rest, h.tokens, h.indent, h.indents, h.outer, hsame]

theorem AfterKey.colon (h : AfterKey s rest tokens name indent indents column) (hindent : indent ≤ column)
    (hrest : startsBlank rest) :
    ∃ s', Step s s' ∧ AtValue s' rest (tokens ++ keyTokens name indent column) column
      (if indent < column then indent :: indents else indents) := by
  obtain ⟨k, hpossible, hplace, hcolumn, hline, hnear⟩ := h.possible
  have hbeyond := h.beyond
  have hstart : toToken s.rest s false = s := by
    have hhere : toToken (List.replicate 0 ' ' ++ ':' :: rest) s false = _ := toToken_blanks 0 (by decide)
    rw [List.replicate_zero, List.nil_append, ← h.rest] at hhere
    exact hhere
  have htoken : step? s = s.colon? := by
    rw [step?_eq hstart (refreshKeys?_near hpossible h.outer hline hnear) h.rest,
      unindent_of_le (by rw [h.indent]; omega), token?]
    simp [Nat.ne_of_gt (Nat.zero_lt_of_lt hbeyond), hrest]
  obtain ⟨t, ht, hrest', hposition, htokens, hindent', hindents, houter⟩ := h.announced hindent
  simp only [colon?, hpossible, hplace, hcolumn, ht] at htoken
  refine ⟨_, ⟨htoken, ?_⟩, ⟨⟨?_, htokens, hindent', hindents, rfl, houter⟩, rfl, ?_⟩⟩
  · simp [emit, drop, hrest', h.rest]
  · simp [emit, drop, hrest']
  · exact Nat.le_succ_of_le (Nat.le_of_lt (hposition ▸ hbeyond))

/-! ### Lines -/

theorem At.inFlow (h : At s rest tokens indent indents) : s.inFlow = false := by
  simp [Scanner.inFlow, h.outer]

theorem At.line (h : At s (gap ++ '\n' :: (List.replicate column ' ' ++ c :: rest)) tokens indent indents)
    (hgap : IsGap gap) (hc : startsToken c) :
    ∃ t, step? s = (t.unindent column).token? c rest ∧ At t (c :: rest) tokens indent indents ∧
      t.position.column = column ∧ t.keyAllowed = true := by
  obtain ⟨p, hp, hgo⟩ := toToken_line hgap h.outer
  have hstart : toToken s.rest s false =
      { s with rest := c :: rest, position := p.advance column, keyAllowed := true } := by
    rw [h.rest, hgo, toToken_blanks column hc]
  have hcolumn : (p.advance column).column = column := by simp [Position.advance, hp]
  have hstep := step?_eq hstart (refreshKeys?_none h.possible h.outer) rfl
  rw [hcolumn] at hstep
  exact ⟨_, hstep, ⟨rfl, h.tokens, h.indent, h.indents, h.possible, h.outer⟩, hcolumn, rfl⟩

/-- What closing blocks at a column makes of the place where the scanner is. -/
def Leaves (column : Nat) (tokens : List Token) (indent : Int) (indents : List Int) (tokens' : List Token)
    (indent' : Int) (indents' : List Int) : Prop :=
  ∀ {t : Scanner} {rest : List Char}, At t rest tokens indent indents →
    At (t.unindent column) rest tokens' indent' indents' ∧
    (t.unindent column).position = t.position ∧ (t.unindent column).keyAllowed = t.keyAllowed

theorem leaves_of_le (hindent : indent ≤ column) : Leaves column tokens indent indents tokens indent indents := by
  intro t rest h
  rw [unindent_of_le (h.indent ▸ hindent)]
  exact ⟨h, rfl, rfl⟩

theorem leaves_back (hcolumn : column < indent) (hback : outer ≤ column) :
    Leaves column tokens indent (outer :: indents) (tokens ++ [.blockEnd]) outer indents := by
  intro t rest h
  rw [unindent_once h.outer h.indents (h.indent ▸ hcolumn) hback]
  exact ⟨⟨h.rest, by simp [emit, h.tokens], rfl, rfl, h.possible, h.outer⟩, rfl, rfl⟩

/-- A name that is short enough, as it is written, to be the key of a line. -/
def IsKey (name : List Char) : Prop :=
  (∀ c ∈ name, isAsciiPrintable c) ∧ (writtenName name).length ≤ longestKey

theorem At.afterKey {more : List Char} (h : At t (c :: (more ++ ':' :: rest)) tokens indent indents)
    (hallowed : t.keyAllowed = true) (hcolumn : t.position.column = column) (hwritten : writtenName name = c :: more)
    (hname : IsKey name) (hrest : startsBlank rest) :
    ∃ s', t.token? c (more ++ ':' :: rest) = some s' ∧ AfterKey s' rest tokens name indent indents column := by
  have hsave := saveKey?_of_allowed hallowed h.possible
  refine ⟨_, token?_name hwritten hsave h.inFlow h.inFlow hname.1 hrest, ?_⟩
  constructor
  · refine ⟨_, rfl, by simp [h.tokens], hcolumn, rfl, ?_⟩
    exact Nat.add_le_add_left hname.2 _
  · simp [resume, Position.advance, hcolumn, hwritten]
  · rfl
  · exact congrArg _ h.tokens
  · exact h.indent
  · exact h.indents
  · exact h.outer

theorem At.key {tokens' : List Token} {indent' : Int} {indents' : List Int}
    (h : At s (gap ++ '\n' :: (List.replicate column ' ' ++ (writtenName name ++ ':' :: rest))) tokens indent indents)
    (hgap : IsGap gap) (hleaves : Leaves column tokens indent indents tokens' indent' indents')
    (hindent : indent' ≤ column) (hname : IsKey name) (hrest : startsBlank rest) :
    ∃ s', Relation.ReflTransGen Step s s' ∧ AtValue s' rest (tokens' ++ keyTokens name indent' column) column
      (if indent' < column then indent' :: indents' else indents') := by
  obtain ⟨c, more, hwritten, hc⟩ := writtenName_cons name
  rw [hwritten, List.cons_append] at h
  obtain ⟨t, hstep, ht, hcolumn, hallowed⟩ := h.line hgap hc
  obtain ⟨ht', hposition, hallowed'⟩ := hleaves ht
  obtain ⟨u, htoken, hu⟩ := ht'.afterKey (hallowed'.trans hallowed) (hposition ▸ hcolumn) hwritten hname hrest
  obtain ⟨s', hcolon, hs'⟩ := hu.colon hindent hrest
  refine ⟨s', .head ⟨hstep.trans htoken, ?_⟩ (.single hcolon), hs'⟩
  rw [hu.rest, h.rest]
  simp only [List.length_append, List.length_cons]
  omega

theorem AtValue.blank (h : AtValue s (' ' :: c :: rest) tokens column indents) (hc : startsToken c) :
    ∃ t, step? s = t.token? c rest ∧ At t (c :: rest) tokens column indents ∧ t.keyAllowed = false := by
  have hat := h.toAt
  have hstart : toToken s.rest s false = { s with rest := c :: rest, position := s.position.advance 1 } := by
    rw [hat.rest]
    exact toToken_blanks 1 hc
  have hbeyond : (column : Int) ≤ (s.position.advance 1).column := by
    have := h.beyond
    simp only [Position.advance]
    omega
  refine ⟨{ s with rest := c :: rest, position := s.position.advance 1 },
    (step?_eq hstart (refreshKeys?_none hat.possible hat.outer) rfl).trans ?_,
    ⟨rfl, hat.tokens, hat.indent, hat.indents, hat.possible, hat.outer⟩, h.noKey⟩
  rw [unindent_of_le (hat.indent ▸ hbeyond)]

theorem AtValue.detail (h : AtValue s (' ' :: (singleQuoted text ++ rest)) tokens column indents)
    (htext : ∀ c ∈ text, isAsciiPrintable c) (hrest : rest.head? ≠ some '\'') :
    ∃ s', Step s s' ∧ At s' rest (tokens ++ [.scalar text .singleQuoted]) column indents := by
  have hquoted : singleQuoted text ++ rest = '\'' :: (doubled text ++ '\'' :: rest) := by simp [singleQuoted]
  have hlength := congrArg List.length h.toAt.rest
  rw [hquoted] at h hlength
  obtain ⟨t, hstep, ht, hno⟩ := h.blank (by decide)
  rw [token?_quoted (saveKey?_of_not_allowed hno) htext hrest] at hstep
  refine ⟨_, ⟨hstep, ?_⟩, ⟨rfl, ?_, ht.indent, ht.indents, ht.possible, ht.outer⟩⟩
  · rw [hlength]
    simp only [resume, List.length_cons, List.length_append]
    omega
  · simp [resume, emit, ht.tokens]

/-! ### The end of the text -/

theorem toToken_end (hgap : IsGap gap) (s : Scanner) :
    ∃ p allowed, toToken gap s false = { s with rest := [], position := p, keyAllowed := allowed } := by
  induction gap generalizing s with
  | nil => exact ⟨s.position, s.keyAllowed, rfl⟩
  | cons c gap ih =>
    obtain ⟨hc, htail⟩ := List.forall_mem_cons.mp hgap
    rw [toToken]
    rcases hc with rfl | rfl
    · exact ih htail { s with position := s.position.next }
    · exact ih htail { s with position := s.position.nextLine, keyAllowed := s.keyAllowed || !s.inFlow }

/-- All blocks are closed by going outside of them. -/
theorem closeBlocks_all (outers : List Int) (hopen : ∀ i ∈ s.indent :: outers, -1 < i) :
    (closeBlocks (-1) (outers ++ [-1]) s).tokens = List.replicate (outers.length + 1) .blockEnd ++ s.tokens ∧
      (closeBlocks (-1) (outers ++ [-1]) s).possible = s.possible := by
  induction outers generalizing s with
  | nil =>
    have hinside : s.indent > -1 := hopen _ List.mem_cons_self
    simp [closeBlocks, hinside, emit]
  | cons o outers ih =>
    obtain ⟨hinside, hopen⟩ := List.forall_mem_cons.mp hopen
    obtain ⟨htokens, hpossible⟩ := ih (s := { s.emit .blockEnd with indent := o, indents := outers ++ [-1] }) hopen
    rw [List.cons_append, closeBlocks, if_pos hinside, htokens, hpossible]
    refine ⟨?_, rfl⟩
    rw [List.length_cons, List.replicate_succ' (n := outers.length + 1), List.append_assoc]
    rfl

theorem At.finish {outers : List Int} (h : At s gap tokens indent (outers ++ [-1])) (hgap : IsGap gap)
    (hopen : ∀ i ∈ indent :: outers, -1 < i) :
    finish? s = some (tokens ++ List.replicate (outers.length + 1) .blockEnd) := by
  obtain ⟨p, allowed, hend⟩ := toToken_end hgap s
  let t : Scanner := { s with rest := [], position := p, keyAllowed := allowed }
  have hunindent : t.unindent (-1) = closeBlocks (-1) (outers ++ [-1]) t := by
    simp [unindent, Scanner.inFlow, t, h.outer, h.indents]
  obtain ⟨htokens, hpossible⟩ := closeBlocks_all (s := t) outers (h.indent ▸ hopen)
  have hclosed : (t.unindent (-1)).dropKey? = some (t.unindent (-1)) := by
    have hnone : t.possible = none := h.possible
    rw [dropKey?, hunindent, hpossible, hnone]
  have hkeys : t.refreshKeys? = some t := refreshKeys?_none h.possible h.outer
  rw [finish?_eq (h.rest.symm ▸ hend) hkeys rfl hclosed, hunindent, htokens]
  simp [t, h.tokens]

end AdmissionWatch.Yaml.Scanner
