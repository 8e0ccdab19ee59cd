import AdmissionWatch.Yaml.Token

/-!
# Scalars of one line

How names and texts are written on a line of a block: between single quotes with the quotes in them
doubled, or plain where the text is a word that denotes nothing else than itself. The reader takes just
that off the start of what is left and answers the text that was written (`plainScalar?_word`,
`quotedScalar?_doubled`).
-/

namespace AdmissionWatch.Yaml

/-- The printable characters of ASCII. -/
def isAsciiPrintable (c : Char) : Bool :=
  ' ' ≤ c && c ≤ '~'

/-- A character of a word that is written plain. -/
def isWordChar (c : Char) : Bool :=
  c.isLower || c.isDigit || c = '-'

/-- A lower-case letter, then lower-case letters, digits and hyphens; not one of the words for null
and the truth values. -/
def isPlainWord : List Char → Bool
  | [] => false
  | c :: s => c.isLower && s.all isWordChar && !(["null", "true", "false"].any fun w => w.toList == c :: s)

/-- A text with every single quote twice. -/
def doubled (s : List Char) : List Char :=
  s.flatMap fun c => if c = '\'' then ['\'', '\''] else [c]

/-- A text in single quotes. -/
def singleQuoted (s : List Char) : List Char :=
  '\'' :: (doubled s ++ ['\''])

/-- A name as it is written: plain if it may be, and else in single quotes. -/
def writtenName (s : List Char) : List Char :=
  if isPlainWord s then s else singleQuoted s

/-- The style in which a name is written. -/
def nameStyle (s : List Char) : Style :=
  if isPlainWord s then .plain else .singleQuoted

variable {c d : Char} {s rest : List Char} {p : Position} {f : Folding} {done : List Char}

theorem ne_of_class {test : Char → Bool} (hc : test c = true) (hd : test d = false) : c ≠ d := by
  rintro rfl
  exact Bool.false_ne_true (hd.symm.trans hc)

theorem Position.next_advance (p : Position) (n : Nat) : p.next.advance n = p.advance (n + 1) := by
  simp [Position.next, Position.advance, Nat.add_assoc, Nat.add_comm n 1]

/-! ### Plain words -/

theorem plainScalar?_word (hs : ∀ c ∈ s, isWordChar c) (hrest : startsBlank rest) (indent : Nat) (p : Position)
    (done : List Char) : plainScalar? false indent (s ++ ':' :: rest) p { text := done } false =
      some (done.reverse ++ s, ':' :: rest, p.advance s.length, false) := by
  induction s generalizing p done with
  | nil => simp [plainScalar?, isBlank, isBreak, hrest, Folding.value, Position.advance]
  | cons c s ih =>
    obtain ⟨hc, hs⟩ := List.forall_mem_cons.mp hs
    have hne : ∀ d, isWordChar d = false → c ≠ d := fun d => ne_of_class hc
    have hpush : ({ text := done } : Folding).push c = { text := c :: done } := rfl
    have hblank : isBlank c = false := by simp (disch := decide) [isBlank, hne]
    have hbreak : isBreak c = false := by simp (disch := decide) [isBreak, hne]
    have hcolon : c ≠ ':' := hne ':' (by decide)
    rw [List.cons_append, plainScalar?.eq_def]
    simp [hblank, hbreak, hcolon, hpush, ih hs, Position.next_advance]

/-! ### Between single quotes -/

/-- The characters read so far, those among them that are still held back as blanks included. -/
structure Folding.Holds (f : Folding) (done : List Char) : Prop where
  unbroken : f.broken = false
  value : f.join.value = done

namespace Folding.Holds

theorem empty : ({} : Folding).Holds [] :=
  ⟨rfl, rfl⟩

theorem blank (h : f.Holds done) (c : Char) : (f.blank c).Holds (done ++ [c]) := by
  obtain ⟨hunbroken, rfl⟩ := h
  constructor <;> simp [Folding.blank, Folding.join, Folding.value, hunbroken]

theorem push (h : f.Holds done) (c : Char) : (f.push c).Holds (done ++ [c]) := by
  obtain ⟨hunbroken, rfl⟩ := h
  constructor <;> simp [Folding.push, Folding.join, Folding.value, hunbroken]

end Folding.Holds

theorem quotedScalar?_doubled (hs : ∀ c ∈ s, isAsciiPrintable c) (hrest : rest.head? ≠ some '\'')
    (hp : 0 < p.column) (hf : f.Holds done) : quotedScalar? true (doubled s ++ '\'' :: rest) p f .none =
      some (done ++ s, rest, p.advance ((doubled s).length + 1)) := by
  induction s generalizing p f done with
  | nil =>
    have hdocument : p.column ≠ 0 := Nat.ne_of_gt hp
    rw [quotedScalar?.eq_def]
    cases rest with
    | nil => simp [isBlank, isBreak, hdocument, hf.value, doubled, Position.next, Position.advance]
    | cons d rest =>
      have hd : d ≠ '\'' := by simpa using hrest
      simp [isBlank, isBreak, hdocument, hd, hf.value, doubled, Position.next, Position.advance]
  | cons c s ih =>
    obtain ⟨hc, htail⟩ := List.forall_mem_cons.mp hs
    have hne : ∀ d, isAsciiPrintable d = false → c ≠ d := fun d => ne_of_class hc
    have hdocument : p.column ≠ 0 := Nat.ne_of_gt hp
    have hbreak : isBreak c = false := by simp (disch := decide) [isBreak, hne]
    by_cases hquote : c = '\''
    · subst hquote
      have ih := ih htail (p := p.next.next) (Nat.succ_pos _) (hf.push '\'')
      rw [show doubled ('\'' :: s) = '\'' :: '\'' :: doubled s from rfl, List.cons_append, List.cons_append,
        quotedScalar?.eq_def]
      simp [isBlank, isBreak, hdocument, quotedScalar?, ih, Position.next_advance]
    · have hdoubled : doubled (c :: s) = c :: doubled s := by simp [doubled, hquote]
      rw [hdoubled, List.cons_append, quotedScalar?.eq_def]
      by_cases hblank : isBlank c
      · have ih := ih htail (p := p.next) (Nat.succ_pos _) (hf.blank c)
        simp [hblank, ih, Position.next_advance]
      · have ih := ih htail (p := p.next) (Nat.succ_pos _) (hf.push c)
        simp [hblank, hbreak, hdocument, hquote, ih, Position.next_advance]

end AdmissionWatch.Yaml
