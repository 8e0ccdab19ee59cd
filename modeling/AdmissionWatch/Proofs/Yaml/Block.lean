import AdmissionWatch.Proofs.Yaml.Scanner
import AdmissionWatch.Proofs.Yaml.Value

/-!
# Blocks of two levels

A block lists names, each on a line of its own, and under each of them, further to the right, entries
of a name and a text. Its tokens are those of a mapping of mappings (`tokens?_block`): the line of an
entry adds an entry to the inner mapping, and the line of a name closes the inner mapping before it.
-/

namespace AdmissionWatch.Yaml

/-- Names with their entries, as they are listed. -/
abbrev Block := List (String × List (String × String))

/-- An entry is written on one line, further in than the part it stands in. -/
def entryLine (entry : String × String) : List Char :=
  [' ', ' '] ++ (writtenName entry.1.toList ++ ':' :: ' ' :: singleQuoted entry.2.toList)

/-- A part is written as a line with its name, and its entries below. -/
def partLines (part : String × List (String × String)) : List (List Char) :=
  (writtenName part.1.toList ++ [':']) :: part.2.map entryLine

/-- The lines of a block, part by part. -/
def blockLines (block : Block) : List (List Char) :=
  block.flatMap partLines

/-- Lines, each after a break. -/
def broken (lines : List (List Char)) : List Char :=
  lines.flatMap fun line => '\n' :: line

theorem head?_broken_append {lines : List (List Char)} {rest : List Char} (hrest : rest.head? ≠ some '\'') :
    (broken lines ++ rest).head? ≠ some '\'' := by
  cases lines with
  | nil => exact hrest
  | cons line lines => simp [broken]

/-- A name of a block: one to 253 characters. -/
def IsBlockName (name : String) : Prop :=
  1 ≤ name.length ∧ name.length ≤ 253 ∧ ∀ c ∈ name.toList, isAsciiPrintable c

/-- The name and the text of an entry that can be written on a line. -/
def IsEntry (entry : String × String) : Prop :=
  IsBlockName entry.1 ∧ ∀ c ∈ entry.2.toList, isAsciiPrintable c

instance (name : String) : Decidable (IsBlockName name) :=
  decidable_of_iff (1 ≤ name.length ∧ name.length ≤ 253 ∧ name.toList.all isAsciiPrintable)
    (by rw [List.all_eq_true]; rfl)

instance (entry : String × String) : Decidable (IsEntry entry) :=
  decidable_of_iff (IsBlockName entry.1 ∧ entry.2.toList.all isAsciiPrintable) (by rw [List.all_eq_true]; rfl)

/-- A part that can be written: it has a name and at least one entry. -/
structure IsPart (part : String × List (String × String)) : Prop where
  name : IsBlockName part.1
  nonempty : part.2 ≠ []
  entries : ∀ entry ∈ part.2, IsEntry entry

/-- The tokens of an entry: its name, and its text in single quotes. -/
def textTokens (entry : String × String) : List Token :=
  entryTokens entry.1.toList [.scalar entry.2.toList .singleQuoted]

/-- The tokens of a part: its name, and a mapping of its entries. -/
def partTokens (part : String × List (String × String)) : List Token :=
  entryTokens part.1.toList (mappingTokens (part.2.map textTokens))

/-- The tokens of a block: a mapping of its parts. -/
def blockTokens (block : Block) : List Token :=
  mappingTokens (block.map partTokens)

theorem length_doubled_le (s : List Char) : (doubled s).length ≤ 2 * s.length := by
  induction s with
  | nil => simp [doubled]
  | cons c s ih =>
    simp only [doubled, List.flatMap_cons, List.length_append] at ih ⊢
    split <;> simp only [List.length_cons, List.length_nil] <;> omega

theorem IsBlockName.isKey {name : String} (h : IsBlockName name) : Scanner.IsKey name.toList := by
  refine ⟨h.2.2, ?_⟩
  have hlength := length_doubled_le name.toList
  have hshort := h.2.1
  rw [← String.length_toList] at hshort
  unfold writtenName
  split
  · exact Nat.le_trans hshort (by decide)
  · simp only [singleQuoted, List.length_cons, List.length_append, List.length_nil, Scanner.longestKey]
    omega

namespace Scanner
open Relation

variable {s s' : Scanner} {tokens : List Token} {indent : Int} {indents : List Int} {gap rest : List Char}

theorem At.entry {entry : String × String} (h : At s (gap ++ '\n' :: (entryLine entry ++ rest)) tokens indent indents)
    (hgap : IsGap gap) (hindent : indent ≤ 2) (hentry : IsEntry entry) (hrest : rest.head? ≠ some '\'') :
    ∃ s', ReflTransGen Step s s' ∧
      At s' rest (tokens ++ ((if indent < 2 then [.blockMappingStart] else []) ++ textTokens entry)) 2
        (if indent < 2 then indent :: indents else indents) := by
  have hkey : At s (gap ++ '\n' :: (List.replicate 2 ' ' ++
      (writtenName entry.1.toList ++ ':' ::
        (' ' :: (singleQuoted entry.2.toList ++ rest))))) tokens indent indents := by
    simpa [entryLine] using h
  obtain ⟨t, hto, ht⟩ := hkey.key hgap (leaves_of_le hindent) hindent hentry.1.isKey rfl
  obtain ⟨s', hstep, hs'⟩ := ht.detail hentry.2 hrest
  refine ⟨s', hto.tail hstep, ?_⟩
  simpa [keyTokens, textTokens, entryTokens] using hs'

theorem IsGap.head (h : IsGap rest) : rest.head? ≠ some '\'' := by
  cases rest with
  | nil => simp
  | cons c rest =>
    rcases h c List.mem_cons_self with rfl | rfl <;> simp

theorem At.entries {entries : List (String × String)}
    (h : At s (broken (entries.map entryLine) ++ rest) tokens 2 indents)
    (hentries : ∀ entry ∈ entries, IsEntry entry) (hrest : rest.head? ≠ some '\'') :
    ∃ s', ReflTransGen Step s s' ∧ At s' rest (tokens ++ (entries.map textTokens).flatten) 2 indents := by
  induction entries generalizing s tokens with
  | nil => exact ⟨s, .refl, by simpa [broken] using h⟩
  | cons entry entries ih =>
    obtain ⟨hentry, hentries⟩ := List.forall_mem_cons.mp hentries
    have hline :
        At s ([] ++ '\n' :: (entryLine entry ++ (broken (entries.map entryLine) ++ rest))) tokens 2 indents := by
      simpa [broken] using h
    obtain ⟨t, hto, ht⟩ := hline.entry (List.forall_mem_nil _) (by decide) hentry (head?_broken_append hrest)
    obtain ⟨s', hgo, hs'⟩ := ih (by simpa using ht) hentries
    exact ⟨s', hto.trans hgo, by simpa using hs'⟩

/-- The tokens of a name with its entries, when its mapping is still open. -/
def openTokens (part : String × List (String × String)) : List Token :=
  entryTokens part.1.toList (.blockMappingStart :: (part.2.map textTokens).flatten)

theorem At.part {part : String × List (String × String)} {tokens' : List Token} {indent' : Int} {indents' : List Int}
    (h : At s (gap ++ (broken (partLines part) ++ rest)) tokens indent indents) (hgap : IsGap gap)
    (hleaves : Leaves 0 tokens indent indents tokens' indent' indents') (hindent : indent' ≤ 0)
    (hname : IsBlockName part.1) (hne : part.2 ≠ []) (hentries : ∀ entry ∈ part.2, IsEntry entry)
    (hrest : rest.head? ≠ some '\'') :
    ∃ s', ReflTransGen Step s s' ∧
      At s' rest (tokens' ++ ((if indent' < 0 then [.blockMappingStart] else []) ++ openTokens part)) 2
        (0 :: if indent' < 0 then indent' :: indents' else indents') := by
  obtain ⟨name, entries⟩ := part
  obtain ⟨entry, entries, rfl⟩ := List.exists_cons_of_ne_nil hne
  obtain ⟨hentry, hentries⟩ := List.forall_mem_cons.mp hentries
  have hkey : At s (gap ++ '\n' :: (List.replicate 0 ' ' ++ (writtenName name.toList ++
      ':' ::
        ([] ++ '\n' :: (entryLine entry ++ (broken (entries.map entryLine) ++ rest)))))) tokens indent indents := by
    simpa [broken, partLines] using h
  obtain ⟨t, hto, ht⟩ := hkey.key hgap hleaves hindent hname.isKey rfl
  obtain ⟨u, htu, hu⟩ := ht.toAt.entry (List.forall_mem_nil _) (by decide) hentry (head?_broken_append hrest)
  obtain ⟨s', hgo, hs'⟩ := At.entries (by simpa using hu) hentries hrest
  refine ⟨s', (hto.trans htu).trans hgo, ?_⟩
  simpa [keyTokens, openTokens, entryTokens] using hs'

/-- The parts after the first. -/
theorem At.parts {block : Block} (h : At s (broken (blockLines block) ++ rest) tokens 2 [0, -1])
    (hblock : ∀ part ∈ block, IsPart part) (hrest : rest.head? ≠ some '\'') :
    ∃ s', ReflTransGen Step s s' ∧
      At s' rest (tokens ++ block.flatMap fun part => .blockEnd :: openTokens part) 2 [0, -1] := by
  induction block generalizing s tokens with
  | nil => exact ⟨s, .refl, by simpa [broken, blockLines] using h⟩
  | cons part block ih =>
    obtain ⟨⟨hname, hne, hentries⟩, hblock⟩ := List.forall_mem_cons.mp hblock
    have hpart : At s ([] ++ (broken (partLines part) ++ (broken (blockLines block) ++ rest))) tokens 2 [0, -1] := by
      simpa [broken, blockLines] using h
    -- The inner mapping of the part before is still open: its end comes off first.
    obtain ⟨t, hto, ht⟩ := hpart.part (List.forall_mem_nil _) (leaves_back (by decide) (by decide))
      (Int.le_refl 0) hname hne
      hentries (head?_broken_append hrest)
    obtain ⟨s', hgo, hs'⟩ := ih (by simpa using ht) hblock
    exact ⟨s', hto.trans hgo, by simpa using hs'⟩

end Scanner

/-- The end of an inner mapping may be told at the start of the next part or at its own end. -/
theorem tokens_of_parts (part : String × List (String × String)) (block : Block) :
    .blockMappingStart :: (Scanner.openTokens part ++ block.flatMap fun part => .blockEnd :: Scanner.openTokens part) ++
      [.blockEnd, .blockEnd] = blockTokens (part :: block) := by
  have hclose : ∀ part, Scanner.openTokens part ++ [.blockEnd] = partTokens part := by
    intro part
    simp [Scanner.openTokens, partTokens, mappingTokens, entryTokens]
  suffices h : ∀ part, Scanner.openTokens part ++
      (block.flatMap fun part => .blockEnd :: Scanner.openTokens part) ++ [.blockEnd] =
      partTokens part ++ (block.map partTokens).flatten by
    have hpart := congrArg (· ++ [Token.blockEnd]) (h part)
    simp only [List.append_assoc, List.cons_append, List.nil_append] at hpart
    simp [blockTokens, mappingTokens, hpart]
  intro part
  induction block generalizing part with
  | nil => simpa using hclose part
  | cons next block ih =>
    have hnext := ih next
    rw [List.append_assoc] at hnext
    simp [hnext, ← hclose part]

/-- The text of a block after its introduction, and what ends it. -/
theorem run?_block {block : Block} {ending : List Char} (hne : block ≠ []) (hblock : ∀ part ∈ block, IsPart part)
    (hending : Scanner.IsGap ending) {fuel : Nat}
    (hfuel : ([' ', '\n'] ++ (broken (blockLines block) ++ ending)).length < fuel) :
    Scanner.run? fuel { rest := [' ', '\n'] ++ (broken (blockLines block) ++ ending) } = some (blockTokens block) := by
  obtain ⟨part, block, rfl⟩ := List.exists_cons_of_ne_nil hne
  obtain ⟨⟨hname, hnonempty, hentries⟩, hblock⟩ := List.forall_mem_cons.mp hblock
  have hstart : Scanner.At { rest := [' ', '\n'] ++ (broken (blockLines (part :: block)) ++ ending) }
      ([' ', '\n'] ++ (broken (partLines part) ++ (broken (blockLines block) ++ ending))) [] (-1) [] := by
    constructor <;> simp [broken, blockLines]
  obtain ⟨t, hto, ht⟩ := hstart.part (by simp [Scanner.IsGap]) (Scanner.leaves_of_le (by decide))
    (by decide) hname hnonempty
    hentries (head?_broken_append hending.head)
  obtain ⟨s', hgo, hs'⟩ := Scanner.At.parts (by simpa using ht) hblock hending.head
  have hfinish := (show Scanner.At s' ending _ 2 ([0] ++ [-1]) from hs').finish hending (by decide)
  rw [Scanner.run?_of_steps (hto.trans hgo) hfinish hfuel, ← tokens_of_parts]
  simp

/-! ### The characters of a block -/

/-- The characters that the text of a block is made of. -/
def isBlockChar (c : Char) : Bool :=
  isAsciiPrintable c || c = '\n'

theorem isAllowed_of_isBlockChar {c : Char} (h : isBlockChar c) : isAllowed c := by
  unfold isBlockChar isAsciiPrintable at h
  simp only [Bool.or_eq_true, Bool.and_eq_true, decide_eq_true_eq] at h
  rcases h with ⟨hlow, hhigh⟩ | rfl
  · have hlow : 0x20 ≤ c.toNat := hlow
    have hhigh : c.toNat ≤ 0x7e := hhigh
    simp [isAllowed, hlow, hhigh]
  · decide

theorem prepare?_of_blockChars {text : List Char} (h : ∀ c ∈ text, isBlockChar c) : prepare? text = some text := by
  have hnormal : normalize text = text := by
    induction text with
    | nil => rfl
    | cons c text ih =>
      obtain ⟨hc, htext⟩ := List.forall_mem_cons.mp h
      have hne : ∀ d, isBlockChar d = false → c ≠ d := fun d => ne_of_class hc
      have hreturn := hne '\r' (by decide)
      rw [normalize.eq_def]
      split
      · rename_i heq
        cases heq
      · rename_i heq
        exact absurd (List.cons.inj heq).1 hreturn
      · rename_i heq
        obtain ⟨rfl, rfl⟩ := List.cons.inj heq
        simp [hreturn, hne '\u0085' (by decide), ih htext]
  rw [prepare?, if_pos (List.all_eq_true.mpr fun c hc => isAllowed_of_isBlockChar (h c hc)), hnormal]

theorem isAsciiPrintable_singleQuoted {s : List Char} (h : ∀ c ∈ s, isAsciiPrintable c) :
    ∀ c ∈ singleQuoted s, isAsciiPrintable c := by
  have hdoubled : ∀ c ∈ doubled s, isAsciiPrintable c := by
    intro c hc
    obtain ⟨d, hd, hc⟩ := List.mem_flatMap.mp hc
    split at hc
    · have hquote : c = '\'' := by simpa using hc
      exact hquote ▸ by decide
    · exact List.mem_singleton.mp hc ▸ h d hd
  rw [singleQuoted, List.forall_mem_cons, List.forall_mem_append, List.forall_mem_singleton]
  exact ⟨by decide, hdoubled, by decide⟩

theorem isAsciiPrintable_writtenName {s : List Char} (h : ∀ c ∈ s, isAsciiPrintable c) :
    ∀ c ∈ writtenName s, isAsciiPrintable c := by
  unfold writtenName
  split
  · exact h
  · exact isAsciiPrintable_singleQuoted h

theorem IsPart.isAsciiPrintable {part : String × List (String × String)} (h : IsPart part) {line : List Char}
    (hline : line ∈ partLines part) : ∀ c ∈ line, isAsciiPrintable c := by
  rcases List.mem_cons.mp hline with rfl | hline
  · rw [List.forall_mem_append, List.forall_mem_singleton]
    exact ⟨isAsciiPrintable_writtenName h.name.2.2, by decide⟩
  · obtain ⟨entry, hentry, rfl⟩ := List.mem_map.mp hline
    obtain ⟨hname, htext⟩ := h.entries entry hentry
    have hindent : ∀ c ∈ [' ', ' '], Yaml.isAsciiPrintable c := List.all_eq_true.mp (by decide)
    have hdetail : ∀ c ∈ ':' :: ' ' :: singleQuoted entry.2.toList, Yaml.isAsciiPrintable c := by
      rw [List.forall_mem_cons, List.forall_mem_cons]
      exact ⟨by decide, by decide, isAsciiPrintable_singleQuoted htext⟩
    rw [entryLine, List.forall_mem_append, List.forall_mem_append]
    exact ⟨hindent, isAsciiPrintable_writtenName hname.2.2, hdetail⟩

theorem isBlockChar_broken {block : Block} (hblock : ∀ part ∈ block, IsPart part) :
    ∀ c ∈ broken (blockLines block), isBlockChar c := by
  intro c hc
  obtain ⟨line, hline, hc⟩ := List.mem_flatMap.mp hc
  obtain ⟨part, hpart, hline⟩ := List.mem_flatMap.mp hline
  rcases List.mem_cons.mp hc with rfl | hc
  · decide
  · simp [isBlockChar, (hblock part hpart).isAsciiPrintable hline c hc]

theorem tokens?_block {block : Block} {ending : List Char} (hne : block ≠ [])
    (hblock : ∀ part ∈ block, IsPart part) (hending : Scanner.IsGap ending) :
    tokens? ([' ', '\n'] ++ (broken (blockLines block) ++ ending)) =
      some (blockTokens block) := by
  have hchars : ∀ c ∈ [' ', '\n'] ++ (broken (blockLines block) ++ ending), isBlockChar c := by
    rw [List.forall_mem_append, List.forall_mem_append]
    refine ⟨List.all_eq_true.mp (by decide), isBlockChar_broken hblock, fun c hc => ?_⟩
    rcases hending c hc with rfl | rfl <;> decide
  rw [tokens?, prepare?_of_blockChars hchars]
  exact run?_block hne hblock hending (Nat.lt_succ_self _)

/-! ### What a block denotes -/

/-- A block in which no name is listed twice, and no entry under one name. -/
structure IsBlock (block : Block) : Prop where
  nonempty : block ≠ []
  parts : ∀ part ∈ block, IsPart part
  names : (block.map Prod.fst).Nodup
  entries : ∀ part ∈ block, (part.2.map Prod.fst).Nodup

open Node in
/-- The node of the entries of a part. -/
def partNode (part : String × List (String × String)) : Node :=
  .mapping none none (part.2.map fun entry => (ofName entry.1.toList, .scalar none none entry.2.toList .singleQuoted))

open Node in
/-- The node of a block. -/
def blockNode (block : Block) : Node :=
  .mapping none none (block.map fun part => (ofName part.1.toList, partNode part))

/-- The value of a block: a map of maps of texts. -/
def blockValue (block : Block) : Value :=
  .map (block.map fun part => (.str part.1, .map (part.2.map fun entry => (.str entry.1, .str entry.2))))

theorem ofTokens?_block (block : Block) : Node.ofTokens? (blockTokens block) = some (some (blockNode block)) :=
  Node.ofTokens?_read (Node.isRead_mapping _ fun _ _ =>
    Node.isRead_mapping _ fun entry _ => Node.isRead_scalar entry.2.toList .singleQuoted)

theorem IsBlock.ofDocument? {block : Block} (h : IsBlock block) :
    Value.ofDocument? (blockNode block) = some (blockValue block) := by
  have hpart : ∀ part ∈ block, Value.Denotes (partNode part) _ (0 + 1) := fun part hpart =>
    Value.denotes_mapping (fun entry _ => Value.denotes_quoted entry.2) (h.entries part hpart)
  exact Value.ofDocument?_of_denotes (Value.denotes_mapping hpart h.names) (by decide)

theorem IsBlock.read? {block : Block} (h : IsBlock block) {ending : List Char} (hending : Scanner.IsGap ending)
    {text : String} (htext : text.toList = [' ', '\n'] ++ (broken (blockLines block) ++ ending)) :
    Value.read? text = some (blockValue block) := by
  rw [Value.read?, Node.read?, htext, tokens?_block h.nonempty h.parts hending, Option.bind_some, ofTokens?_block]
  exact h.ofDocument?

end AdmissionWatch.Yaml
