import Mathlib.Data.List.DropRight
import AdmissionWatch.Proofs.Http.Path
import AdmissionWatch.Proofs.Text.Bytes
import AdmissionWatch.Proofs.Text.Search

/-!
# Characters at the edge of a URL

Controls and blanks do not count at either end of a URL, and line breaks and tabs do not count anywhere
(`exists_edges`). Where other controls and blanks come to stand within it they do count: no server is
named with them (`readAuthority_edge`), and in a path they are a part that stays (`isOrdinary_edge`).
-/

namespace AdmissionWatch.Http

variable {c : Char} {s after : List Char}

theorem isEdge_of_isBreak (h : isBreak c) : isEdge c := by
  simp only [isBreak, List.contains_eq_mem, List.mem_cons, List.not_mem_nil, or_false, decide_eq_true_eq] at h
  rcases h with rfl | rfl | rfl <;> decide

/-- Characters at the edges are those before the ones that count and those behind them. The latter
come to stand within a text to which a slash is added. -/
theorem exists_edges (s : List Char) : ∃ before after,
    s.filter (fun c => !isBreak c) = before ++ counted s ++ after ∧
    (∀ c ∈ before, isEdge c) ∧ (∀ c ∈ after, isEdge c) ∧
    (∀ c ∈ (counted s).getLast?, isEdge c = false) ∧
    counted (s ++ ['/']) = counted s ++ after ++ ['/'] := by
  let rest := s.dropWhile isEdge
  have hrest : rest.rdropWhile isEdge ++ rest.rtakeWhile isEdge = rest := List.rdropWhile_append_rtakeWhile
  have hcounted : counted s = (rest.rdropWhile isEdge).filter fun c => !isBreak c := rfl
  refine ⟨(s.takeWhile isEdge).filter fun c => !isBreak c, (rest.rtakeWhile isEdge).filter fun c => !isBreak c, ?_,
    fun c hc => List.mem_takeWhile_imp (List.mem_filter.mp hc).1,
    fun c hc => List.mem_rtakeWhile_imp (List.mem_filter.mp hc).1, ?_, ?_⟩
  · rw [hcounted, List.append_assoc, ← List.filter_append, hrest, ← List.filter_append,
      List.takeWhile_append_dropWhile]
  · intro c hc
    rcases List.eq_nil_or_concat (rest.rdropWhile isEdge) with hnil | ⟨init, last, hlast⟩
    · simp [hcounted, hnil] at hc
    · have hedge : isEdge last = false := by
        have hlast? := List.rdropWhile_last_not isEdge rest (by simp [hlast])
        simpa [hlast] using hlast?
      have hbreak : isBreak last = false := Bool.eq_false_iff.mpr fun h => by simp [isEdge_of_isBreak h] at hedge
      rw [hcounted, hlast, List.concat_eq_append, List.filter_append] at hc
      simp [hbreak] at hc
      exact hc ▸ hedge
  · have hslash : (s ++ ['/']).dropWhile isEdge = rest ++ ['/'] := by
      rw [List.dropWhile_append]
      split
      · rename_i hnone
        rw [List.isEmpty_iff] at hnone
        rw [show rest = [] from hnone]
        rfl
      · rfl
    have hkept : (rest ++ ['/']).rdropWhile isEdge = rest ++ ['/'] :=
      List.rdropWhile_concat_neg isEdge rest '/' (by decide)
    calc
      counted (s ++ ['/']) = ((rest ++ ['/']).rdropWhile isEdge).filter fun c => !isBreak c := by
        rw [← hslash]
        rfl
      _ = (rest ++ ['/']).filter fun c => !isBreak c := by rw [hkept]
      _ = _ := by
        conv_lhs => rw [← hrest]
        rw [List.filter_append, List.filter_append, hcounted]
        rfl

theorem toNat_of_isEdge (h : isEdge c) : c.toNat < 33 := by
  have hle : c ≤ ' ' := of_decide_eq_true h
  exact Nat.lt_succ_of_le hle

/-- What is to be shown of a character at the edge can be tried. -/
theorem of_isEdge {p : Char → Prop} (h : isEdge c) (hall : ∀ n < 33, p (Char.ofNat n)) : p c :=
  c.ofNat_toNat ▸ hall c.toNat (toNat_of_isEdge h)

theorem endsAuthority_of_isEdge (h : isEdge c) : endsAuthority true c = false :=
  of_isEdge (p := fun c => endsAuthority true c = false) h (by decide)

/-! ### In a path -/

theorem percentEncoded_eq_nil_iff {hasNoPlace : Char → Bool} : percentEncoded hasNoPlace s = [] ↔ s = [] := by
  have hchar : ∀ c, percentChar hasNoPlace c ≠ [] := by
    intro c
    unfold percentChar
    split
    · obtain ⟨k, mark, -, heq⟩ := Text.exists_width c
      rw [Text.toList_toUTF8, Text.bytes_toString, heq]
      simp [percentByte]
    · simp
  cases s <;> simp [percentEncoded, hchar]

theorem percentChar_edge (h : isEdge c) : percentChar notInPath c = percentByte (UInt8.ofNat c.toNat) := by
  have hplace : notInPath c = true := of_isEdge (p := fun c => notInPath c = true) h (by decide)
  rw [percentChar, if_pos hplace, Text.toList_toUTF8, Text.bytes_toString,
    Text.encode_of_ascii (Nat.lt_trans (toNat_of_isEdge h) (by decide)), List.flatMap_singleton]

theorem isOrdinary_edge (h : isEdge c) (part : List Char) : IsOrdinary (percentEncoded notInPath (part ++ [c])) := by
  have hforms : ∀ n < 33, ∀ form ∈ dotForms,
      ¬(percentByte (UInt8.ofNat n)).map Char.toLower <:+ form.toList := by
    decide
  rw [percentEncoded, List.flatMap_append, List.flatMap_singleton, percentChar_edge h]
  exact isOrdinary_append (hforms c.toNat (toNat_of_isEdge h)) _

/-- A slash leaves the root where it is only if nothing is between them. -/
theorem readPath_slash_iff (hs : s.head? = some '/') (hafter : ∀ c ∈ after, isEdge c) :
    readPath (s ++ after ++ ['/']) = "/" ↔ readPath s = "/" ∧ after = [] ∧ s.getLast? ≠ some '/' := by
  obtain ⟨s, rfl⟩ := List.head?_eq_some_iff.mp hs
  obtain ⟨firsts, last, hlast, hpieces⟩ := Text.exists_last_piece '/' s
  have hslash : '/' ∉ after := fun hmem => absurd (hafter _ hmem) (by decide)
  have hnow := hpieces [] (List.not_mem_nil)
  rw [List.append_nil, List.append_nil] at hnow
  have hparts : (Text.pieces '/' (('/' :: s ++ after ++ ['/']).drop 1)).map (percentEncoded notInPath) =
      (firsts ++ [last ++ after]).map (percentEncoded notInPath) ++ [[]] := by
    rw [List.cons_append, List.cons_append, List.drop_succ_cons, List.drop_zero, Text.pieces_append_cons,
      List.map_append, hpieces _ hslash]
    rfl
  rw [readPath_eq_root_iff, readPath_eq_root_iff, hparts, resolveParts_slash_iff (by simp), List.drop_succ_cons,
    List.drop_zero, hnow]
  rcases List.eq_nil_or_concat after with rfl | ⟨init, c, rfl⟩
  · have hlastChar : ('/' :: s).getLast? ≠ some '/' ↔ last ≠ [] := by
      rw [ne_eq, ne_eq, hlast]
      cases s <;> simp
    rw [hlastChar, List.append_nil, List.map_append, List.map_singleton, List.getLast?_concat]
    simp [percentEncoded_eq_nil_iff]
  · have haway : resolveParts []
        (firsts.map (percentEncoded notInPath) ++ [percentEncoded notInPath (last ++ init ++ [c])]) ≠ [[]] :=
      resolveParts_ordinary (isOrdinary_edge (hafter c (by simp)) (last ++ init)) (by simp [percentEncoded_eq_nil_iff])
    rw [List.append_assoc] at haway
    simp [haway]

/-! ### In the name of a server -/

theorem mem_percentDecoded (hhex : Text.hexValue? c = none) (hpercent : c ≠ '%') (hascii : c.toNat < 0x80)
    (h : c ∈ s) : UInt8.ofNat c.toNat ∈ percentDecoded s := by
  fun_induction percentDecoded s with
  | case1 a b rest n hn ih =>
    simp only [List.mem_cons] at h ⊢
    rcases h with rfl | rfl | rfl | h
    · exact absurd rfl hpercent
    · simp [Text.hexNumber?, hhex] at hn
    · cases hvalue : Text.hexValue? a <;> simp [Text.hexNumber?, hhex, hvalue] at hn
    · exact .inr (ih h)
  | case2 a b rest hn ih =>
    exact List.mem_cons_of_mem _ (ih ((List.mem_cons.mp h).resolve_left hpercent))
  | case3 d rest _ ih =>
    rw [List.mem_append, Text.toList_toUTF8, Text.bytes_toString]
    rcases List.mem_cons.mp h with rfl | h
    · exact .inl (by rw [Text.encode_of_ascii hascii]; exact List.mem_singleton_self _)
    · exact .inr (ih h)
  | case4 => cases h

theorem bytes_of_fromUTF8? {bytes : List UInt8} {text : String} (h : String.fromUTF8? ⟨bytes.toArray⟩ = some text) :
    Text.bytes text = bytes := by
  unfold String.fromUTF8? at h
  split at h
  · rw [← Option.some.inj h]
    rfl
  · cases h

theorem mem_of_decoded {text : String} (h : isEdge c) (hin : c ∈ s)
    (htext : String.fromUTF8? ⟨(percentDecoded s).toArray⟩ = some text) : c ∈ text.toList := by
  have hascii : c.toNat < 0x80 := Nat.lt_trans (toNat_of_isEdge h) (by decide)
  have hbyte := mem_percentDecoded (of_isEdge (p := fun c => Text.hexValue? c = none) h (by decide))
    (of_isEdge (p := (· ≠ '%')) h (by decide)) hascii hin
  rw [← bytes_of_fromUTF8? htext, Text.bytes_eq, List.mem_flatMap] at hbyte
  obtain ⟨d, hd, hbyte⟩ := hbyte
  have hvalue : (UInt8.ofNat c.toNat).toNat = c.toNat := by
    rw [UInt8.toNat_ofNat']
    exact Nat.mod_eq_of_lt (Nat.lt_trans hascii (by decide))
  have hsame : d = c := by
    rw [← Char.toNat_inj, ← hvalue]
    exact Text.eq_of_mem_encode hbyte (by rwa [hvalue])
  exact hsame ▸ hd

theorem readHost_edge (h : isEdge c) (s : List Char) (name : String) : readHost (s ++ [c]) ≠ .ok name := by
  unfold readHost
  split
  · rename_i inner heq
    have hlast : inner.getLast? ≠ some ']' := by
      intro hlast
      have hend : (s ++ [c]).getLast? = some ']' := by rw [heq, List.getLast?_cons, hlast]; rfl
      rw [List.getLast?_concat, Option.some.injEq] at hend
      exact absurd (hend ▸ h) (by decide)
    simp [hlast]
  · split
    · simp
    · rename_i text htext
      have hany : (text.toList.map Char.toLower).any notInName = true := by
        rw [List.any_map, List.any_eq_true]
        exact ⟨c, mem_of_decoded h (by simp) htext,
          of_isEdge (p := fun c => notInName c.toLower = true) h (by decide)⟩
      simp only [hany, if_true]
      split <;> simp

theorem readPort_edge (h : isEdge c) (scheme : String) (s : List Char) (port : Option Nat) :
    readPort scheme (some (s ++ [c])) ≠ .ok port := by
  have hdigit : c.isDigit = false := of_isEdge (p := fun c => c.isDigit = false) h (by decide)
  have hnone : Text.nat? (s ++ [c]) = none := by simp [Text.nat?, hdigit]
  unfold readPort
  split
  · rename_i heq
    simp at heq
  · rename_i heq
    simp at heq
  · rename_i digits heq
    rw [← Option.some.inj heq, hnone]
    simp

/-- What is cut at another character keeps its end. -/
theorem exists_end {d : Char} {before after : List Char} (hne : d ≠ c) (h : s ++ [c] = before ++ d :: after) :
    ∃ rest, after = rest ++ [c] := by
  rcases List.eq_nil_or_concat after with rfl | ⟨rest, last, rfl⟩
  · exact absurd (List.singleton_inj.mp (List.append_inj_right' h rfl)).symm hne
  · refine ⟨rest, ?_⟩
    rw [List.concat_eq_append, ← List.cons_append, ← List.append_assoc] at h
    rw [List.concat_eq_append, List.singleton_inj.mp (List.append_inj_right' h rfl)]

theorem splitLast?_eq_some {before after : List Char} (h : splitLast? c s = some (before, after)) :
    s = before ++ c :: after := by
  unfold splitLast? at h
  split at h
  · rename_i after' before' hcut
    have hs := (Text.isCut_singleton_iff.mp (Text.isCut_of_splitOnce hcut)).1
    obtain ⟨rfl, rfl⟩ := Prod.mk.inj (Option.some.inj h)
    rw [← List.reverse_inj, hs]
    simp
  · cases h

theorem splitPort_eq (s : List Char) : splitPort s = (s, none) ∨
    ∃ before port, splitPort s = (before, some port) ∧ s = before ++ ':' :: port := by
  unfold splitPort
  dsimp only
  split
  · rename_i before port hcut
    refine .inr ⟨_, port, rfl, ?_⟩
    rw [List.append_assoc, ← (Text.isCut_singleton_iff.mp (Text.isCut_of_splitOnce hcut)).1, List.take_append_drop]
  · exact .inl rfl

theorem readAuthority_edge (h : isEdge c) (scheme : String) (hs : ∀ d ∈ s, endsAuthority true d = false)
    (query : Option String) (u : Url) : readAuthority scheme true (s ++ [c]) query ≠ .ok u := by
  have hat : '@' ≠ c := of_isEdge (p := ('@' ≠ ·)) h (by decide)
  have hcolon : ':' ≠ c := of_isEdge (p := (':' ≠ ·)) h (by decide)
  have hall : ∀ d ∈ s ++ [c], (!endsAuthority true d) = true := by
    simpa [or_imp, forall_and, endsAuthority_of_isEdge h] using hs
  obtain ⟨info, address, haddress⟩ : ∃ info address,
      (splitLast? '@' (s ++ [c])).getD ([], s ++ [c]) = (info, address ++ [c]) := by
    cases hcut : splitLast? '@' (s ++ [c]) with
    | none => exact ⟨[], s, rfl⟩
    | some parts =>
      obtain ⟨info, address⟩ := parts
      obtain ⟨rest, rfl⟩ := exists_end hat (splitLast?_eq_some hcut)
      exact ⟨info, rest, rfl⟩
  unfold readAuthority
  rw [List.takeWhile_eq_self_iff.mpr hall]
  simp only [haddress]
  rcases splitPort_eq (address ++ [c]) with hport | ⟨before, port, hport, hsplit⟩
  · cases hname : readHost (address ++ [c]) with
    | ok name => exact absurd hname (readHost_edge h address name)
    | error e => simp [hport, hname, bind, Except.bind]
  · obtain ⟨rest, rfl⟩ := exists_end hcolon hsplit
    cases hnumber : readPort scheme (some (rest ++ [c])) with
    | ok number => exact absurd hnumber (readPort_edge h scheme rest number)
    | error e =>
      -- Whether or not the host can be read, the port cannot.
      cases hname : readHost before <;> by_cases hempty : before = [] <;>
        simp [hport, hname, hnumber, hempty, bind, Except.bind]

end AdmissionWatch.Http
