import Mathlib.Data.List.DropRight
import AdmissionWatch.Text.Blank

/-!
# Trimming

A text is the trimmed text with blanks around it (`exists_blanks_around`), and blanks around a text do
not matter to trimming it (`trim_around`). The rest follows from these two.
-/

namespace AdmissionWatch.Text

variable {s before after : List Char}

theorem exists_blanks_around (s : List Char) :
    ∃ before after, s = before ++ trim s ++ after ∧ (∀ c ∈ before, isBlank c) ∧
      ∀ c ∈ after, isBlank c := by
  refine ⟨s.takeWhile isBlank, (trimStart s).rtakeWhile isBlank, ?_, fun c hc => List.mem_takeWhile_imp hc,
    fun c hc => List.mem_rtakeWhile_imp hc⟩
  calc s = s.takeWhile isBlank ++ trimStart s := (List.takeWhile_append_dropWhile).symm
    _ = s.takeWhile isBlank ++ (trim s ++ (trimStart s).rtakeWhile isBlank) :=
        congrArg _ (List.rdropWhile_append_rtakeWhile).symm
    _ = s.takeWhile isBlank ++ trim s ++ (trimStart s).rtakeWhile isBlank := (List.append_assoc ..).symm

theorem trimEnd_append (hafter : ∀ c ∈ after, isBlank c) (s : List Char) : trimEnd (s ++ after) = trimEnd s := by
  rw [trimEnd, List.reverse_append, List.dropWhile_append_of_pos (by simpa using hafter)]
  rfl

theorem trim_around (hbefore : ∀ c ∈ before, isBlank c) (hafter : ∀ c ∈ after, isBlank c) (s : List Char) :
    trim (before ++ s ++ after) = trim s := by
  rw [trim, trimStart, List.append_assoc, List.dropWhile_append_of_pos hbefore, List.dropWhile_append]
  split
  · rename_i hblank
    rw [List.isEmpty_iff] at hblank
    rw [List.dropWhile_eq_nil_iff.mpr hafter, trim, trimStart, hblank]
  · exact trimEnd_append hafter _

example : trim [' ', '\u3000', 'a', '\u200b', '\t'] = ['a', '\u200b'] := by decide

@[simp] theorem trim_trim (s : List Char) : trim (trim s) = trim s := by
  obtain ⟨before, after, hs, hbefore, hafter⟩ := exists_blanks_around s
  conv_rhs => rw [hs, trim_around hbefore hafter]

theorem trim_eq_nil_iff : trim s = [] ↔ ∀ c ∈ s, isBlank c := by
  constructor
  · intro hnil
    obtain ⟨before, after, hs, hbefore, hafter⟩ := exists_blanks_around s
    rw [hnil, List.append_nil] at hs
    rw [hs, List.forall_mem_append]
    exact ⟨hbefore, hafter⟩
  · intro hblank
    calc trim s = trim (s ++ [] ++ []) := by simp
      _ = trim [] := trim_around hblank (List.forall_mem_nil _) []
      _ = [] := rfl

/-- Characters may be left out before the blanks are. -/
theorem trim_filter_trim (p : Char → Bool) (s : List Char) : trim ((trim s).filter p) = trim (s.filter p) := by
  obtain ⟨before, after, hs, hbefore, hafter⟩ := exists_blanks_around s
  conv_rhs => rw [hs, List.filter_append, List.filter_append]
  refine (trim_around ?_ ?_ _).symm
  · exact fun c hc => hbefore c (List.mem_filter.mp hc).1
  · exact fun c hc => hafter c (List.mem_filter.mp hc).1

theorem trimStart_of_trim (h : trim s = s) : trimStart s = s := by
  have hlength : s.length ≤ (trimStart s).length := by
    conv_lhs => rw [← h]
    exact (List.rdropWhile_prefix ..).length_le
  exact (List.dropWhile_suffix _).eq_of_length_le hlength

theorem trimEnd_of_trim (h : trim s = s) : trimEnd s = s := by
  rwa [trim, trimStart_of_trim h] at h

/-- A text that is trimmed stays in front of what is put after it. -/
theorem trim_append (h : trim s = s) (hne : s ≠ []) (t : List Char) : trim (s ++ t) = s ++ trimEnd t := by
  have hstart : trimStart (s ++ t) = s ++ t := by
    have hs : s.dropWhile isBlank = s := trimStart_of_trim h
    rw [trimStart, List.dropWhile_append, hs, if_neg (by simpa using hne)]
  rw [trim, hstart, trimEnd, trimEnd, List.reverse_append, List.dropWhile_append]
  split
  · rename_i hblank
    rw [List.isEmpty_iff] at hblank
    rw [hblank, List.reverse_nil, List.append_nil]
    exact trimEnd_of_trim h
  · rw [List.reverse_append, List.reverse_reverse]

/-- A text that neither starts nor ends with a blank has none to lose. -/
theorem trim_eq_self (hhead : ∀ c ∈ s.head?, isBlank c = false) (hlast : ∀ c ∈ s.getLast?, isBlank c = false) :
    trim s = s := by
  have hkept : ∀ {t : List Char}, (∀ c ∈ t.head?, isBlank c = false) → t.dropWhile isBlank = t := by
    intro t ht
    cases t with
    | nil => rfl
    | cons c t => simp [ht c rfl]
  rw [trim, trimStart, hkept hhead, trimEnd, hkept (by rwa [List.head?_reverse]), List.reverse_reverse]

theorem trimEnd_eq_nil_iff : trimEnd s = [] ↔ ∀ c ∈ s, isBlank c := by
  rw [trimEnd, List.reverse_eq_nil_iff, List.dropWhile_eq_nil_iff]
  simp

theorem isBlankText_eq_false_iff {s : String} : isBlankText s = false ↔ trimmed s ≠ "" := by
  rw [isBlankText, trimmed, ← Bool.not_eq_true, List.all_eq_true, ← trim_eq_nil_iff, ne_eq,
    String.ofList_eq_empty_iff]

end AdmissionWatch.Text
