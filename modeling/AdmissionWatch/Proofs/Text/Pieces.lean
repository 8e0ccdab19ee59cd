import AdmissionWatch.Text.Search

/-!
# The pieces of a text

A text is cut at every occurrence of a character. Its pieces are those of its parts, where it is put
together at that character (`pieces_append_cons`), and the last of them is what stands after the last
occurrence (`getLast?_pieces_eq_some_iff`).
-/

namespace AdmissionWatch.Text

variable {c : Char} {s last : List Char}

theorem pieces_ne_nil (c : Char) (s : List Char) : pieces c s ≠ [] := by
  cases s with
  | nil => simp [pieces]
  | cons d s =>
    rw [pieces]
    split
    · simp
    · split <;> simp

theorem pieces_of_not_mem (h : c ∉ s) : pieces c s = [s] := by
  induction s with
  | nil => rfl
  | cons d s ih =>
    rw [List.mem_cons, not_or] at h
    rw [pieces, ih h.2]
    exact if_neg (Ne.symm h.1)

theorem pieces_append_cons (c : Char) (s t : List Char) : pieces c (s ++ c :: t) = pieces c s ++ pieces c t := by
  induction s with
  | nil =>
    obtain ⟨p, ps, hpieces⟩ := List.exists_cons_of_ne_nil (pieces_ne_nil c t)
    simp [pieces, hpieces]
  | cons d s ih =>
    obtain ⟨p, ps, hpieces⟩ := List.exists_cons_of_ne_nil (pieces_ne_nil c s)
    simp only [List.cons_append, pieces, ih, hpieces]
    split <;> rfl

theorem exists_last_occurrence (c : Char) (s : List Char) :
    c ∉ s ∨ ∃ before after, s = before ++ c :: after ∧ c ∉ after := by
  induction s with
  | nil => exact .inl (List.not_mem_nil)
  | cons d s ih =>
    rcases ih with hs | ⟨before, after, rfl, hafter⟩
    · by_cases hd : d = c
      · exact .inr ⟨[], s, by rw [hd, List.nil_append], hs⟩
      · exact .inl fun hmem => (List.mem_cons.mp hmem).elim (fun h => hd h.symm) hs
    · exact .inr ⟨d :: before, after, rfl, hafter⟩

/-- What has no `c` is added to the last piece. -/
theorem exists_last_piece (c : Char) (s : List Char) :
    ∃ firsts last, (last = [] ↔ s = [] ∨ s.getLast? = some c) ∧
    ∀ more, c ∉ more → pieces c (s ++ more) = firsts ++ [last ++ more] := by
  rcases exists_last_occurrence c s with hs | ⟨before, after, rfl, hafter⟩
  · refine ⟨[], s, ?_, fun more hmore => ?_⟩
    · have hlast : s.getLast? ≠ some c := fun h => hs (List.mem_of_getLast? h)
      simp [hlast]
    · exact pieces_of_not_mem (by simp [hs, hmore])
  · refine ⟨pieces c before, after, ?_, fun more hmore => ?_⟩
    · cases after with
      | nil => simp
      | cons d after =>
        have hlast : (d :: after).getLast? ≠ some c := fun h => hafter (List.mem_of_getLast? h)
        simpa using hlast
    · rw [List.append_assoc, List.cons_append, pieces_append_cons,
        pieces_of_not_mem (s := after ++ more) (by simp [hafter, hmore])]

/-- What stands after the last occurrence of `c`; all of the text if there is none. -/
def IsLastPiece (c : Char) (s last : List Char) : Prop :=
  c ∉ last ∧ (s = last ∨ ∃ before, s = before ++ c :: last)

theorem exists_isLastPiece (c : Char) (s : List Char) : ∃ last, IsLastPiece c s last := by
  rcases exists_last_occurrence c s with hs | ⟨before, after, rfl, hafter⟩
  · exact ⟨s, hs, .inl rfl⟩
  · exact ⟨after, hafter, .inr ⟨before, rfl⟩⟩

theorem IsLastPiece.getLast?_pieces (h : IsLastPiece c s last) : (pieces c s).getLast? = some last := by
  obtain ⟨hlast, rfl | ⟨before, rfl⟩⟩ := h
  · rw [pieces_of_not_mem hlast]
    rfl
  · rw [pieces_append_cons, pieces_of_not_mem hlast, List.getLast?_concat]

theorem getLast?_pieces_eq_some_iff : (pieces c s).getLast? = some last ↔ IsLastPiece c s last := by
  refine ⟨fun h => ?_, IsLastPiece.getLast?_pieces⟩
  obtain ⟨last', hlast'⟩ := exists_isLastPiece c s
  obtain rfl := Option.some.inj (h.symm.trans hlast'.getLast?_pieces)
  exact hlast'

end AdmissionWatch.Text
