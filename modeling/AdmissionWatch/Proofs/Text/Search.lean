import AdmissionWatch.Proofs.Text.Occurrence

/-!
# Searching for a beginning and for a character

A text that begins with another is that one and the rest (`dropStart?_eq_some_iff`). A search for a text
of one character cuts a text where that character first stands (`isCut_singleton_iff`). So what stands
between two characters is told by how the text is put together (`between?_of_encloses`).
-/

namespace AdmissionWatch.Text

variable {c d : Char} {a b s inner : List Char}

theorem dropStart?_eq_some_iff {start rest : List Char} : dropStart? start s = some rest ↔ s = start ++ rest := by
  unfold dropStart?
  rw [Option.ite_none_right_eq_some, List.isPrefixOf_iff_prefix, Option.some.injEq]
  constructor
  · rintro ⟨⟨more, rfl⟩, rfl⟩
    rw [List.drop_left]
  · rintro rfl
    exact ⟨List.prefix_append _ _, List.drop_left⟩

theorem isCut_singleton_iff : IsCut [c] s a b ↔ s = a ++ c :: b ∧ c ∉ a := by
  constructor
  · intro h
    refine ⟨h.eq, fun hc => ?_⟩
    obtain ⟨a₁, a₂, rfl⟩ := List.append_of_mem hc
    have hagain : s = a₁ ++ ([c] ++ (a₂ ++ c :: b)) := by simp [h.eq]
    have hshort := h.first hagain
    rw [List.length_append, List.length_cons] at hshort
    omega
  · rintro ⟨rfl, hc⟩
    refine .of_unbordered (fun k hk => .inl (by simpa using hk)) (fun hin => hc ?_) b
    exact hin.subset List.mem_cons_self

/-- Whether a text has a part `inner` between the first `c` and the first `d` after it. -/
def Encloses (c d : Char) (s inner : List Char) : Prop :=
  ∃ before after, s = before ++ c :: (inner ++ d :: after) ∧ c ∉ before ∧ d ∉ inner

theorem encloses_iff_between : Encloses c d s inner ↔ Between [c] [d] s inner := by
  simp only [Encloses, Between, isCut_singleton_iff]
  constructor
  · rintro ⟨before, after, hs, hbefore, hinner⟩
    exact ⟨before, inner ++ d :: after, after, ⟨hs, hbefore⟩, rfl, hinner⟩
  · rintro ⟨before, _, after, ⟨hs, hbefore⟩, rfl, hinner⟩
    exact ⟨before, after, hs, hbefore, hinner⟩

variable {start stop text : String} (hstart : start.toList = [c]) (hstop : stop.toList = [d])
include hstart hstop

theorem between?_of_encloses (h : Encloses c d text.toList inner) :
    between? start stop text = if trim inner = [] then none else some (String.ofList (trim inner)) := by
  rw [encloses_iff_between, ← hstart, ← hstop] at h
  exact between?_of_between h

theorem between?_of_not_encloses (h : ∀ inner, ¬Encloses c d text.toList inner) :
    between? start stop text = none := by
  simp only [encloses_iff_between, ← hstart, ← hstop] at h
  exact between?_of_not_between h

end AdmissionWatch.Text
