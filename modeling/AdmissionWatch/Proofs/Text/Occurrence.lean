import Mathlib.Data.List.Infix
import AdmissionWatch.Text.Search

/-!
# First occurrences

A search cuts a text at the first occurrence of another, or finds that there is none
(`splitOnce_eq_some_iff`, `splitOnce_eq_none_iff`). Where the first occurrence is cannot be told from
the parts that a text is put together from alone, since an occurrence may straddle a joint. It cannot
when the searched text is unbordered, that is, when no part that it starts with is one that it ends
with (`IsCut.of_unbordered`), nor when a character at the joint is none of its own (`IsCut.guarded`).
-/

namespace AdmissionWatch.Text

variable {sep s t before after : List Char}

/-- The first occurrence of `sep` in a text stands between these parts. -/
structure IsCut (sep s before after : List Char) : Prop where
  eq : s = before ++ (sep ++ after)
  first : ∀ {before' after' : List Char}, s = before' ++ (sep ++ after') → before.length ≤ before'.length

namespace IsCut

theorem head (sep after : List Char) : IsCut sep (sep ++ after) [] after :=
  ⟨rfl, fun _ => Nat.zero_le _⟩

/-- There is only one first occurrence. -/
theorem unique {before' after' : List Char} (h : IsCut sep s before after) (h' : IsCut sep s before' after') :
    before = before' ∧ after = after' := by
  have hlength : before.length = before'.length := Nat.le_antisymm (h.first h'.eq) (h'.first h.eq)
  obtain ⟨hbefore, hrest⟩ := List.append_inj (h.eq.symm.trans h'.eq) hlength
  exact ⟨hbefore, List.append_cancel_left hrest⟩

theorem cons {c : Char} (h : IsCut sep s before after) (hstart : ¬sep <+: c :: s) :
    IsCut sep (c :: s) (c :: before) after := by
  refine ⟨congrArg (c :: ·) h.eq, fun {before' after'} heq => ?_⟩
  cases before' with
  | nil => exact absurd ⟨after', heq.symm⟩ hstart
  | cons d before' => exact Nat.succ_le_succ (h.first (List.cons.inj heq).2)

end IsCut

theorem splitOnce_eq_none_iff : splitOnce sep s = none ↔ ¬sep <:+: s := by
  induction s with
  | nil => simp [splitOnce]
  | cons c s ih =>
    rw [splitOnce]
    split
    · rename_i hstart
      simp [(List.isPrefixOf_iff_prefix.mp hstart).isInfix]
    · rename_i hstart
      rw [List.isPrefixOf_iff_prefix] at hstart
      rw [Option.map_eq_none_iff, ih, List.infix_cons_iff, not_or]
      exact (and_iff_right hstart).symm

theorem isCut_of_splitOnce (h : splitOnce sep s = some (before, after)) : IsCut sep s before after := by
  induction s generalizing before with
  | nil =>
    simp only [splitOnce] at h
    split at h
    · rename_i hsep
      obtain ⟨rfl, rfl⟩ := Prod.mk.inj (Option.some.inj h)
      subst hsep
      exact .head [] []
    · cases h
  | cons c s ih =>
    rw [splitOnce] at h
    split at h
    · rename_i hstart
      obtain ⟨rest, hrest⟩ := List.isPrefixOf_iff_prefix.mp hstart
      rw [← hrest, List.drop_left] at h
      obtain ⟨rfl, rfl⟩ := Prod.mk.inj (Option.some.inj h)
      exact hrest ▸ .head sep _
    · rename_i hstart
      rw [List.isPrefixOf_iff_prefix] at hstart
      obtain ⟨⟨before', after'⟩, hcut, heq⟩ := Option.map_eq_some_iff.mp h
      cases heq
      exact (ih hcut).cons hstart

theorem splitOnce_eq_some_iff : splitOnce sep s = some (before, after) ↔ IsCut sep s before after := by
  refine ⟨isCut_of_splitOnce, fun h => ?_⟩
  cases hcut : splitOnce sep s with
  | none => exact absurd ⟨before, after, by rw [List.append_assoc, h.eq]⟩ (splitOnce_eq_none_iff.mp hcut)
  | some parts =>
    obtain ⟨rfl, rfl⟩ := h.unique (isCut_of_splitOnce hcut)
    rfl

@[simp] theorem hasText_iff {sub s : String} : hasText sub s = true ↔ sub.toList <:+: s.toList := by
  rw [hasText, occurs, Option.isSome_iff_ne_none, ne_eq, splitOnce_eq_none_iff, not_not]

theorem cut?_eq_some_iff {sep s before after : String} :
    cut? sep s = some (before, after) ↔ IsCut sep.toList s.toList before.toList after.toList := by
  rw [← splitOnce_eq_some_iff, cut?, Option.map_eq_some_iff]
  constructor
  · rintro ⟨parts, hparts, heq⟩
    cases heq
    simpa using hparts
  · intro h
    exact ⟨_, h, by simp⟩

theorem cut?_eq_none_iff {sep s : String} : cut? sep s = none ↔ ¬sep.toList <:+: s.toList := by
  rw [cut?, Option.map_eq_none_iff, splitOnce_eq_none_iff]

/-! ### Joints -/

/-- No proper part that a text starts with is one that it ends with. -/
def Unbordered (sep : List Char) : Prop :=
  ∀ k ∈ List.range sep.length, k = 0 ∨ ¬sep.take k <:+ sep

instance (sep : List Char) : Decidable (Unbordered sep) :=
  inferInstanceAs (Decidable (∀ k ∈ List.range sep.length, k = 0 ∨ ¬sep.take k <:+ sep))

/-- What does not hold the character at a joint does not straddle it. -/
theorem infix_append_cons_iff {c : Char} (hc : c ∉ sep) : sep <:+: s ++ c :: t ↔ sep <:+: s ∨ sep <:+: t := by
  have hstart : ∀ {part : List Char}, part ⊆ sep → part <+: c :: t → part = [] := by
    intro part hpart hstarts
    rcases List.prefix_cons_iff.mp hstarts with hnil | ⟨more, rfl, -⟩
    · exact hnil
    · exact absurd (hpart List.mem_cons_self) hc
  rw [List.infix_append_iff, List.infix_cons_iff]
  constructor
  · rintro (hs | (hstarts | ht) | ⟨part, rest, rfl, hpart, hrest⟩)
    · exact .inl hs
    · rw [hstart (List.Subset.refl sep) hstarts]
      exact .inl List.nil_infix
    · exact .inr ht
    · rw [hstart (List.subset_append_right part rest) hrest, List.append_nil]
      exact .inl hpart.isInfix
  · rintro (hs | ht)
    · exact .inl hs
    · exact .inr (.inl (.inr ht))

/-- What has no character of a text does not reach into it. -/
theorem infix_append_iff_of_disjoint (h : ∀ c ∈ t, c ∉ sep) : sep <:+: s ++ t ↔ sep <:+: s := by
  induction t using List.reverseRecOn with
  | nil => rw [List.append_nil]
  | append_singleton t c ih =>
    rw [← List.append_assoc, infix_append_cons_iff (h c (by simp)), ih fun d hd => h d (List.mem_append_left _ hd)]
    exact ⟨fun hor => hor.elim id fun hnil => (List.infix_nil.mp hnil) ▸ List.nil_infix, .inl⟩

/-- What does not start with a character is found behind it, if at all. -/
theorem infix_cons_iff_of_head {c : Char} (h : sep.head? ≠ some c) : sep <:+: c :: t ↔ sep <:+: t := by
  rw [List.infix_cons_iff]
  refine ⟨fun hor => hor.elim (fun hstarts => ?_) id, .inr⟩
  rcases List.prefix_cons_iff.mp hstarts with rfl | ⟨rest, rfl, -⟩
  · exact List.nil_infix
  · exact absurd rfl h

/-- A first occurrence is where an unbordered text is put after one in which it does not occur. -/
theorem IsCut.of_unbordered (hsep : Unbordered sep) (hbefore : ¬sep <:+: before) (after : List Char) :
    IsCut sep (before ++ (sep ++ after)) before after := by
  refine ⟨rfl, fun {before' after'} heq => Nat.le_of_not_lt fun hshort => ?_⟩
  -- An earlier occurrence starts within `before`, and the rest of that is either too long or a border.
  rcases List.append_eq_append_iff.mp heq with ⟨more, hmore, -⟩ | ⟨more, rfl, hmore⟩
  · rw [hmore, List.length_append] at hshort
    omega
  · have hpos : 0 < more.length := by
      rw [List.length_append] at hshort
      omega
    rcases List.append_eq_append_iff.mp hmore with ⟨rest, rfl, -⟩ | ⟨border, hborder, hrest⟩
    · exact hbefore ⟨before', rest, by rw [List.append_assoc]⟩
    · have hlength : border.length < sep.length := by
        rw [hborder, List.length_append]
        omega
      have htake : sep.take border.length = border := by
        have hstarts := congrArg (List.take border.length) hrest
        rwa [List.take_left, List.take_append_of_le_length (Nat.le_of_lt hlength)] at hstarts
      rcases hsep border.length (List.mem_range.mpr hlength) with hnil | hnone
      · obtain rfl := List.length_eq_zero_iff.mp hnil
        rw [List.append_nil] at hborder
        exact hbefore (hborder ▸ (List.suffix_append before' more).isInfix)
      · exact hnone (htake.symm ▸ ⟨more, hborder.symm⟩)

theorem IsCut.of_strings {sep before : String} (hsep : Unbordered sep.toList)
    (hbefore : ¬sep.toList <:+: before.toList) (after : String) :
    IsCut sep.toList (before ++ sep ++ after).toList before.toList after.toList := by
  rw [String.toList_append, String.toList_append, List.append_assoc]
  exact .of_unbordered hsep hbefore after.toList

/-- What lacks the searched text and stands before a character that is none of its own does not matter
to the search. -/
theorem IsCut.guarded {c : Char} (hc : c ∉ sep) (hsep : sep ≠ []) (hs : ¬sep <:+: s)
    (h : IsCut sep t before after) : IsCut sep (s ++ c :: t) (s ++ c :: before) after := by
  have hstart : ∀ {u : List Char}, ¬sep <+: c :: u := by
    intro u hstarts
    obtain ⟨d, rest, rfl⟩ := List.exists_cons_of_ne_nil hsep
    exact hc ((List.cons_prefix_cons.mp hstarts).1 ▸ List.mem_cons_self)
  induction s with
  | nil => exact h.cons hstart
  | cons d s ih =>
    rw [List.infix_cons_iff, not_or] at hs
    refine (ih hs.2).cons fun hstarts => ?_
    -- A start of the text that reaches beyond `s` would hold the character.
    rcases List.prefix_or_prefix_of_prefix hstarts (List.prefix_append (d :: s) (c :: t)) with hshort | ⟨rest, rfl⟩
    · exact hs.1 hshort
    · cases rest with
      | nil => exact hs.1 (by simp)
      | cons e rest =>
        rw [← List.cons_append, List.prefix_append_right_inj, List.cons_prefix_cons] at hstarts
        exact hc (hstarts.1 ▸ List.mem_append_right _ List.mem_cons_self)

/-! ### What stands between two texts -/

/-- Whether `inner` is the part of a text between the first `start` and the first `stop` after it. -/
def Between (start stop text inner : List Char) : Prop :=
  ∃ before rest after, IsCut start text before rest ∧ IsCut stop rest inner after

theorem Between.unique {start stop text inner inner' : List Char} (h : Between start stop text inner)
    (h' : Between start stop text inner') : inner = inner' := by
  obtain ⟨_, _, _, hstart, hstop⟩ := h
  obtain ⟨_, _, _, hstart', hstop'⟩ := h'
  obtain ⟨-, rfl⟩ := hstart.unique hstart'
  exact (hstop.unique hstop').1

theorem between?_of_between {start stop text : String} {inner : List Char}
    (h : Between start.toList stop.toList text.toList inner) :
    between? start stop text = if trim inner = [] then none else some (String.ofList (trim inner)) := by
  obtain ⟨before, rest, after, hstart, hstop⟩ := h
  unfold between? cut?
  rw [splitOnce_eq_some_iff.mpr hstart]
  simp [splitOnce_eq_some_iff.mpr hstop, trimmed, String.isEmpty_iff]

theorem between?_of_not_between {start stop text : String}
    (h : ∀ inner, ¬Between start.toList stop.toList text.toList inner) : between? start stop text = none := by
  unfold between? cut?
  cases hstart : splitOnce start.toList text.toList with
  | none => rfl
  | some parts =>
    obtain ⟨before, rest⟩ := parts
    cases hstop : splitOnce stop.toList rest with
    | none => simp [hstop]
    | some parts =>
      exact absurd ⟨before, rest, parts.2, isCut_of_splitOnce hstart, isCut_of_splitOnce hstop⟩ (h parts.1)

end AdmissionWatch.Text
