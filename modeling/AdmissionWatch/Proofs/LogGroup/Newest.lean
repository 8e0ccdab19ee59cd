import AdmissionWatch.Proofs.LogGroup.Cover

/-!
# Where cursors stand

A cursor stands at the newest of the entries that were looked at under its name, as long as that is in
the window (`Newest`). The name may be that of a log stream or one for several; what is looked at moves
the cursor of the one name only. So what was looked at before is at most as new as the start of the
next read, and where a cursor stands there is an entry that was looked at.
-/

namespace AdmissionWatch.LogGroup

open Time

/-- Entries with their places. -/
abbrev Located := Stored × Place

theorem newest?_located (found : List Located) :
    newest? (found.map fun f => f.1.entry f.2.1) = (found.map (·.1.time)).max? := by
  unfold newest?
  rw [List.filterMap_map]
  exact congrArg List.max? (List.filterMap_eq_map (f := fun f : Located => f.1.time) ▸ rfl)

/-- The cursors after these entries were looked at under a name. -/
def Cursors.afterLook (cursors : Cursors) (name : String) (taken : List Located) : Cursors :=
  ((taken.map (·.1.time)).max?.map (cursors.advance name)).getD cursors

namespace Service

/-- The cursor of a name stands at the newest entry that was looked at under it, unless that was too
old for the window of some poll; `nameOf` tells under which name a log stream is looked at. -/
structure Newest (nameOf : String → String) (s : Service) (cursors : Cursors) : Prop where
  reached : ∀ p ∈ s.processed, ∃ e, s.stored? p = some e ∧
    ((∃ c, cursors.position? (nameOf p.1) = some c ∧ e.time ≤ c) ∨ ∃ start ∈ s.starts, e.time < start)
  attained : ∀ c ∈ cursors, ∃ p ∈ s.processed, ∃ e, s.stored? p = some e ∧ e.time = c.2

namespace Newest
variable {nameOf : String → String} {s t : Service} {cursors : Cursors}

theorem create (nameOf : String → String) (logs : String → Log) (plan : Nat → Happening) (intake : Intake) :
    Newest nameOf { logs, plan, intake } [] where
  reached p hp := by cases hp
  attained c hc := by cases hc

theorem later (h : Newest nameOf s cursors) (hext : Extends s t) (hprocessed : t.processed = s.processed) :
    Newest nameOf t cursors where
  reached p hp := by
    obtain ⟨e, he, hcase⟩ := h.reached p (hprocessed ▸ hp)
    exact ⟨e, hext.stored? he, hext.starts ▸ hcase⟩
  attained c hc := by
    obtain ⟨p, hp, e, he, htime⟩ := h.attained c hc
    exact ⟨p, hprocessed ▸ hp, e, hext.stored? he, htime⟩

/-- With a new window the cursors that it leaves behind can be dropped. -/
theorem begin (h : Newest nameOf s cursors) (start : Int) :
    Newest nameOf { s with starts := start :: s.starts } (cursors.prune start) where
  reached p hp := by
    obtain ⟨e, he, hcase⟩ := h.reached p hp
    refine ⟨e, he, ?_⟩
    rcases hcase with ⟨c, hcursor, hle⟩ | ⟨a, ha, hold⟩
    · by_cases hkeep : start ≤ c
      · exact .inl ⟨c, Dict.get?_filter hcursor (decide_eq_true hkeep), hle⟩
      · exact .inr ⟨start, List.mem_cons_self, Int.lt_of_le_of_lt hle (Int.not_le.mp hkeep)⟩
    · exact .inr ⟨a, List.mem_cons_of_mem _ ha, hold⟩
  attained c hc := h.attained c (List.mem_filter.mp hc).1

/-- What is looked at under a name moves the cursor of that name to the newest of it. -/
theorem look (h : Newest nameOf s cursors) (hext : Extends s t) {name : String} {taken : List Located}
    (hstored : ∀ f ∈ taken, s.stored? f.2 = some f.1) (hname : ∀ f ∈ taken, nameOf f.2.1 = name)
    (hprocessed : t.processed = s.processed ++ taken.map (·.2)) : Newest nameOf t (cursors.afterLook name taken) := by
  unfold Cursors.afterLook
  cases hnewest : (taken.map (·.1.time)).max? with
  | none =>
    have hnone : taken = [] := List.map_eq_nil_iff.mp (List.max?_eq_none_iff.mp hnewest)
    subst hnone
    exact h.later hext (hprocessed.trans (List.append_nil _))
  | some time =>
    rw [Option.map_some, Option.getD_some]
    refine ⟨fun p hp => ?_, fun c hc => ?_⟩
    · obtain ⟨c, hcursor, htime, hlast⟩ := cursors.position?_advance name time
      rw [hprocessed] at hp
      rcases List.mem_append.mp hp with hp | hp
      · obtain ⟨e, he, hcase⟩ := h.reached p hp
        refine ⟨e, hext.stored? he, ?_⟩
        rcases hcase with ⟨c', hcursor', hle⟩ | hold
        · by_cases heq : name = nameOf p.1
          · subst heq
            exact .inl ⟨c, hcursor, Int.le_trans hle (hlast c' hcursor')⟩
          · exact .inl ⟨c', (cursors.position?_advance_of_ne heq time).trans hcursor', hle⟩
        · exact .inr (hext.starts ▸ hold)
      · obtain ⟨f, hf, rfl⟩ := List.mem_map.mp hp
        have hle : f.1.time ≤ time :=
          (List.max?_eq_some_iff.mp hnewest).2 _ (List.mem_map_of_mem (f := fun f : Located => f.1.time) hf)
        exact ⟨f.1, hext.stored? (hstored f hf), .inl ⟨c, hname f hf ▸ hcursor, Int.le_trans hle htime⟩⟩
    · rcases Cursors.advance_cases hc with rfl | hc
      · obtain ⟨f, hf, htime⟩ := List.mem_map.mp (List.max?_mem hnewest)
        refine ⟨f.2, ?_, f.1, hext.stored? (hstored f hf), htime⟩
        rw [hprocessed]
        exact List.mem_append_right _ (List.mem_map_of_mem (f := fun f : Located => f.2) hf)
      · obtain ⟨p, hp, e, he, htime⟩ := h.attained c hc
        exact ⟨p, hext.processed.subset hp, e, hext.stored? he, htime⟩

/-- Nothing that was looked at under a name is newer than the start of the next read. -/
theorem time_le_startFor (h : Newest nameOf s cursors) {start : Int}
    (hlatest : ∀ a ∈ s.starts, a ≤ start) {p : Place} (hp : p ∈ s.processed) {e : Stored}
    (he : s.stored? p = some e) : e.time ≤ cursors.startFor (nameOf p.1) start := by
  obtain ⟨e', he', hcase⟩ := h.reached p hp
  obtain rfl : e' = e := Option.some.inj (he'.symm.trans he)
  rcases hcase with ⟨c, hcursor, hle⟩ | ⟨a, ha, hold⟩
  · exact Int.le_trans hle (Cursors.position?_le_startFor hcursor start)
  · have hle := Cursors.le_startFor cursors (nameOf p.1) start
    have hbefore := hlatest a ha
    omega

end Newest

end Service

end AdmissionWatch.LogGroup
