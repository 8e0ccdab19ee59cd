import AdmissionWatch.Proofs.Dedup.Coherence

/-!
# When an identifier is let in again

A window that has let an identifier in refuses it as long as the entry is there. Whatever the clock
reads, be it an earlier moment than before, an entry goes in two ways only: a check finds it too old,
or those that were let in after it need the bytes. Up to then it stands in the order with all that
came after it (`Stands`), so two checks of one identifier both let it in only if one of the two has
happened between them (`let_in_again`).
-/

namespace AdmissionWatch.Dedup

open Time

/-- A check of an identifier and what a window answered: whether it was new. -/
structure Check where
  id : String
  moment : Moment
  isNew : Bool
  deriving DecidableEq, Repr

/-- The entries that checks made. -/
def letIn (checks : List Check) : List (String × Moment) :=
  (checks.filter (·.isNew)).map fun c => (c.id, c.moment)

section LetIn
variable {c : Check} {rest : List Check}

theorem letIn_cons_of_new (hnew : c.isNew = true) : letIn (c :: rest) = (c.id, c.moment) :: letIn rest := by
  simp [letIn, hnew]

theorem letIn_cons_of_known (hknown : c.isNew = false) : letIn (c :: rest) = letIn rest := by
  simp [letIn, hknown]

end LetIn

namespace Window

/-- Checks are answered in turn as they say, and leave the window `w'`. -/
def Answers (w : Window) : List Check → Window → Prop
  | [], w' => w' = w
  | c :: rest, w' => (w.enter c.id c.moment).1 = c.isNew ∧ (w.enter c.id c.moment).2.Answers rest w'

theorem answers_append {w w'' : Window} {l₁ l₂ : List Check} :
    w.Answers (l₁ ++ l₂) w'' ↔ ∃ w', w.Answers l₁ w' ∧ w'.Answers l₂ w'' := by
  induction l₁ generalizing w with
  | nil => simp [Answers]
  | cons c rest ih =>
    rw [List.cons_append, Answers, ih]
    constructor
    · rintro ⟨hc, w', hrest, hl₂⟩
      exact ⟨w', ⟨hc, hrest⟩, hl₂⟩
    · rintro ⟨w', ⟨hc, hrest⟩, hl₂⟩
      exact ⟨hc, w', hrest, hl₂⟩

/-! ### One check -/

section Enter
variable {w : Window} {key : String} {now : Moment}

/-- What is known is left as expiry leaves it; what is new comes in after others have made room. -/
theorem enter_cases (w : Window) (key : String) (now : Moment) :
    ((w.expire now).entries.contains key = true ∧ w.enter key now = (false, w.expire now)) ∨
      ((w.expire now).entries.contains key = false ∧
        w.enter key now = (true, ((w.expire now).makeRoom (cost key)).push key now)) := by
  cases hknown : (w.expire now).entries.contains key with
  | true => exact .inl ⟨rfl, by simp [enter, hknown]⟩
  | false => exact .inr ⟨rfl, by simp [enter, hknown]⟩

@[simp] theorem enter_ttl (w : Window) (key : String) (now : Moment) : (w.enter key now).2.ttl = w.ttl := by
  rcases enter_cases w key now with ⟨-, h⟩ | ⟨-, h⟩
  · rw [h]
    exact expire_ttl now w
  · rw [h]
    exact (makeRoom_ttl _ _).trans (expire_ttl now w)

@[simp] theorem enter_maxBytes (w : Window) (key : String) (now : Moment) :
    (w.enter key now).2.maxBytes = w.maxBytes := by
  rcases enter_cases w key now with ⟨-, h⟩ | ⟨-, h⟩
  · rw [h]
    exact expire_maxBytes now w
  · rw [h]
    exact (makeRoom_maxBytes _ _).trans (expire_maxBytes now w)

theorem Coherent.enter (h : Coherent w) (key : String) (now : Moment) : Coherent (w.enter key now).2 := by
  rcases enter_cases w key now with ⟨-, henter⟩ | ⟨hnew, henter⟩
  · rw [henter]
    exact h.expire now
  · rw [henter]
    refine ((h.expire now).makeRoom _).push (fun hmem => ?_) now
    have hroom := order_makeRoom (h.expire now) (cost key)
    have hsub : ((w.expire now).makeRoom (cost key)).order <:+ (w.expire now).order :=
      hroom ▸ longestSuffix_suffix _ _
    rw [← Bool.not_eq_true, (h.expire now).contains] at hnew
    exact hnew ((hsub.map Prod.fst).subset hmem)

theorem Coherent.answers (h : Coherent w) {checks : List Check} {w' : Window} (hanswers : w.Answers checks w') :
    Coherent w' ∧ w'.ttl = w.ttl ∧ w'.maxBytes = w.maxBytes := by
  induction checks generalizing w with
  | nil =>
    subst hanswers
    exact ⟨h, rfl, rfl⟩
  | cons c rest ih =>
    obtain ⟨hw', httl, hmax⟩ := ih (h.enter c.id c.moment) hanswers.2
    exact ⟨hw', httl.trans (enter_ttl w _ _), hmax.trans (enter_maxBytes w _ _)⟩

end Enter

/-! ### An entry that stands -/

/-- An entry is in the order, followed by these. -/
structure Stands (e : String × Moment) (later : List (String × Moment)) (w : Window) : Prop where
  coherent : Coherent w
  suffix : e :: later <:+ w.order

namespace Stands
variable {e : String × Moment} {later : List (String × Moment)} {w : Window} {now : Moment}

/-- Expiry does not get past an entry that lives. -/
theorem expire (h : Stands e later w) (hlive : e.2.elapsed now < w.ttl) : Stands e later (w.expire now) where
  coherent := h.coherent.expire now
  suffix := by
    rw [order_expire]
    exact suffix_dropWhile h.suffix (by simp [isLive, hlive])

theorem refused (h : Stands e later w) (hlive : e.2.elapsed now < w.ttl) : (w.enter e.1 now).1 = false := by
  have hexpired := h.expire hlive
  have hknown : (w.expire now).entries.contains e.1 = true :=
    hexpired.coherent.contains e.1 |>.mpr (List.mem_map_of_mem (hexpired.suffix.subset List.mem_cons_self))
  rcases enter_cases w e.1 now with ⟨-, henter⟩ | ⟨hnew, -⟩
  · rw [henter]
  · rw [hknown] at hnew
    cases hnew

/-- A check lets an entry stand that lives and beside which there is room for what it lets in. -/
theorem check (h : Stands e later w) {c : Check} (hanswer : (w.enter c.id c.moment).1 = c.isNew)
    (hlive : e.2.elapsed c.moment < w.ttl)
    (hfits : c.isNew = true → totalCost (e :: later) + cost c.id ≤ w.maxBytes) :
    Stands e (later ++ letIn [c]) (w.enter c.id c.moment).2 := by
  have hexpired := h.expire hlive
  refine ⟨h.coherent.enter c.id c.moment, ?_⟩
  rcases enter_cases w c.id c.moment with ⟨-, henter⟩ | ⟨-, henter⟩
  · rw [henter] at hanswer ⊢
    rw [letIn_cons_of_known hanswer.symm]
    simpa [letIn] using hexpired.suffix
  · rw [henter] at hanswer ⊢
    rw [letIn_cons_of_new hanswer.symm]
    have hroom : totalCost (e :: later) + cost c.id ≤ (w.expire c.moment).maxBytes := by
      rw [expire_maxBytes]
      exact hfits hanswer.symm
    show (e :: later) ++ [(c.id, c.moment)] <:+ ((w.expire c.moment).makeRoom (cost c.id)).order ++ [(c.id, c.moment)]
    refine List.suffix_append_self_iff.mpr ?_
    rw [order_makeRoom hexpired.coherent]
    exact suffix_longestSuffix hexpired.suffix (decide_eq_true (.inr hroom))

/-- So do checks in turn. -/
theorem checks (h : Stands e later w) {checks : List Check} {w' : Window} (hanswers : w.Answers checks w')
    (hlive : ∀ c ∈ checks, e.2.elapsed c.moment < w.ttl)
    (hfits : letIn checks = [] ∨ totalCost (e :: (later ++ letIn checks)) ≤ w.maxBytes) :
    Stands e (later ++ letIn checks) w' := by
  induction checks generalizing w later with
  | nil =>
    subst hanswers
    simpa [letIn] using h
  | cons c rest ih =>
    obtain ⟨hanswer, hrest⟩ := hanswers
    have hone : letIn (c :: rest) = letIn [c] ++ letIn rest := by
      cases hnew : c.isNew <;> simp [letIn, hnew]
    have hnext : Stands e (later ++ letIn [c]) (w.enter c.id c.moment).2 := by
      refine h.check hanswer (hlive c List.mem_cons_self) fun hnew => ?_
      rcases hfits with hnone | hcost
      · rw [letIn_cons_of_new hnew] at hnone
        cases hnone
      · rw [letIn_cons_of_new hnew] at hcost
        simp only [totalCost_cons, totalCost_append] at hcost ⊢
        omega
    rw [hone, ← List.append_assoc]
    refine ih hnext hrest (fun c' hc' => ?_) ?_
    · rw [enter_ttl]
      exact hlive c' (List.mem_cons_of_mem c hc')
    · rw [enter_maxBytes, List.append_assoc, ← hone]
      rcases hfits with hnone | hcost
      · rw [hone] at hnone
        exact .inl (List.append_eq_nil_iff.mp hnone).2
      · exact .inr hcost

end Stands

/-- An identifier that was let in is let in again only if a check after that found its entry too old,
or if others were let in between and all of them together do not fit in the bytes. -/
theorem let_in_again {w w' : Window} (h : Coherent w) {id : String} {first again : Moment} {between : List Check}
    (hanswers : w.Answers (⟨id, first, true⟩ :: between ++ [⟨id, again, true⟩]) w') :
    (∃ c ∈ between ++ [⟨id, again, true⟩], w.ttl ≤ first.elapsed c.moment) ∨
      letIn between ≠ [] ∧ w.maxBytes < totalCost ((id, first) :: letIn between) := by
  obtain ⟨hfirst, hrest⟩ := hanswers
  obtain ⟨w₂, hbetween, hagain, -⟩ := answers_append.mp hrest
  have hstands : Stands (id, first) [] (w.enter id first).2 := by
    refine ⟨h.enter id first, ?_⟩
    rcases enter_cases w id first with ⟨-, henter⟩ | ⟨-, henter⟩
    · rw [henter] at hfirst
      cases hfirst
    · rw [henter]
      exact List.suffix_append _ _
  by_cases hold : ∃ c ∈ between ++ [⟨id, again, true⟩], w.ttl ≤ first.elapsed c.moment
  · exact .inl hold
  by_cases hover : letIn between ≠ [] ∧ w.maxBytes < totalCost ((id, first) :: letIn between)
  · exact .inr hover
  -- Otherwise the entry stands up to the last check, which refuses the identifier.
  have hlive : ∀ c ∈ between ++ [⟨id, again, true⟩], first.elapsed c.moment < w.ttl := fun c hc =>
    Nat.lt_of_not_le fun hle => hold ⟨c, hc, hle⟩
  have hfits : letIn between = [] ∨ totalCost ((id, first) :: letIn between) ≤ w.maxBytes := by
    by_cases hnone : letIn between = []
    · exact .inl hnone
    · exact .inr (Nat.le_of_not_lt fun hlt => hover ⟨hnone, hlt⟩)
  have hstill : Stands (id, first) ([] ++ letIn between) w₂ := by
    refine hstands.checks hbetween (fun c hc => ?_) ?_
    · rw [enter_ttl]
      exact hlive c (List.mem_append_left _ hc)
    · rw [enter_maxBytes]
      exact hfits
  have httl : w₂.ttl = w.ttl := ((h.enter id first).answers hbetween).2.1.trans (enter_ttl w id first)
  have hstays : first.elapsed again < w₂.ttl := by
    rw [httl]
    exact hlive ⟨id, again, true⟩ (List.mem_append_right _ List.mem_cons_self)
  have hrefused : (w₂.enter id again).1 = false := hstill.refused hstays
  rw [hagain] at hrefused
  cases hrefused

end Window

end AdmissionWatch.Dedup
