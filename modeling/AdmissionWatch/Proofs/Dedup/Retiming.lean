import Mathlib.Data.List.Forall2
import AdmissionWatch.Proofs.Dedup.Readmission

/-!
# Windows at other times

Two windows are alike when they hold the same identifiers in the same order, whatever the moments at
which these came in (`Window.Alike`). Two readings of the clock cannot be told apart when an entry lives
at the one exactly if its counterpart lives at the other. Alike windows that are asked at such readings
answer the same and stay alike (`Window.Alike.enter`).
-/

namespace AdmissionWatch.Dedup

open Time

variable {M : Moment → Moment → Prop}

/-- Entries of the same identifiers in the same order, with moments that are related. -/
def Paired (M : Moment → Moment → Prop) (l l' : List (String × Moment)) : Prop :=
  List.Forall₂ (fun a b => a.1 = b.1 ∧ M a.2 b.2) l l'

namespace Paired
variable {l l' : List (String × Moment)}

theorem keys (h : Paired M l l') : l.map Prod.fst = l'.map Prod.fst := by
  induction h with
  | nil => rfl
  | cons hab _ ih => rw [List.map_cons, List.map_cons, hab.1, ih]

theorem totalCost (h : Paired M l l') : Dedup.totalCost l = Dedup.totalCost l' := by
  induction h with
  | nil => rfl
  | cons hab _ ih => rw [totalCost_cons, totalCost_cons, hab.1, ih]

theorem nil_iff (h : Paired M l l') : l = [] ↔ l' = [] := by
  cases h <;> simp

theorem dropWhile (h : Paired M l l') {p q : String × Moment → Bool} (hpq : ∀ a b, M a.2 b.2 → p a = q b) :
    Paired M (l.dropWhile p) (l'.dropWhile q) := by
  induction h with
  | nil => exact .nil
  | @cons a b rest rest' hab hrest ih =>
    rw [List.dropWhile_cons, List.dropWhile_cons, hpq a b hab.2]
    split
    · exact ih
    · exact .cons hab hrest

theorem longestSuffix (h : Paired M l l') {p : List (String × Moment) → Bool}
    (hp : ∀ l l', Paired M l l' → p l = p l') :
    Paired M (Dedup.longestSuffix p l) (Dedup.longestSuffix p l') := by
  induction h with
  | nil => exact .nil
  | cons hab hrest ih =>
    unfold Dedup.longestSuffix
    rw [hp _ _ (.cons hab hrest)]
    split
    · exact .cons hab hrest
    · exact ih

theorem concat (h : Paired M l l') (key : String) {now now' : Moment} (hnow : M now now') :
    Paired M (l ++ [(key, now)]) (l' ++ [(key, now')]) :=
  List.rel_append h (.cons ⟨rfl, hnow⟩ .nil)

end Paired

namespace Window

/-- Windows that hold the same identifiers in the same order. -/
structure Alike (M : Moment → Moment → Prop) (ttl : Span) (w v : Window) : Prop where
  coherent : Coherent w ∧ Coherent v
  ttl : w.ttl = ttl ∧ v.ttl = ttl
  maxBytes : w.maxBytes = v.maxBytes
  order : Paired M w.order v.order

namespace Alike
variable {ttl : Span} {w v : Window} {now now' : Moment}

theorem expire (h : Alike M ttl w v) (hlive : ∀ m m', M m m' → (m.elapsed now < ttl ↔ m'.elapsed now' < ttl)) :
    Alike M ttl (w.expire now) (v.expire now') where
  coherent := ⟨h.coherent.1.expire now, h.coherent.2.expire now'⟩
  ttl := ⟨(expire_ttl now w).trans h.ttl.1, (expire_ttl now' v).trans h.ttl.2⟩
  maxBytes := by rw [expire_maxBytes, expire_maxBytes, h.maxBytes]
  order := by
    rw [order_expire, order_expire]
    refine h.order.dropWhile fun a b hab => ?_
    simp [isLive, h.ttl.1, h.ttl.2, hlive _ _ hab]

theorem makeRoom (h : Alike M ttl w v) (c : Nat) : Alike M ttl (w.makeRoom c) (v.makeRoom c) where
  coherent := ⟨h.coherent.1.makeRoom c, h.coherent.2.makeRoom c⟩
  ttl := ⟨(makeRoom_ttl c w).trans h.ttl.1, (makeRoom_ttl c v).trans h.ttl.2⟩
  maxBytes := by rw [makeRoom_maxBytes, makeRoom_maxBytes, h.maxBytes]
  order := by
    rw [order_makeRoom h.coherent.1, order_makeRoom h.coherent.2, h.maxBytes]
    exact h.order.longestSuffix fun l l' hl => by rw [hl.totalCost, decide_eq_decide, hl.nil_iff]

theorem contains (h : Alike M ttl w v) (key : String) : w.entries.contains key = v.entries.contains key := by
  rw [Bool.eq_iff_iff, h.coherent.1.contains, h.coherent.2.contains, h.order.keys]

/-- What is looked up at readings that cannot be told apart is known in both windows or in none. -/
theorem enter (h : Alike M ttl w v) (key : String) (hnow : M now now')
    (hlive : ∀ m m', M m m' → (m.elapsed now < ttl ↔ m'.elapsed now' < ttl)) :
    (w.enter key now).1 = (v.enter key now').1 ∧ Alike M ttl (w.enter key now).2 (v.enter key now').2 := by
  have hexpired := h.expire hlive
  have hcoherent : Coherent (w.enter key now).2 ∧ Coherent (v.enter key now').2 :=
    ⟨h.coherent.1.enter key now, h.coherent.2.enter key now'⟩
  rcases enter_cases w key now with ⟨hknown, hw⟩ | ⟨hnew, hw⟩
  · rcases enter_cases v key now' with ⟨-, hv⟩ | ⟨hnew', -⟩
    · rw [hw, hv]
      exact ⟨rfl, hexpired⟩
    · rw [hexpired.contains, hnew'] at hknown
      cases hknown
  · rcases enter_cases v key now' with ⟨hknown', -⟩ | ⟨-, hv⟩
    · rw [hexpired.contains, hknown'] at hnew
      cases hnew
    · rw [hw, hv] at hcoherent ⊢
      have hroom := hexpired.makeRoom (cost key)
      exact ⟨rfl, hcoherent, hroom.ttl, hroom.maxBytes, hroom.order.concat key hnow⟩

end Alike

end Window

end AdmissionWatch.Dedup
