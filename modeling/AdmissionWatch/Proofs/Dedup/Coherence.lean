import AdmissionWatch.Dedup.Window
import AdmissionWatch.Proofs.Basics
import Mathlib.Algebra.GroupWithZero.Nat

/-!
# The map and the order of a window

A window keeps its entries twice, in a map and in the order in which they came, and counts their
bytes along. Whatever the clock reads, every operation keeps the three in step (`Coherent`). What
an operation leaves of the order is a suffix of it, the longest one with a property: `expire` stops
at the first entry that lives, `makeRoom` at the first suffix beside which the cost fits.
-/

namespace AdmissionWatch.Dedup

open Time

/-! ### Suffixes -/

/-- The longest suffix with a property; the empty list if there is none. -/
def longestSuffix {α : Type} (p : List α → Bool) : List α → List α
  | [] => []
  | a :: rest => if p (a :: rest) then a :: rest else longestSuffix p rest

section Suffix
variable {α : Type} {p : List α → Bool}

theorem longestSuffix_of_pos {l : List α} (h : p l = true) : longestSuffix p l = l := by
  cases l with
  | nil => rfl
  | cons a rest => simp [longestSuffix, h]

theorem longestSuffix_cons_of_neg {a : α} {rest : List α} (h : ¬p (a :: rest) = true) :
    longestSuffix p (a :: rest) = longestSuffix p rest := by
  simp [longestSuffix, h]

theorem longestSuffix_suffix (p : List α → Bool) (l : List α) : longestSuffix p l <:+ l := by
  induction l with
  | nil => exact List.suffix_rfl
  | cons a rest ih =>
    unfold longestSuffix
    split
    · exact List.suffix_rfl
    · exact ih.trans (List.suffix_cons a rest)

theorem longestSuffix_holds (hnil : p [] = true) (l : List α) : p (longestSuffix p l) = true := by
  induction l with
  | nil => exact hnil
  | cons a rest ih =>
    unfold longestSuffix
    split
    · assumption
    · exact ih

/-- No suffix with the property is longer. -/
theorem suffix_longestSuffix {s l : List α} (hs : s <:+ l) (hp : p s = true) : s <:+ longestSuffix p l := by
  induction l with
  | nil => exact hs
  | cons a rest ih =>
    unfold longestSuffix
    split
    · exact hs
    · rename_i hne
      rcases List.suffix_cons_iff.mp hs with rfl | hs
      · exact absurd hp hne
      · exact ih hs

/-- A suffix with the property that no other exceeds is the longest one. -/
theorem eq_longestSuffix (hnil : p [] = true) {s l : List α} (hs : s <:+ l) (hp : p s = true)
    (hmax : ∀ s', s' <:+ l → p s' = true → s' <:+ s) : s = longestSuffix p l := by
  have hle := suffix_longestSuffix hs hp
  have hge := hmax _ (longestSuffix_suffix p l) (longestSuffix_holds hnil l)
  exact hle.eq_of_length_le hge.length_le

end Suffix

/-! ### What entries cost -/

/-- What entries cost together. -/
def totalCost (entries : List (String × Moment)) : Nat :=
  (entries.map fun e => Window.cost e.1).sum

@[simp] theorem totalCost_nil : totalCost [] = 0 := rfl

@[simp] theorem totalCost_cons (e : String × Moment) (rest : List (String × Moment)) :
    totalCost (e :: rest) = Window.cost e.1 + totalCost rest := by
  simp [totalCost]

@[simp] theorem totalCost_append (l₁ l₂ : List (String × Moment)) :
    totalCost (l₁ ++ l₂) = totalCost l₁ + totalCost l₂ := by
  simp [totalCost]

theorem totalCost_le_of_suffix {s l : List (String × Moment)} (h : s <:+ l) : totalCost s ≤ totalCost l := by
  obtain ⟨t, rfl⟩ := h
  simp

namespace Window

/-! ### Coherence -/

/-- The map and the order hold the same entries, one an identifier, and the bytes are what these
cost. -/
structure Coherent (w : Window) : Prop where
  nodup : (w.order.map Prod.fst).Nodup
  get : ∀ key moment, w.entries[key]? = some moment ↔ (key, moment) ∈ w.order
  size : w.entries.size = w.order.length
  bytes : w.bytes = totalCost w.order

namespace Coherent
variable {w : Window}

theorem empty (ttl : Span) (maxBytes : Nat) : Coherent (.empty ttl maxBytes) where
  nodup := List.nodup_nil
  get key moment := by simp [Window.empty]
  size := by simp [Window.empty]
  bytes := rfl

theorem contains (h : Coherent w) (key : String) : w.entries.contains key = true ↔ key ∈ w.order.map Prod.fst := by
  rw [Std.HashMap.contains_eq_isSome_getElem?, Option.isSome_iff_exists, List.mem_map]
  constructor
  · rintro ⟨moment, hm⟩
    exact ⟨(key, moment), (h.get key moment).mp hm, rfl⟩
  · rintro ⟨⟨k, moment⟩, hm, rfl⟩
    exact ⟨moment, (h.get k moment).mpr hm⟩

/-- The oldest entry is the one that the map holds under its identifier, so both lose it. -/
theorem dropOldest (h : Coherent w) : Coherent w.dropOldest := by
  unfold Window.dropOldest
  split
  · exact h
  · rename_i key moment rest horder
    have hget : w.entries[key]? = some moment := (h.get key moment).mpr (by simp [horder])
    have hnodup := h.nodup
    rw [horder, List.map_cons, List.nodup_cons] at hnodup
    have hmem : key ∈ w.entries := Std.HashMap.mem_iff_isSome_getElem?.mpr (by simp [hget])
    refine ⟨hnodup.2, fun k m => ?_, ?_, ?_⟩
    · simp only [hget, ↓reduceIte, Std.HashMap.getElem?_erase, beq_iff_eq]
      by_cases hk : key = k
      · subst hk
        have : (key, m) ∉ rest := fun hm => hnodup.1 (List.mem_map.mpr ⟨_, hm, rfl⟩)
        simp [this]
      · rw [if_neg hk, h.get k m, horder]
        simp [Ne.symm hk]
    · simp only [hget, ↓reduceIte, Std.HashMap.size_erase, hmem]
      rw [h.size, horder]
      rfl
    · show w.bytes - cost key = totalCost rest
      rw [h.bytes, horder, totalCost_cons]
      exact Nat.add_sub_cancel_left _ _

theorem expire (h : Coherent w) (now : Moment) : Coherent (w.expire now) := by
  fun_induction Window.expire now w with
  | case1 => exact h
  | case2 => exact h
  | case3 w _ _ _ _ _ ih => exact ih h.dropOldest

theorem makeRoom (h : Coherent w) (c : Nat) : Coherent (w.makeRoom c) := by
  fun_induction Window.makeRoom c w with
  | case1 => exact h
  | case2 w _ _ _ _ ih => exact ih h.dropOldest
  | case3 => exact h

/-- A new identifier comes into both. -/
theorem push (h : Coherent w) {key : String} (hnew : key ∉ w.order.map Prod.fst) (now : Moment) :
    Coherent (w.push key now) := by
  have hmem : key ∉ w.entries := fun hm => hnew ((h.contains key).mp hm)
  refine ⟨?_, fun k m => ?_, ?_, ?_⟩
  · simp only [Window.push, List.map_append, List.map_cons, List.map_nil]
    exact List.nodup_append.mpr ⟨h.nodup, by simp, fun a ha b hb => by
      rw [List.mem_singleton.mp hb]
      exact fun hab => hnew (hab ▸ ha)⟩
  · simp only [Window.push, Std.HashMap.getElem?_insert, beq_iff_eq, List.mem_append,
      List.mem_singleton, Prod.mk.injEq]
    by_cases hk : key = k
    · subst hk
      have : (key, m) ∉ w.order := fun hm => hnew (List.mem_map.mpr ⟨_, hm, rfl⟩)
      simp [this, eq_comm]
    · simp [hk, Ne.symm hk, h.get k m]
  · simp [Window.push, Std.HashMap.size_insert, hmem, h.size]
  · simp [Window.push, h.bytes]

end Coherent

/-! ### What is left of the order -/

section Order
variable {w : Window}

@[simp] theorem dropOldest_ttl (w : Window) : w.dropOldest.ttl = w.ttl := by
  unfold dropOldest
  split <;> rfl

@[simp] theorem dropOldest_maxBytes (w : Window) : w.dropOldest.maxBytes = w.maxBytes := by
  unfold dropOldest
  split <;> rfl

@[simp] theorem dropOldest_order (w : Window) : w.dropOldest.order = w.order.tail := by
  unfold dropOldest
  split <;> simp_all

@[simp] theorem expire_ttl (now : Moment) (w : Window) : (w.expire now).ttl = w.ttl := by
  fun_induction expire now w <;> simp_all

@[simp] theorem expire_maxBytes (now : Moment) (w : Window) : (w.expire now).maxBytes = w.maxBytes := by
  fun_induction expire now w <;> simp_all

@[simp] theorem makeRoom_ttl (c : Nat) (w : Window) : (w.makeRoom c).ttl = w.ttl := by
  fun_induction makeRoom c w <;> simp_all

@[simp] theorem makeRoom_maxBytes (c : Nat) (w : Window) : (w.makeRoom c).maxBytes = w.maxBytes := by
  fun_induction makeRoom c w <;> simp_all

/-- Expiry drops entries up to the first that lives. -/
theorem order_expire (now : Moment) (w : Window) :
    (w.expire now).order = w.order.dropWhile fun e => !w.isLive now e.2 := by
  fun_induction expire now w with
  | case1 w horder => simp [horder]
  | case2 w key moment rest horder hlive => simp [horder, hlive]
  | case3 w key moment rest horder hlive ih =>
    rw [ih, horder, dropOldest_order, horder, List.dropWhile_cons_of_pos (by simpa using hlive)]
    simp only [List.tail_cons, isLive, dropOldest_ttl]

/-- What is left after room has been made for a cost is the longest suffix beside which it fits. -/
theorem order_makeRoom (h : Coherent w) (c : Nat) :
    (w.makeRoom c).order = longestSuffix (fun s => decide (s = [] ∨ totalCost s + c ≤ w.maxBytes)) w.order := by
  fun_induction makeRoom c w with
  | case1 w horder => simp [horder, longestSuffix]
  | case2 w e rest horder hover ih =>
    have hno : ¬(w.order = [] ∨ totalCost w.order + c ≤ w.maxBytes) := by
      rw [← h.bytes, horder]
      simp only [reduceCtorEq, false_or]
      omega
    rw [ih h.dropOldest, dropOldest_order, dropOldest_maxBytes, horder, List.tail_cons]
    rw [horder] at hno
    rw [longestSuffix_cons_of_neg (by simpa using hno)]
  | case3 w e rest horder hover =>
    have hyes : w.order = [] ∨ totalCost w.order + c ≤ w.maxBytes := by
      rw [← h.bytes]
      omega
    rw [longestSuffix_of_pos (decide_eq_true hyes)]

end Order

end Window

end AdmissionWatch.Dedup
