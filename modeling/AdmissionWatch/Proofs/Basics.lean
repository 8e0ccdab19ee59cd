import Mathlib.Algebra.Order.Group.Int
import Mathlib.Data.List.Basic

/-!
# Lists and results

Facts about lists and about results that say nothing of a watcher. Where the library has a general
lemma it is used directly; these are what is asked for in this form by more than one argument, or
what an argument would be lost in.
-/

namespace AdmissionWatch

variable {α β ε : Type}

/-! ### Results -/

theorem map_eq_ok_iff {x : Except ε α} {f : α → β} {b : β} :
    x.map f = .ok b ↔ ∃ a, x = .ok a ∧ f a = b := by
  cases x with
  | error e => exact ⟨fun h => (nomatch h), fun ⟨_, h, _⟩ => (nomatch h)⟩
  | ok a =>
    exact ⟨fun h => ⟨a, rfl, Except.ok.inj h⟩,
      fun ⟨_, ha, hf⟩ => Except.ok.inj ha ▸ congrArg Except.ok hf⟩

theorem toOption_eq_some_iff {x : Except ε α} {a : α} : x.toOption = some a ↔ x = .ok a := by
  cases x <;> simp [Except.toOption]

/-! ### Heads and tails -/

section
variable {l : List α} {p : α → Bool}

/-- Where what has a property is followed only by such, dropping what comes before is filtering. -/
theorem dropWhile_not_eq_filter (h : l.Pairwise fun a b => p a = true → p b = true) :
    (l.dropWhile fun a => !p a) = l.filter p := by
  induction l with
  | nil => rfl
  | cons a rest ih =>
    rw [List.pairwise_cons] at h
    by_cases hp : p a = true
    · have hall : ∀ b ∈ a :: rest, p b = true := by
        intro b hb
        rcases List.mem_cons.mp hb with rfl | hb
        · exact hp
        · exact h.1 b hb hp
      rw [List.filter_eq_self.mpr hall, List.dropWhile_cons_of_neg (by simp [hp])]
    · rw [List.filter_cons_of_neg hp, List.dropWhile_cons_of_pos (by simpa using hp)]
      exact ih h.2

/-- What is dropped from the front of a list ends before the first member that is kept. -/
theorem suffix_dropWhile {a : α} {s : List α} (hs : a :: s <:+ l) (ha : p a = false) : a :: s <:+ l.dropWhile p := by
  obtain ⟨before, rfl⟩ := hs
  induction before with
  | nil =>
    exact ⟨[], by rw [List.nil_append, List.dropWhile_cons_of_neg (by simp [ha])]⟩
  | cons b before ih =>
    rw [List.cons_append, List.dropWhile_cons]
    split
    · exact ih
    · exact (List.suffix_append before (a :: s)).trans (List.suffix_cons b _)

theorem takeWhile_ne [DecidableEq α] {a : α} (ha : a ∉ l) (rest : List α) :
    (l ++ a :: rest).takeWhile (· ≠ a) = l := by
  have hkept : ∀ b ∈ l, decide (b ≠ a) = true := fun b hb => decide_eq_true (ne_of_mem_of_not_mem hb ha)
  rw [List.takeWhile_append_of_pos hkept, List.takeWhile_cons_of_neg (by simp), List.append_nil]

/-- In an order, what may not stand after a member of the head is in the head as well. -/
theorem mem_take_of_not_rel {R : α → α → Prop} (hsorted : l.Pairwise R) {n : Nat} {a b : α} (ha : a ∈ l.take n)
    (hb : b ∈ l) (hrel : ¬ R a b) : b ∈ l.take n := by
  rw [← List.take_append_drop n l] at hsorted hb
  rcases List.mem_append.mp hb with hb | hb
  · exact hb
  · exact absurd ((List.pairwise_append.mp hsorted).2.2 a ha b hb) hrel

/-- When the old members of a list stand before the new ones, the head of the list has a new one
exactly when it is longer than the old ones are many. -/
theorem exists_new_mem_take_iff {old : α → Bool} (hfirst : l.Pairwise fun a b => old b = true → old a = true)
    (hnew : ∃ a ∈ l, old a = false) (n : Nat) : (∃ a ∈ l.take n, old a = false) ↔ l.countP old < n := by
  induction l generalizing n with
  | nil =>
    obtain ⟨a, ha, -⟩ := hnew
    cases ha
  | cons a rest ih =>
    obtain ⟨hhead, hrest⟩ := List.pairwise_cons.mp hfirst
    cases n with
    | zero =>
      rw [List.take_zero]
      exact ⟨fun ⟨_, hb, _⟩ => absurd hb List.not_mem_nil, fun hlt => absurd hlt (Nat.not_lt_zero _)⟩
    | succ n =>
      cases hold : old a with
      | true =>
        have hskip : ∀ t : List α, (∃ b ∈ a :: t, old b = false) ↔ ∃ b ∈ t, old b = false := by simp [hold]
        rw [List.take_succ_cons, hskip, List.countP_cons_of_pos hold, Nat.add_lt_add_iff_right]
        exact ih hrest ((hskip rest).mp hnew) n
      | false =>
        -- After a new one there are no old ones.
        have hnone : rest.countP old = 0 := List.countP_eq_zero.mpr fun b hb hbold => by
          have hcontra := hhead b hb hbold
          rw [hold] at hcontra
          cases hcontra
        rw [List.countP_cons_of_neg (by simp [hold]), hnone]
        exact ⟨fun _ => Nat.succ_pos n, fun _ => ⟨a, List.mem_cons_self, hold⟩⟩

end

/-! ### Counting -/

theorem countP_or {p q : α → Bool} (hdisjoint : ∀ a, p a = true → q a = false) (l : List α) :
    (l.countP fun a => p a || q a) = l.countP p + l.countP q := by
  induction l with
  | nil => rfl
  | cons a rest ih =>
    simp only [List.countP_cons, ih]
    cases hp : p a with
    | false => simp [Nat.add_assoc]
    | true =>
      simp [hdisjoint a hp]
      omega

/-- Only the member that is replaced makes a difference. -/
theorem exists_countP_set {p : α → Bool} {l : List α} {position : Nat} {a : α} (h : l[position]? = some a) :
    ∃ others, l.countP p = others + (p a).toNat ∧ ∀ b, (l.set position b).countP p = others + (p b).toNat := by
  obtain ⟨hlt, rfl⟩ := List.getElem?_eq_some_iff.mp h
  refine ⟨l.countP p - (p l[position]).toNat, (Nat.sub_add_cancel ?_).symm, fun b => ?_⟩
  · cases hp : p l[position] with
    | false => exact Nat.zero_le _
    | true => exact List.countP_pos_iff.mpr ⟨_, List.getElem_mem hlt, hp⟩
  · rw [List.countP_set hlt]
    cases p l[position] <;> cases p b <;> rfl

/-! ### Numbers -/

theorem max?_append (l m : List Int) : (l ++ m).max? = (l.max?.toList ++ m.max?.toList).max? := by
  induction l with
  | nil => cases h : m.max? <;> simp [h]
  | cons a l ih =>
    rw [List.cons_append, List.max?_cons, List.max?_cons, ih]
    cases l.max? <;> cases m.max? <;> simp [List.max?_cons, max_assoc]

/-- What equals the first of a list that grows can be put after it. -/
theorem pairwise_le_of_same {a : Int} {same rest : List Int} (hsame : ∀ b ∈ same, b = a)
    (h : (a :: rest).Pairwise (· ≤ ·)) : (a :: (same ++ rest)).Pairwise (· ≤ ·) := by
  induction same with
  | nil => exact h
  | cons b same ih =>
    obtain ⟨rfl, hothers⟩ := List.forall_mem_cons.mp hsame
    have hrest := ih hothers
    exact List.pairwise_cons.mpr ⟨List.forall_mem_cons.mpr ⟨le_refl _, (List.pairwise_cons.mp hrest).1⟩, hrest⟩

end AdmissionWatch
