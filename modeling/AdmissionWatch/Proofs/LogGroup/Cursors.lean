import AdmissionWatch.LogGroup.Cursors
import AdmissionWatch.Proofs.Dict

/-!
# Single cursors

A cursor that is told to move to a time stands there or further on, and a read starts at the cursor or
with the window, whichever is later.
-/

namespace AdmissionWatch.LogGroup

namespace Cursors
variable {cursors : Cursors}

theorem position?_advance_of_ne (cursors : Cursors) {name name' : String} (hne : name ≠ name') (time : Int) :
    (cursors.advance name time).position? name' = cursors.position? name' :=
  (Dict.get?_insert cursors name name' _).trans (if_neg hne)

/-- A cursor that moves does not move back, nor stop short. -/
theorem position?_advance (cursors : Cursors) (name : String) (time : Int) :
    ∃ c, (cursors.advance name time).position? name = some c ∧ time ≤ c ∧
      ∀ last, cursors.position? name = some last → last ≤ c := by
  refine ⟨_, (Dict.get?_insert cursors name name _).trans (if_pos rfl), Int.le_max_right _ _, fun last hlast => ?_⟩
  rw [hlast, Option.getD_some]
  exact Int.le_max_left _ _

/-- A cursor that moves comes to stand where it is told, unless it stood further on. -/
theorem advance_cases {name : String} {time : Int} {c : String × Int} (hc : c ∈ cursors.advance name time) :
    c = (name, time) ∨ c ∈ cursors := by
  rcases Dict.mem_insert hc with rfl | hc
  · cases hcursor : cursors.position? name with
    | none =>
      rw [Option.getD_none, Int.max_self]
      exact .inl rfl
    | some last =>
      rw [Option.getD_some]
      rcases Int.le_total last time with hle | hle
      · rw [Int.max_eq_right hle]
        exact .inl rfl
      · rw [Int.max_eq_left hle]
        exact .inr (Dict.mem_of_get? hcursor)
  · exact .inr hc

theorem le_startFor (cursors : Cursors) (name : String) (start : Int) : start ≤ cursors.startFor name start := by
  unfold startFor
  split
  · exact Int.le_max_right _ _
  · exact Int.le_refl _

theorem position?_le_startFor {name : String} {c : Int} (hcursor : cursors.position? name = some c) (start : Int) :
    c ≤ cursors.startFor name start := by
  unfold startFor
  rw [hcursor]
  exact Int.le_max_left _ _

/-- A read starts with the window or at the cursor. -/
theorem startFor_cases (cursors : Cursors) (name : String) (start : Int) :
    cursors.startFor name start = start ∨ cursors.position? name = some (cursors.startFor name start) := by
  unfold startFor
  split
  · rename_i last hcursor
    rcases Int.le_total last start with hle | hle
    · exact .inl (Int.max_eq_right hle)
    · rw [Int.max_eq_left hle]
      exact .inr hcursor
  · exact .inl rfl

end Cursors

end AdmissionWatch.LogGroup
