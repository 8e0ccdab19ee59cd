import AdmissionWatch.Proofs.Dedup.Journal
import AdmissionWatch.Proofs.Dedup.Readmission
import Mathlib.Data.List.Induction

/-!
# The changes of a window, one by one

A call changes a window in steps: it drops some entries, the oldest first, and may then push a new one
(`Window.acts`). A change is made only of a window that takes it: something can be dropped, and what is
pushed is new and fits, or is alone (`Window.Takes`). So whatever the clock reads, the map, the order and
the bytes are in step before and after every change, also amid a call, and what is dropped is what the
map holds under its identifier (`changes_keep_in_step`).
-/

namespace AdmissionWatch.Dedup

open Time

/-- One change of a window. -/
inductive Act where
  /-- The oldest entry goes. -/
  | drop
  /-- An entry comes in as the newest. -/
  | push (key : String) (now : Moment)
  deriving DecidableEq, Repr

/-- The identifier that comes in by a change. -/
def Act.pushed? : Act → Option String
  | drop => none
  | push key _ => some key

/-- The identifier that came in last. -/
def newest? (acts : List Act) : Option String := (acts.filterMap Act.pushed?).getLast?

@[simp] theorem newest?_drop (acts : List Act) : newest? (acts ++ [.drop]) = newest? acts := by
  simp [newest?, Act.pushed?]

@[simp] theorem newest?_push (acts : List Act) (key : String) (now : Moment) :
    newest? (acts ++ [.push key now]) = some key := by
  simp [newest?, Act.pushed?]

namespace Window

/-- The window after a change. -/
def act (w : Window) : Act → Window
  | .drop => w.dropOldest
  | .push key now => w.push key now

/-- The drops that lead from a window to one with no more entries. -/
def drops (w w' : Window) : List Act := List.replicate (w.order.length - w'.order.length) .drop

/-- The changes that a call comes to. -/
def callActs (w : Window) (now : Moment) : Call → List Act
  | .enter key =>
    let young := w.expire now
    w.drops young ++
      if young.entries.contains key then [] else young.drops (young.makeRoom (cost key)) ++ [.push key now]
  | .contains _ => []
  | .size => w.drops (w.expire now)

/-- The changes that calls come to, in turn. -/
def acts (w : Window) : List (Moment × Call) → List Act
  | [] => []
  | (now, call) :: rest => w.callActs now call ++ (w.answer now call).2.acts rest

/-! ### What a change asks of a window -/

/-- Whether a window is one of which a change is made. -/
def Takes (w : Window) : Act → Prop
  | .drop => w.order ≠ []
  | .push key _ => key ∉ w.order.map Prod.fst ∧ (w.order = [] ∨ w.bytes + cost key ≤ w.maxBytes)

/-- Whether changes are made in turn of windows that take them. -/
def TakesAll (w : Window) : List Act → Prop
  | [] => True
  | a :: rest => w.Takes a ∧ (w.act a).TakesAll rest

theorem takesAll_append {w : Window} {l₁ l₂ : List Act} :
    w.TakesAll (l₁ ++ l₂) ↔ w.TakesAll l₁ ∧ (l₁.foldl act w).TakesAll l₂ := by
  induction l₁ generalizing w with
  | nil => simp [TakesAll]
  | cons a rest ih => simp [TakesAll, ih, and_assoc]

/-! ### Loops that drop -/

/-- A window comes of another by dropping entries, as long as there are any. -/
inductive DropsTo : Window → Window → Prop where
  | refl (w : Window) : DropsTo w w
  | drop {w w' : Window} (hsome : w.order ≠ []) (hrest : DropsTo w.dropOldest w') : DropsTo w w'

theorem dropsTo_expire (now : Moment) (w : Window) : DropsTo w (w.expire now) := by
  fun_induction expire now w with
  | case1 w => exact .refl w
  | case2 w => exact .refl w
  | case3 w _ _ _ horder _ ih => exact .drop (by simp [horder]) ih

theorem dropsTo_makeRoom (c : Nat) (w : Window) : DropsTo w (w.makeRoom c) := by
  fun_induction makeRoom c w with
  | case1 w => exact .refl w
  | case2 w _ _ horder _ ih => exact .drop (by simp [horder]) ih
  | case3 w => exact .refl w

namespace DropsTo
variable {w w' : Window}

theorem length_le (h : DropsTo w w') : w'.order.length ≤ w.order.length := by
  induction h with
  | refl => exact Nat.le_refl _
  | drop _ _ ih =>
    rw [length_order_dropOldest] at ih
    omega

/-- The loop makes as many drops as it takes entries away. -/
theorem drops_eq (hsome : w.order ≠ []) (hrest : DropsTo w.dropOldest w') :
    w.drops w' = .drop :: w.dropOldest.drops w' := by
  have hle := hrest.length_le
  have hpos := List.length_pos_iff.mpr hsome
  rw [length_order_dropOldest] at hle
  have hmore : w.order.length - w'.order.length = w.order.length - 1 - w'.order.length + 1 := by omega
  rw [drops, drops, length_order_dropOldest, hmore, List.replicate_succ]

theorem takesAll (h : DropsTo w w') : w.TakesAll (w.drops w') ∧ (w.drops w').foldl act w = w' := by
  induction h with
  | refl w => simp [drops, TakesAll]
  | drop hsome hrest ih =>
    rw [drops_eq hsome hrest]
    exact ⟨⟨hsome, ih.1⟩, ih.2⟩

end DropsTo

/-- Where room has been made for a cost, it fits or there is nothing else. -/
theorem makeRoom_fits (c : Nat) (w : Window) : (w.makeRoom c).order = [] ∨
    (w.makeRoom c).bytes + c ≤ w.maxBytes := by
  fun_induction makeRoom c w with
  | case1 w horder => exact .inl horder
  | case2 w _ _ _ _ ih => rwa [dropOldest_maxBytes] at ih
  | case3 w _ _ _ hfits => exact .inr (Nat.le_of_not_lt hfits)

/-! ### Calls -/

section
variable {w : Window}

theorem foldl_callActs (w : Window) (now : Moment) (call : Call) :
    (w.callActs now call).foldl act w = (w.answer now call).2 := by
  cases call with
  | enter key =>
    show (w.callActs now (.enter key)).foldl act w = (w.enter key now).2
    unfold callActs
    rw [List.foldl_append, (dropsTo_expire now w).takesAll.2]
    rcases enter_cases w key now with ⟨hknown, henter⟩ | ⟨hnew, henter⟩
    · simp [henter, hknown]
    · simp [henter, hnew, (dropsTo_makeRoom (cost key) (w.expire now)).takesAll.2, act]
  | contains key => rfl
  | size => exact (dropsTo_expire now w).takesAll.2

/-- Where nothing has to go, a new entry just comes in. -/
theorem callActs_of_room {now : Moment} {key : String} (hlive : w.expire now = w) (hroom : w.makeRoom (cost key) = w)
    (hnew : w.entries.contains key = false) : w.callActs now (.enter key) = [.push key now] := by
  simp [callActs, hlive, hroom, hnew, drops]

theorem Coherent.takesAll_callActs (h : Coherent w) (now : Moment) (call : Call) :
    w.TakesAll (w.callActs now call) := by
  have hexpired := dropsTo_expire now w
  cases call with
  | enter key =>
    refine takesAll_append.mpr ⟨hexpired.takesAll.1, ?_⟩
    rw [hexpired.takesAll.2]
    split
    · trivial
    · rename_i hnew
      have hroom := dropsTo_makeRoom (cost key) (w.expire now)
      refine takesAll_append.mpr ⟨hroom.takesAll.1, ?_⟩
      rw [hroom.takesAll.2]
      refine ⟨⟨fun hmem => hnew ?_, ?_⟩, trivial⟩
      · -- Making room leaves nothing that was not there before.
        have hsub : ((w.expire now).makeRoom (cost key)).order <:+ (w.expire now).order := by
          rw [order_makeRoom (h.expire now)]
          exact longestSuffix_suffix _ _
        exact ((h.expire now).contains key).mpr ((hsub.map Prod.fst).subset hmem)
      · rw [makeRoom_maxBytes]
        exact makeRoom_fits (cost key) (w.expire now)
  | contains key => trivial
  | size => exact hexpired.takesAll.1

theorem Coherent.answer (h : Coherent w) (now : Moment) (call : Call) : Coherent (w.answer now call).2 := by
  cases call with
  | enter key => exact h.enter key now
  | contains key => exact h
  | size => exact h.expire now

theorem foldl_acts (w : Window) (calls : List (Moment × Call)) : (w.acts calls).foldl act w = (w.run calls).2 := by
  induction calls generalizing w with
  | nil => rfl
  | cons c rest ih =>
    obtain ⟨now, call⟩ := c
    rw [acts, List.foldl_append, foldl_callActs, ih]
    rfl

theorem Coherent.takesAll_acts (h : Coherent w) (calls : List (Moment × Call)) : w.TakesAll (w.acts calls) := by
  induction calls generalizing w with
  | nil => trivial
  | cons c rest ih =>
    obtain ⟨now, call⟩ := c
    refine takesAll_append.mpr ⟨h.takesAll_callActs now call, ?_⟩
    rw [foldl_callActs]
    exact ih (h.answer now call)

end

/-! ### What changes keep -/

/-- What holds of a window after changes. -/
structure InStep (maxBytes : Nat) (done : List Act) (w : Window) : Prop where
  coherent : Coherent w
  bound : w.maxBytes = maxBytes
  bytes_le : w.bytes ≤ max maxBytes ((newest? done).elim 0 cost)

namespace InStep
variable {w : Window} {maxBytes : Nat} {done : List Act}

theorem empty (ttl : Span) (maxBytes : Nat) : InStep maxBytes [] (.empty ttl maxBytes) where
  coherent := .empty ttl maxBytes
  bound := rfl
  bytes_le := Nat.zero_le _

theorem act {a : Act} (h : InStep maxBytes done w) (htakes : w.Takes a) : InStep maxBytes (done ++ [a]) (w.act a) := by
  cases a with
  | drop =>
    refine ⟨h.coherent.dropOldest, (dropOldest_maxBytes w).trans h.bound, ?_⟩
    have hless : w.dropOldest.bytes ≤ w.bytes := by
      unfold dropOldest
      split
      · exact Nat.le_refl _
      · exact Nat.sub_le _ _
    rw [newest?_drop]
    exact Nat.le_trans hless h.bytes_le
  | push key now =>
    obtain ⟨hnew, hfits⟩ := htakes
    refine ⟨h.coherent.push hnew now, h.bound, ?_⟩
    rw [newest?_push]
    show w.bytes + cost key ≤ max maxBytes (cost key)
    rcases hfits with hnil | hfits
    · have hnone : w.bytes = 0 := by rw [h.coherent.bytes, hnil, totalCost_nil]
      omega
    · rw [h.bound] at hfits
      omega

theorem acts {w₀ : Window} (h : InStep maxBytes [] w₀) (htakes : w₀.TakesAll done) :
    InStep maxBytes done (done.foldl Window.act w₀) := by
  induction done using List.reverseRecOn with
  | nil => exact h
  | append_singleton done a ih =>
    obtain ⟨hdone, hlast, -⟩ := takesAll_append.mp htakes
    rw [List.foldl_append]
    exact (ih hdone).act hlast

/-- The oldest entry is the one that the map holds under its identifier, and its bytes are counted. -/
theorem oldest (h : InStep maxBytes done w) (hsome : w.order ≠ []) :
    ∃ key moment others, w.order = (key, moment) :: others ∧ w.entries[key]? = some moment ∧
      cost key ≤ w.bytes := by
  obtain ⟨⟨key, moment⟩, others, horder⟩ := List.exists_cons_of_ne_nil hsome
  refine ⟨key, moment, others, horder, (h.coherent.get key moment).mpr (by simp [horder]), ?_⟩
  rw [h.coherent.bytes, horder, totalCost_cons]
  exact Nat.le_add_right _ _

end InStep

end Window

open Window

/-- Calls at any moments change an empty window one change after the other, up to the window that they
leave. Before and after each change, also amid a call, the map and the order hold the same identifiers,
each once and with the same moment; the bytes are what these cost, and no more than the bound or the
cost of the identifier that came in last, whichever is more. Whenever an entry is dropped, it is the one
that the map holds under its identifier, and its cost is among the bytes. -/
theorem changes_keep_in_step (ttl : Span) (maxBytes : Nat) (calls : List (Moment × Call)) :
    let w₀ : Window := .empty ttl maxBytes
    (w₀.acts calls).foldl act w₀ = (w₀.run calls).2 ∧
      ∀ done rest, w₀.acts calls = done ++ rest →
        let w := done.foldl act w₀
        Coherent w ∧ w.bytes ≤ max maxBytes ((newest? done).elim 0 cost) ∧
          ∀ more, rest = .drop :: more →
            ∃ key moment others, w.order = (key, moment) :: others ∧ w.entries[key]? = some moment ∧
              cost key ≤ w.bytes := by
  intro w₀
  refine ⟨foldl_acts w₀ calls, fun done rest hacts => ?_⟩
  have htakes := (Coherent.empty ttl maxBytes).takesAll_acts calls
  rw [hacts, takesAll_append] at htakes
  obtain ⟨hdone, hrest⟩ := htakes
  have hstep := (InStep.empty ttl maxBytes).acts hdone
  refine ⟨hstep.coherent, hstep.bytes_le, fun more hmore => ?_⟩
  subst hmore
  exact hstep.oldest hrest.1

/-- The second entry comes in at an earlier moment than the first, and both go in one call. -/
theorem changes_keep_in_step_clock_back :
    let w₀ : Window := .empty ⟨5⟩ 1000
    let w := act (act w₀ (.push "a" 7)) (.push "b" 5)
    w₀.acts [(7, .enter "a"), (5, .enter "b"), (12, .size)] = [.push "a" 7, .push "b" 5] ++ [.drop, .drop] ∧
      ∃ key moment others, w.order = (key, moment) :: others ∧ w.entries[key]? = some moment ∧
        cost key ≤ w.bytes := by
  intro w₀ w
  have hfirst : w₀.callActs 7 (.enter "a") = [.push "a" 7] := by
    refine callActs_of_room ?_ ?_ (by simp [w₀, Window.empty])
    · rw [Window.expire]
      rfl
    · rw [Window.makeRoom]
      rfl
  have hsecond : (w₀.act (.push "a" 7)).callActs 5 (.enter "b") = [.push "b" 5] := by
    refine callActs_of_room ?_ ?_ (by simp [w₀, Window.empty, act, Window.push])
    · rw [Window.expire]
      rfl
    · rw [Window.makeRoom]
      rfl
  have hthird : w.callActs 12 .size = [.drop, .drop] := by
    have hnone : (w.expire 12).order = [] := by
      rw [order_expire]
      rfl
    rw [callActs, drops, hnone]
    rfl
  have hacts : w₀.acts [(7, .enter "a"), (5, .enter "b"), (12, .size)] =
      [.push "a" 7, .push "b" 5] ++ [.drop, .drop] := by
    simp only [Window.acts, ← foldl_callActs, hfirst, List.foldl_cons, List.foldl_nil, hsecond]
    rw [hthird]
    rfl
  exact ⟨hacts, ((changes_keep_in_step ⟨5⟩ 1000 _).2 _ _ hacts).2.2 _ rfl⟩

end AdmissionWatch.Dedup
