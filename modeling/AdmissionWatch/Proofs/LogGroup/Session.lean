import AdmissionWatch.LogGroup.Retry

/-!
# What a session ensures

A session that is run in some surroundings ensures a property when the property holds of its result
and of what has become of the surroundings. A session that consists of two is taken apart by
`Ensures.bind`; a call that is tried again and again needs an invariant that holds between the
attempts (`retry_ensures`).
-/

namespace AdmissionWatch.LogGroup

open Time

namespace Session

variable {σ α β : Type} {s : Surroundings σ}

theorem run_bind (s : Surroundings σ) (x : Session α) (f : α → Session β) (world : σ) :
    (x >>= f).run s world = (f (x.run s world).1).run s (x.run s world).2 := by
  show (x.bind f).run s world = _
  induction x generalizing world with
  | done a => rfl
  | ask c resume ih => exact ih (s.ask c world).1 (s.ask c world).2
  | pause d resume ih => exact ih (s.pause d world).1 (s.pause d world).2
  | hand messages resume ih => exact ih (s.hand messages world).1 (s.hand messages world).2

/-- What every interaction keeps is kept by every session. -/
theorem run_keeps {R : σ → σ → Prop} (hrefl : ∀ world, R world world)
    (htrans : ∀ {world world' world''}, R world world' → R world' world'' → R world world'')
    (hask : ∀ c world, R world (s.ask c world).2) (hpause : ∀ d world, R world (s.pause d world).2)
    (hhand : ∀ messages world, R world (s.hand messages world).2) (x : Session α) (world : σ) :
    R world (x.run s world).2 := by
  induction x generalizing world with
  | done a => exact hrefl world
  | ask c resume ih => exact htrans (hask c world) (ih _ _)
  | pause d resume ih => exact htrans (hpause d world) (ih _ _)
  | hand messages resume ih => exact htrans (hhand messages world) (ih _ _)

/-- What holds of the result of a session, and of the surroundings after it. -/
def Ensures (s : Surroundings σ) (x : Session α) (world : σ) (post : α → σ → Prop) : Prop :=
  post (x.run s world).1 (x.run s world).2

namespace Ensures
variable {x : Session α} {world : σ} {post : α → σ → Prop}

theorem pure {a : α} (h : post a world) : Ensures s (Pure.pure a) world post := h

/-- The second session is run in what the first has left. -/
theorem bind {f : α → Session β} {mid : α → σ → Prop} {post : β → σ → Prop} (hx : Ensures s x world mid)
    (hf : ∀ a world', mid a world' → Ensures s (f a) world' post) : Ensures s (x >>= f) world post := by
  unfold Ensures
  rw [run_bind]
  exact hf _ _ hx

theorem mono {post' : α → σ → Prop} (hx : Ensures s x world post)
    (himp : ∀ a world', post a world' → post' a world') : Ensures s x world post' :=
  himp _ _ hx

/-- What holds of the surroundings afterwards whatever is asked for can be added. -/
theorem and {always : σ → Prop} (hx : Ensures s x world post) (halways : always (x.run s world).2) :
    Ensures s x world fun a world' => post a world' ∧ always world' :=
  ⟨hx, halways⟩

end Ensures

end Session

open Session

/-- What holds after a reply: of the items if there are any, and else of the surroundings alone. -/
def Answered {σ : Type} {c : Call} (onItems : List c.Item → σ → Prop) (onError : σ → Prop) :
    c.Reply → σ → Prop
  | .ok items, world => onItems items world
  | .error _, world => onError world

section
variable {σ : Type} {s : Surroundings σ} {c : Call} {onItems : List c.Item → σ → Prop} {inv : σ → Prop}

/-- What holds in any case holds of the surroundings whatever the reply is. -/
theorem Answered.always {reply : c.Reply} {world : σ} (h : Answered (fun _ => inv) inv reply world) : inv world := by
  cases reply with
  | ok items => exact h
  | error e => exact h

theorem Answered.imp_left {onItems' : List c.Item → σ → Prop} {reply : c.Reply} {world : σ}
    (h : Answered onItems inv reply world) (himp : ∀ items world, onItems items world → onItems' items world) :
    Answered onItems' inv reply world := by
  cases reply with
  | ok items => exact himp items world h
  | error e => exact h

theorem lastReply_answered (rule : RetryRule) {reply : c.Reply} {world : σ} (h : Answered onItems inv reply world) :
    Answered onItems inv (lastReply rule c reply) world := by
  cases reply with
  | ok items => exact h
  | error e => exact h

/-- Each attempt and each pause between two keeps the invariant; the attempts end with items or with
a failure. -/
theorem attempt_ensures (rule : RetryRule)
    (hask : ∀ world, inv world → Answered onItems inv (s.ask c world).1 (s.ask c world).2)
    (hpause : ∀ world, inv world → inv (s.pause rule.delay world).2) (left : Nat) {world : σ} (hinv : inv world) :
    Ensures s (attempt rule c left) world (Answered onItems inv) := by
  induction left generalizing world with
  | zero => exact lastReply_answered rule (hask world hinv)
  | succ left ih =>
    have hreply := hask world hinv
    show Ensures s (if failedInPassing (s.ask c world).1 then
        Session.pause rule.delay fun isCut => if isCut then .done (.error (cutOff c)) else attempt rule c left
      else .done (s.ask c world).1) (s.ask c world).2 _
    split
    · rename_i hfailed
      -- Only a failure is tried again, and after a failure the invariant holds.
      have herror : inv (s.ask c world).2 := by
        cases hanswer : (s.ask c world).1 with
        | ok items =>
          rw [hanswer] at hfailed
          cases hfailed
        | error e =>
          rw [hanswer] at hreply
          exact hreply
      have hafter := hpause _ herror
      show Ensures s
        (if (s.pause rule.delay (s.ask c world).2).1 then .done (.error (cutOff c)) else attempt rule c left)
        (s.pause rule.delay (s.ask c world).2).2 _
      split
      · exact hafter
      · exact ih hafter
    · exact hreply

theorem retry_ensures (rule : RetryRule)
    (hask : ∀ world, inv world → Answered onItems inv (s.ask c world).1 (s.ask c world).2)
    (hpause : ∀ world, inv world → inv (s.pause rule.delay world).2) {world : σ} (hinv : inv world) :
    Ensures s (retry rule c) world (Answered onItems inv) :=
  attempt_ensures rule hask hpause _ hinv

end

end AdmissionWatch.LogGroup
