import AdmissionWatch.LogGroup.Poller
import Mathlib.Data.List.Induction

/-!
# The interval after failures in a row

The counter of a backoff starts anew whenever the interval changes, so it does not tell how many polls
have failed in a row; it is that number up to multiples of five, and the interval is doubled from the
fifth failure on (`Backoff.run_eq`). So the interval is told by the failures since the last success
alone, and does not grow beyond twice the base (`interval_follows_failures`).
-/

namespace AdmissionWatch.LogGroup

open Time

/-! ### Failures in a row -/

/-- How many polls have failed since the last one that succeeded, or since the first. -/
def failuresSince (polls : List Bool) : Nat := (polls.reverse.takeWhile fun ok => !ok).length

section
variable (polls : List Bool)

@[simp] theorem failuresSince_success : failuresSince (polls ++ [true]) = 0 := by simp [failuresSince]

@[simp] theorem failuresSince_failure : failuresSince (polls ++ [false]) = failuresSince polls + 1 := by
  simp [failuresSince]

@[simp] theorem failuresSince_failures (n : Nat) : failuresSince (polls ++ true :: List.replicate n false) = n := by
  simp [failuresSince]

end

namespace Backoff

/-- The interval after so many failures in a row. -/
def intervalAfter (base : Span) (failures : Nat) : Span := if 5 ≤ failures then base.times 2 else base

/-- The state after so many failures in a row. -/
def afterFailures (base : Span) (failures : Nat) : Backoff :=
  { base, interval := intervalAfter base failures, failures := failures % patience }

variable {base : Span} {n : Nat}

theorem onSuccess_afterFailures : (afterFailures base n).onSuccess = afterFailures base 0 := rfl

theorem onFailure_afterFailures : (afterFailures base n).onFailure = afterFailures base (n + 1) := by
  unfold onFailure
  split
  · -- Five failures have been counted, whether for the first time or again.
    rename_i hfull
    simp only [afterFailures, patience] at hfull
    have hmany : 5 ≤ n + 1 := by omega
    have hanew : (n + 1) % 5 = 0 := by omega
    simp [afterFailures, intervalAfter, patience, hmany, hanew]
  · rename_i hfew
    simp only [afterFailures, patience] at hfew
    have hsame : 5 ≤ n + 1 ↔ 5 ≤ n := by omega
    have hnext : (n + 1) % 5 = n % 5 + 1 := by omega
    simp [afterFailures, intervalAfter, patience, hsame, hnext]

/-- After a poll that succeeded or failed. -/
def note (b : Backoff) (succeeded : Bool) : Backoff := if succeeded then b.onSuccess else b.onFailure

/-- After polls in turn, of which it is known whether each succeeded. -/
def run (base : Span) (polls : List Bool) : Backoff := polls.foldl note (start base)

theorem run_concat (base : Span) (polls : List Bool) (succeeded : Bool) :
    run base (polls ++ [succeeded]) = (run base polls).note succeeded := by
  simp [run]

theorem run_eq (base : Span) (polls : List Bool) : run base polls = afterFailures base (failuresSince polls) := by
  induction polls using List.reverseRecOn with
  | nil => rfl
  | append_singleton polls succeeded ih =>
    rw [run_concat, ih]
    cases succeeded with
    | true =>
      rw [failuresSince_success]
      exact onSuccess_afterFailures
    | false =>
      rw [failuresSince_failure]
      exact onFailure_afterFailures

theorem intervalAfter_le (base : Span) (n : Nat) : (intervalAfter base n).nanos ≤ 2 * base.nanos := by
  unfold intervalAfter
  split
  · exact Nat.min_le_left ..
  · omega

end Backoff

/-! ### Polling again and again -/

namespace Poller

/-- The poller after sessions have come that far in turn, each at the time of a timer. -/
def run (p : Poller) (steps : List (Moment × Session.Progress Polled)) : Poller :=
  steps.foldl (fun p step => p.after step.1 step.2) p

/-- Whether a session that has come that far has ended a poll, and if so whether the poll succeeded. -/
def ended? : Session.Progress Polled → Option Bool
  | .over (result, _) => some result.isOk
  | .waiting .. => none

/-- The polls that are over. -/
def polls (steps : List (Moment × Session.Progress Polled)) : List Bool := steps.filterMap fun step => ended? step.2

section
variable (p : Poller) (settings : Settings) (now : Moment) (steps : List (Moment × Session.Progress Polled))
  (step : Moment × Session.Progress Polled)

@[simp] theorem run_concat : p.run (steps ++ [step]) = (p.run steps).after step.1 step.2 := by simp [run]

@[simp] theorem polls_concat : polls (steps ++ [step]) = polls steps ++ (ended? step.2).toList := by
  cases hended : ended? step.2 <;> simp [polls, hended]

theorem after_backoff (timer : Moment) (progress : Session.Progress Polled) :
    (p.after timer progress).backoff = (ended? progress).elim p.backoff p.backoff.note := by
  rcases progress with ⟨_ | _, cursors⟩ | _ <;> rfl

/-- When a poll is over, the next one is due after the interval that it leaves. -/
theorem after_due (timer : Moment) (polled : Polled) :
    (p.after timer (.over polled)).due = timer.wakeTime (p.backoff.note polled.1.isOk).interval := by
  obtain ⟨result, cursors⟩ := polled
  cases result <;> rfl

theorem run_backoff : ((create settings now).run steps).backoff = Backoff.run settings.interval (polls steps) := by
  induction steps using List.reverseRecOn with
  | nil => rfl
  | append_singleton steps step ih =>
    rw [run_concat, after_backoff, ih, polls_concat]
    cases ended? step.2 with
    | none => simp
    | some succeeded => exact (Backoff.run_concat ..).symm

end

end Poller

/-- After any polls the interval is twice the base, cut off at the longest span, when at least five have
failed since the last success or since the start, and the base when fewer have. It never exceeds twice
the base. A success brings back the state before any poll, so that it takes five more failures to double
the interval again. A poller waits for that interval after each poll, whatever waits there were within
its polls. -/
theorem interval_follows_failures (base : Span) (polls : List Bool) :
    (Backoff.run base polls).interval = (if 5 ≤ failuresSince polls then base.times 2 else base) ∧
      (Backoff.run base polls).interval.nanos ≤ 2 * base.nanos ∧
      Backoff.run base (polls ++ [true]) = Backoff.start base ∧
      (∀ n, (Backoff.run base (polls ++ true :: List.replicate n false)).interval =
        if 5 ≤ n then base.times 2 else base) ∧
      ∀ (settings : Settings) (now timer : Moment) (steps : List (Moment × Session.Progress Polled))
        (polled : Polled),
        ((Poller.create settings now).run (steps ++ [(timer, .over polled)])).due =
          timer.wakeTime (Backoff.run settings.interval (Poller.polls steps ++ [polled.1.isOk])).interval := by
  refine ⟨?_, ?_, ?_, fun n => ?_, fun settings now timer steps polled => ?_⟩
  · rw [Backoff.run_eq]
    rfl
  · rw [Backoff.run_eq]
    exact Backoff.intervalAfter_le base _
  · rw [Backoff.run_eq, failuresSince_success]
    rfl
  · rw [Backoff.run_eq, failuresSince_failures]
    rfl
  · rw [Poller.run_concat, Poller.after_due, Poller.run_backoff, Backoff.run_concat]

end AdmissionWatch.LogGroup
