import AdmissionWatch.LogGroup.Retry

/-!
# Attempts at a call

What is done when a call is tried as often as a rule allows: the calls, and the waits between them, in
turn (`Deed`). The circumstances say what each attempt is answered, and whether the session was called
off before it began (`Circumstances`). Nobody calls it off: then the attempts go on up to the first
answer that is final or up to the last one that is allowed (`run_attempt`). Somebody has: then nothing
is waited for, and there is no second attempt.
-/

namespace AdmissionWatch.LogGroup

open Time Session

/-- Something that takes part in trying a call. -/
inductive Deed where
  | called (c : Call)
  | waited (d : Span)
  deriving DecidableEq

/-- Whether a deed is a call. -/
def Deed.isCalled : Deed → Bool
  | called _ => true
  | waited _ => false

/-- What a session meets with. -/
structure Circumstances where
  /-- What each call is answered, the first one as number zero. -/
  answer : Nat → (c : Call) → c.Reply
  /-- Whether the watcher was stopped before the session began. -/
  isCancelled : Bool
  /-- Whether the source was stopped before the session began. -/
  isStopped : Bool
  /-- Whether, after these deeds, a wait that takes no time is cut off before it is over. -/
  cutsShort : List Deed → Bool

namespace Circumstances

/-- A session that was called off is cut off at every pause, unless the time is up as soon. -/
def surroundings (k : Circumstances) : Surroundings (List Deed) where
  ask c deeds := (k.answer (deeds.countP Deed.isCalled) c, deeds ++ [.called c])
  pause d deeds :=
    if (k.isCancelled || k.isStopped) && (d ≠ .zero || k.cutsShort deeds) then (true, deeds)
    else (false, deeds ++ [.waited d])
  hand _ deeds := ({}, deeds)

/-- Whether nobody calls the session off. -/
def Undisturbed (k : Circumstances) : Prop := k.isCancelled = false ∧ k.isStopped = false

variable {k : Circumstances}

theorem ask_eq (k : Circumstances) (c : Call) (deeds : List Deed) :
    k.surroundings.ask c deeds = (k.answer (deeds.countP Deed.isCalled) c, deeds ++ [.called c]) := rfl

theorem pause_of_undisturbed (h : k.Undisturbed) (d : Span) (deeds : List Deed) :
    k.surroundings.pause d deeds = (false, deeds ++ [.waited d]) := by
  obtain ⟨hcancelled, hstopped⟩ := h
  simp [surroundings, hcancelled, hstopped]

theorem pause_of_calledOff (h : k.isCancelled = true ∨ k.isStopped = true) {d : Span} (hd : d ≠ .zero)
    (deeds : List Deed) : k.surroundings.pause d deeds = (true, deeds) := by
  simp [surroundings, h, hd]

end Circumstances

/-- Whether an answer leaves room for another attempt. -/
def IsPassing {c : Call} (reply : c.Reply) : Prop := ∃ e : Failure, reply = .error e ∧ e.isRetryable = true

section
variable {c : Call} {reply : c.Reply}

theorem failedInPassing_iff : failedInPassing reply = true ↔ IsPassing reply := by
  cases reply with
  | ok items => simp [failedInPassing, IsPassing]
  | error e => simp [failedInPassing, IsPassing]

theorem lastReply_of_final (rule : RetryRule) (h : ¬IsPassing reply) : lastReply rule c reply = reply := by
  cases reply with
  | ok items => rfl
  | error e =>
    have he : e.isRetryable = false := by simpa [IsPassing] using h
    simp [lastReply, he]

theorem lastReply_of_passing (rule : RetryRule) {e : Failure} (h : e.isRetryable = true) :
    lastReply rule c (.error e) = .error (exhausted rule c e) := by
  simp [lastReply, h]

end

/-- The attempt after so many others is the last one: those before it failed in passing, and it is
final, or the last of those that are left. -/
structure EndsAfter {c : Call} (answer : Nat → c.Reply) (left more : Nat) : Prop where
  le : more ≤ left
  before : ∀ i < more, IsPassing (answer i)
  last : IsPassing (answer more) → more = left

namespace EndsAfter
variable {c : Call} {answer : Nat → c.Reply} {left more : Nat}

theorem zero (h : ¬IsPassing (answer 0) ∨ left = 0) : EndsAfter answer left 0 where
  le := Nat.zero_le left
  before := fun i hi => absurd hi (Nat.not_lt_zero i)
  last := fun hpassing => (h.resolve_left (not_not_intro hpassing)).symm

theorem succ (hpassing : IsPassing (answer 0)) (h : EndsAfter (fun i => answer (i + 1)) left more) :
    EndsAfter answer (left + 1) (more + 1) where
  le := Nat.succ_le_succ h.le
  before := fun i hi => by
    cases i with
    | zero => exact hpassing
    | succ i => exact h.before i (Nat.lt_of_succ_lt_succ hi)
  last := fun hlast => congrArg (· + 1) (h.last hlast)

end EndsAfter

/-- A call that is made once, and so many times more, with a wait between every two. -/
def tries (rule : RetryRule) (c : Call) (more : Nat) : List Deed :=
  (List.replicate (more + 1) (Deed.called c)).intersperse (.waited rule.delay)

theorem tries_succ (rule : RetryRule) (c : Call) (more : Nat) :
    tries rule c (more + 1) = [.called c, .waited rule.delay] ++ tries rule c more := rfl

/-- The first attempt, and what it leads to. -/
theorem run_attempt_succ (rule : RetryRule) (c : Call) (s : Surroundings (List Deed)) (left : Nat) (deeds : List Deed) :
    (attempt rule c (left + 1)).run s deeds =
      if failedInPassing (s.ask c deeds).1 then
        if (s.pause rule.delay (s.ask c deeds).2).1 then (.error (cutOff c), (s.pause rule.delay (s.ask c deeds).2).2)
        else (attempt rule c left).run s (s.pause rule.delay (s.ask c deeds).2).2
      else s.ask c deeds := by
  show (if failedInPassing (s.ask c deeds).1 then
      Session.pause rule.delay fun isCut => if isCut then .done (.error (cutOff c)) else attempt rule c left
    else .done (s.ask c deeds).1).run s (s.ask c deeds).2 = _
  split
  · show (if (s.pause rule.delay (s.ask c deeds).2).1 then .done (.error (cutOff c)) else attempt rule c left).run s
      (s.pause rule.delay (s.ask c deeds).2).2 = _
    split <;> rfl
  · rfl

/-- Undisturbed attempts go on up to the first final answer, or until none is left. -/
theorem run_attempt (rule : RetryRule) (c : Call) {k : Circumstances} (h : k.Undisturbed) (left : Nat)
    (deeds : List Deed) :
    ∃ more, EndsAfter (fun i => k.answer (deeds.countP Deed.isCalled + i) c) left more ∧
      (attempt rule c left).run k.surroundings deeds =
        (lastReply rule c (k.answer (deeds.countP Deed.isCalled + more) c), deeds ++ tries rule c more) := by
  induction left generalizing deeds with
  | zero => exact ⟨0, .zero (.inr rfl), rfl⟩
  | succ left ih =>
    rw [run_attempt_succ, Circumstances.ask_eq]
    by_cases hpassing : IsPassing (k.answer (deeds.countP Deed.isCalled) c)
    · obtain ⟨more, hends, hrun⟩ := ih (deeds ++ [Deed.called c, Deed.waited rule.delay])
      have hcount : (deeds ++ [Deed.called c, Deed.waited rule.delay]).countP Deed.isCalled =
          deeds.countP Deed.isCalled + 1 :=
        List.countP_append
      have hshift : ∀ i, deeds.countP Deed.isCalled + 1 + i = deeds.countP Deed.isCalled + (i + 1) :=
        fun i => by omega
      simp only [hcount, hshift] at hends hrun
      refine ⟨more + 1, hends.succ hpassing, ?_⟩
      rw [if_pos (failedInPassing_iff.mpr hpassing), Circumstances.pause_of_undisturbed h, if_neg Bool.false_ne_true,
        List.append_assoc, List.singleton_append, hrun, tries_succ, List.append_assoc]
    · refine ⟨0, .zero (.inl hpassing), ?_⟩
      rw [if_neg (mt failedInPassing_iff.mp hpassing), Nat.add_zero, lastReply_of_final rule hpassing]
      rfl

/-- Attempts that are called off stop after the first one, and nothing is waited for. -/
theorem run_attempt_calledOff (rule : RetryRule) (c : Call) {k : Circumstances}
    (h : k.isCancelled = true ∨ k.isStopped = true) (hdelay : rule.delay ≠ .zero) (left : Nat) :
    (attempt rule c (left + 1)).run k.surroundings [] =
      (if failedInPassing (k.answer 0 c) then .error (cutOff c) else k.answer 0 c, [.called c]) := by
  rw [run_attempt_succ, Circumstances.ask_eq, Circumstances.pause_of_calledOff h hdelay, if_pos rfl]
  exact (apply_ite (fun reply => (reply, [Deed.called c])) (failedInPassing (k.answer 0 c) = true) _ _).symm

/-- Trying a call follows its rule. Undisturbed, the call is made up to the first answer that is no
failure in passing, and at most as often as the rule allows; the delay is waited for between every two
calls and nowhere else; and that answer is returned as it is, or the failure of the last attempt that
is allowed as one in passing that tells of all attempts. Called off before it began, the call is made
once and nothing is waited for; the answer is returned as it is when it is final, and else a failure that
is not worth another try, unless no other attempt is allowed. -/
theorem retry_follows_rule (rule : RetryRule) (c : Call) (k : Circumstances) (hattempts : 0 < rule.attempts)
    (hdelay : rule.delay ≠ .zero) :
    (k.Undisturbed →
      ∃ last < rule.attempts, ∃ result,
        (retry rule c).run k.surroundings [] =
            (result, (List.replicate (last + 1) (Deed.called c)).intersperse (.waited rule.delay)) ∧
          (∀ i < last, IsPassing (k.answer i c)) ∧
          (IsPassing (k.answer last c) → last + 1 = rule.attempts) ∧
          (¬IsPassing (k.answer last c) → result = k.answer last c) ∧
          ∀ e, k.answer last c = .error e → e.isRetryable = true →
            result = .error (.retryableSource s!"{c.operation} failed after {rule.attempts} attempts: {e.message}")) ∧
      (k.isCancelled = true ∨ k.isStopped = true →
        ∃ result, (retry rule c).run k.surroundings [] = (result, [.called c]) ∧
          (¬IsPassing (k.answer 0 c) → result = k.answer 0 c) ∧
          ∀ e, k.answer 0 c = .error e → e.isRetryable = true →
            (rule.attempts = 1 →
              result = .error
                (.retryableSource s!"{c.operation} failed after {rule.attempts} attempts: {e.message}")) ∧
              (1 < rule.attempts → ∃ e', result = .error e' ∧
                e'.message = s!"internal error: {c.operation} cancelled" ∧
                e'.isRetryable = false)) := by
  constructor
  · intro h
    obtain ⟨last, hends, hrun⟩ := run_attempt rule c h (rule.attempts - 1) []
    simp only [List.countP_nil, Nat.zero_add, List.nil_append] at hends hrun
    have hle := hends.le
    refine ⟨last, by omega, _, hrun, hends.before, fun hpassing => ?_, lastReply_of_final rule,
      fun e he hretryable => ?_⟩
    · rw [hends.last hpassing]
      omega
    · rw [he, lastReply_of_passing rule hretryable]
      rfl
  · intro h
    unfold retry
    cases hleft : rule.attempts - 1 with
    | zero =>
      have hone : rule.attempts = 1 := by omega
      refine ⟨lastReply rule c (k.answer 0 c), rfl, lastReply_of_final rule,
        fun e he hretryable => ⟨fun _ => ?_, fun h => ?_⟩⟩
      · rw [he, lastReply_of_passing rule hretryable]
        rfl
      · omega
    | succ left =>
      refine ⟨_, run_attempt_calledOff rule c h hdelay left, fun hfinal => if_neg (mt failedInPassing_iff.mp hfinal),
        fun e he hretryable => ⟨fun h => ?_, fun _ => ⟨cutOff c, ?_, ?_, rfl⟩⟩⟩
      · omega
      · exact if_pos (failedInPassing_iff.mpr ⟨e, he, hretryable⟩)
      · rfl

/-- A service that has too much to do for two calls, and nothing to tell at the third. -/
def busyTwice : Circumstances where
  answer i _ := if i < 2 then .error (.retryableSource "DescribeLogStreams failed with status 429: : ") else .ok []
  isCancelled := false
  isStopped := false
  cutsShort _ := false

theorem retry_follows_rule_busy :
    0 < RetryRule.streams.attempts ∧ RetryRule.streams.delay ≠ .zero ∧ busyTwice.Undisturbed ∧
      (retry .streams (.streams "g" 50)).run busyTwice.surroundings [] =
        (.ok [], [.called (.streams "g" 50), .waited (.ofSeconds 2), .called (.streams "g" 50), .waited (.ofSeconds 2),
          .called (.streams "g" 50)]) := by
  have hattempts : 0 < RetryRule.streams.attempts := by decide
  have hdelay : RetryRule.streams.delay ≠ .zero := by decide
  obtain ⟨last, hlt, result, hrun, -, hpassing, hfinal, -⟩ :=
    (retry_follows_rule .streams (.streams "g" 50) busyTwice hattempts hdelay).1 ⟨rfl, rfl⟩
  obtain rfl : last = 2 := Decidable.byContradiction fun hne => by
    change last < 3 at hlt
    have hlast : last + 1 = 3 := hpassing ⟨_, if_pos (by omega), rfl⟩
    omega
  have hok : ¬IsPassing (busyTwice.answer 2 (.streams "g" 50)) := by
    rintro ⟨e, he, -⟩
    cases he
  rw [hfinal hok] at hrun
  exact ⟨hattempts, hdelay, ⟨rfl, rfl⟩, hrun⟩

end AdmissionWatch.LogGroup
