import AdmissionWatch.Dispatch.TokenBucket
import Mathlib.Algebra.Order.Field.Rat
import Mathlib.Tactic.FieldSimp
import Mathlib.Tactic.Linarith
import Mathlib.Tactic.Positivity
import Mathlib.Tactic.Ring

/-!
# The pace of a token bucket

Counted in rational numbers, a bucket gives out tokens at a steady pace, however often it is asked.
What an attempt answers depends on the refilled bucket only, and an attempt that fails leaves a bucket
that refills to the same (`SameFrom`): so failures change nothing for those that come later. After a
token was taken the bucket holds no more than has come back since (`Since`), which keeps two tokens
apart by the time in which one comes back. Waiting for a token is nothing but attempts at some
moments (`acquireBy_attempts`).
-/

namespace AdmissionWatch.Dispatch

open Time

namespace TokenBucket

section
variable {α : Type} [Quantity α]

/-! ### Runs of attempts -/

/-- The bucket after attempts at these moments. -/
def after (b : TokenBucket α) (moments : List Moment) : TokenBucket α :=
  moments.foldl (fun b now => (b.tryTake now).2) b

/-- The moments among these at which an attempt gets a token. -/
def successes (b : TokenBucket α) : List Moment → List Moment
  | [] => []
  | now :: rest =>
    match b.tryTake now with
    | (.taken, b) => now :: b.successes rest
    | (_, b) => b.successes rest

/-- How many of several acquisitions get a token of which each begins when the one before is over, and
when the last is over. -/
def acquireInTurn (b : TokenBucket α) (now : Moment) : List Span → Nat × Moment
  | [] => (0, now)
  | timeout :: rest =>
    let a := b.acquire timeout now
    let others := a.bucket.acquireInTurn a.moment rest
    (if a.result.toBool then others.1 + 1 else others.1, others.2)

theorem successes_cons_of_taken {b : TokenBucket α} {now : Moment} (htaken : (b.tryTake now).1 = .taken)
    (rest : List Moment) : b.successes (now :: rest) = now :: (b.tryTake now).2.successes rest := by
  cases htry : b.tryTake now with
  | mk answer b' =>
    obtain rfl : answer = .taken := by simpa only [htry] using htaken
    simp only [successes, htry]

theorem successes_cons_of_not_taken {b : TokenBucket α} {now : Moment} (hnot : (b.tryTake now).1 ≠ .taken)
    (rest : List Moment) : b.successes (now :: rest) = (b.tryTake now).2.successes rest := by
  cases htry : b.tryTake now with
  | mk answer b' =>
    cases answer with
    | taken => exact absurd (by rw [htry]) hnot
    | _ => simp only [successes, htry]

theorem successes_append (b : TokenBucket α) (l₁ l₂ : List Moment) :
    b.successes (l₁ ++ l₂) = b.successes l₁ ++ (b.after l₁).successes l₂ := by
  induction l₁ generalizing b with
  | nil => rfl
  | cons now rest ih =>
    have hafter : b.after (now :: rest) = (b.tryTake now).2.after rest := rfl
    by_cases htaken : (b.tryTake now).1 = .taken
    · rw [List.cons_append, successes_cons_of_taken htaken, successes_cons_of_taken htaken, ih, hafter,
        List.cons_append]
    · rw [List.cons_append, successes_cons_of_not_taken htaken, successes_cons_of_not_taken htaken, ih, hafter]

theorem successes_sublist (b : TokenBucket α) (moments : List Moment) : (b.successes moments).Sublist moments := by
  induction moments generalizing b with
  | nil => exact List.Sublist.refl _
  | cons now rest ih =>
    by_cases htaken : (b.tryTake now).1 = .taken
    · rw [successes_cons_of_taken htaken]
      exact (ih _).cons_cons now
    · rw [successes_cons_of_not_taken htaken]
      exact (ih _).cons now

/-! ### Acquisitions are attempts -/

/-- To acquire a token is to attempt it at some moments, of which at most the last gets one. -/
theorem acquireBy_attempts (b : TokenBucket α) (timeout : Span) (deadline now : Moment) :
    let a := b.acquireBy timeout deadline now
    now ≤ a.moment ∧ ∃ moments : List Moment, (now :: moments).Pairwise (· ≤ ·) ∧
      (∀ t ∈ moments, t ≤ a.moment) ∧
      b.after moments = a.bucket ∧ b.successes moments = if a.result.toBool then [a.moment] else [] := by
  fun_induction acquireBy b timeout deadline now with
  | case1 b now b' htry =>
    have htaken : (b.tryTake now).1 = .taken := by rw [htry]
    refine ⟨Nat.le_refl now, [now], by simp, by simp, ?_, ?_⟩
    · show (b.tryTake now).2 = b'
      rw [htry]
    · rw [successes_cons_of_taken htaken]
      rfl
  | case2 b now b' htry =>
    have hnot : (b.tryTake now).1 ≠ .taken := by simp [htry]
    refine ⟨Nat.le_refl now, [now], by simp, by simp, ?_, ?_⟩
    · show (b.tryTake now).2 = b'
      rw [htry]
    · rw [successes_cons_of_not_taken hnot]
      rfl
  | case3 b now w b' htry d hlate =>
    have hnot : (b.tryTake now).1 ≠ .taken := by simp [htry]
    refine ⟨Nat.le_refl now, [now], by simp, by simp, ?_, ?_⟩
    · show (b.tryTake now).2 = b'
      rw [htry]
    · rw [successes_cons_of_not_taken hnot]
      rfl
  | case4 b now w b' htry d hsoon ih =>
    have hnot : (b.tryTake now).1 ≠ .taken := by simp [htry]
    have hnext : (b.tryTake now).2 = b' := by rw [htry]
    obtain ⟨hle, moments, hclock, hpast, hafter, hsuccesses⟩ := ih
    have hwake : now ≤ Moment.wakeTime now d := Nat.le_of_lt (Moment.lt_wakeTime now d)
    refine ⟨hwake.trans hle, now :: moments, ?_, ?_, ?_, ?_⟩
    · rw [List.pairwise_cons] at hclock ⊢
      have hfrom : ∀ t ∈ moments, now ≤ t := fun t ht => hwake.trans (hclock.1 t ht)
      refine ⟨fun t ht => ?_, List.pairwise_cons.mpr ⟨hfrom, hclock.2⟩⟩
      rcases List.mem_cons.mp ht with rfl | ht
      · exact Nat.le_refl t
      · exact hfrom t ht
    · intro t ht
      rcases List.mem_cons.mp ht with rfl | ht
      · exact hwake.trans hle
      · exact hpast t ht
    · show (b.tryTake now).2.after moments = _
      rw [hnext]
      exact hafter
    · rw [successes_cons_of_not_taken hnot, hnext]
      exact hsuccesses

end

/-! ### Seconds -/

/-- The seconds from one moment to another. -/
def secs (a b : Moment) : ℚ := Quantity.seconds (a.elapsed b)

section Seconds
variable {a b c : Moment}

theorem secs_eq (h : a ≤ b) : secs a b = ((b : ℚ) - a) / 1000000000 := by
  show ((b - a : ℕ) : ℚ) / 1000000000 = _
  rw [Nat.cast_sub h]

theorem secs_nonneg (a b : Moment) : 0 ≤ secs a b := by
  show (0 : ℚ) ≤ ((b - a : ℕ) : ℚ) / 1000000000
  positivity

theorem secs_eq_zero (h : b ≤ a) : secs a b = 0 := by
  show ((b - a : ℕ) : ℚ) / 1000000000 = 0
  rw [Nat.sub_eq_zero_of_le h, Nat.cast_zero, zero_div]

theorem secs_add (hab : a ≤ b) (hbc : b ≤ c) : secs a b + secs b c = secs a c := by
  rw [secs_eq hab, secs_eq hbc, secs_eq (hab.trans hbc)]
  ring

theorem secs_mono_left (hab : a ≤ b) (hbc : b ≤ c) : secs b c ≤ secs a c := by
  rw [← secs_add hab hbc]
  exact le_add_of_nonneg_left (secs_nonneg a b)

/-- Moments that are apart are in order. -/
theorem le_of_secs_pos (h : 0 < secs a b) : a ≤ b := by
  by_contra hlt
  exact absurd (secs_eq_zero (Nat.le_of_not_le hlt)) (ne_of_gt h)

/-- Moments that are apart by a gap span as many gaps as there are moments after the first. -/
theorem gaps_le_secs {gap : ℚ} (hgap : 0 < gap) {first last : Moment} {moments : List Moment}
    (hspaced : (first :: moments).Pairwise fun s t => gap ≤ secs s t)
    (hpast : ∀ t ∈ first :: moments, t ≤ last) : moments.length * gap ≤ secs first last := by
  induction moments generalizing first with
  | nil =>
    rw [List.length_nil, Nat.cast_zero, zero_mul]
    exact secs_nonneg first last
  | cons next rest ih =>
    obtain ⟨hfirst, hrest⟩ := List.pairwise_cons.mp hspaced
    have hapart : gap ≤ secs first next := hfirst next List.mem_cons_self
    have hnext : rest.length * gap ≤ secs next last := ih hrest fun t ht => hpast t (List.mem_cons_of_mem first ht)
    have hsum : secs first next + secs next last = secs first last :=
      secs_add (le_of_secs_pos (hgap.trans_le hapart)) (hpast next (by simp))
    rw [List.length_cons, Nat.cast_add, Nat.cast_one]
    linarith

/-- So no more of them fit between two moments than there are gaps, and one. -/
theorem length_le_of_spaced {gap : ℚ} (hgap : 0 < gap) {moments : List Moment}
    (hspaced : moments.Pairwise fun s t => gap ≤ secs s t) {start stop : Moment}
    (hwithin : ∀ t ∈ moments, start ≤ t ∧ t ≤ stop) :
    (moments.length : ℚ) ≤ 1 + secs start stop / gap := by
  have hrest : 0 ≤ secs start stop / gap := div_nonneg (secs_nonneg start stop) hgap.le
  cases moments with
  | nil =>
    rw [List.length_nil, Nat.cast_zero]
    linarith
  | cons first rest =>
    obtain ⟨hstart, hstop⟩ := hwithin first List.mem_cons_self
    have hgaps : rest.length * gap ≤ secs start stop :=
      (gaps_le_secs hgap hspaced fun t ht => (hwithin t ht).2).trans (secs_mono_left hstart hstop)
    rw [← le_div_iff₀ hgap] at hgaps
    rw [List.length_cons, Nat.cast_add, Nat.cast_one]
    linarith

end Seconds

/-! ### One attempt, exactly -/

section Exact
variable {b b' : TokenBucket ℚ} {now later : Moment}

theorem refill_tokens (b : TokenBucket ℚ) (now : Moment) :
    (b.refill now).tokens = min (b.tokens + secs b.refilled now * b.rate) 1 := by
  have hfull : (full : ℚ) = 1 := Nat.cast_one
  show (if _ ≤ (full : ℚ) then _ else _) = _
  rw [hfull, min_def]
  rfl

@[simp] theorem refill_refilled (b : TokenBucket ℚ) (now : Moment) : (b.refill now).refilled = now := rfl
@[simp] theorem refill_rate (b : TokenBucket ℚ) (now : Moment) : (b.refill now).rate = b.rate := rfl

theorem tryTake_cases (hrate : 0 < b.rate) (now : Moment) :
    (1 ≤ (b.refill now).tokens ∧
        b.tryTake now = (.taken, { b.refill now with tokens := (b.refill now).tokens - 1 })) ∨
      ((b.refill now).tokens < 1 ∧
        b.tryTake now = (.wait (Quantity.seconds (Quantity.span (b.refill now).missing)), b.refill now)) := by
  have hfull : (full : ℚ) = 1 := Nat.cast_one
  have hzero : (Quantity.ofNat 0 : ℚ) = 0 := Nat.cast_zero
  by_cases hwhole : 1 ≤ (b.refill now).tokens
  · refine .inl ⟨hwhole, ?_⟩
    unfold tryTake
    simp only [hfull]
    rw [if_pos hwhole]
  · refine .inr ⟨not_le.mp hwhole, ?_⟩
    unfold tryTake
    simp only [hfull, hzero]
    rw [if_neg hwhole, if_neg (not_le.mpr (show 0 < (b.refill now).rate from hrate))]

/-! ### What every attempt keeps -/

/-- The bucket gets its tokens back at that rate and holds no more than one. -/
structure Holds (rate : ℚ) (b : TokenBucket ℚ) : Prop where
  rate : b.rate = rate
  nonneg : 0 ≤ b.tokens
  most : b.tokens ≤ 1

theorem holds_create (perMinute : Nat) (now : Moment) : Holds (perMinute / 60) (create perMinute now) where
  rate := rfl
  nonneg := by
    show (0 : ℚ) ≤ ((1 : ℕ) : ℚ)
    norm_num
  most := by
    show ((1 : ℕ) : ℚ) ≤ 1
    norm_num

theorem Holds.refill {rate : ℚ} (hrate : 0 < rate) (h : Holds rate b) (now : Moment) : Holds rate (b.refill now) where
  rate := h.rate
  nonneg := by
    rw [refill_tokens, h.rate]
    have hback : 0 ≤ secs b.refilled now * rate := mul_nonneg (secs_nonneg _ _) hrate.le
    exact le_min (add_nonneg h.nonneg hback) zero_le_one
  most := by
    rw [refill_tokens]
    exact min_le_right _ _

theorem Holds.tryTake {rate : ℚ} (hrate : 0 < rate) (h : Holds rate b) (now : Moment) :
    Holds rate (b.tryTake now).2 := by
  have hrefill := h.refill hrate now
  rcases tryTake_cases (h.rate ▸ hrate) now with ⟨hwhole, htry⟩ | ⟨-, htry⟩
  · rw [htry]
    refine ⟨hrefill.rate, sub_nonneg.mpr hwhole, ?_⟩
    have hmost := hrefill.most
    show (b.refill now).tokens - 1 ≤ 1
    linarith
  · rw [htry]
    exact hrefill

theorem Holds.after {rate : ℚ} (hrate : 0 < rate) (h : Holds rate b) (moments : List Moment) :
    Holds rate (b.after moments) := by
  induction moments generalizing b with
  | nil => exact h
  | cons now rest ih => exact ih (h.tryTake hrate now)

theorem tryTake_refilled (hrate : 0 < b.rate) (now : Moment) : (b.tryTake now).2.refilled = now := by
  rcases tryTake_cases hrate now with ⟨-, htry⟩ | ⟨-, htry⟩ <;> rw [htry] <;> rfl

/-- A bucket was refilled no later than any attempt at it. -/
theorem after_refilled_le {rate : ℚ} (hrate : 0 < rate) (h : Holds rate b) {moments : List Moment}
    (hstart : b.refilled ≤ now) (hpast : ∀ t ∈ moments, t ≤ now) : (b.after moments).refilled ≤ now := by
  induction moments generalizing b with
  | nil => exact hstart
  | cons t rest ih =>
    refine ih (h.tryTake hrate t) ?_ fun t' ht' => hpast t' (List.mem_cons_of_mem t ht')
    rw [tryTake_refilled (h.rate ▸ hrate)]
    exact hpast t List.mem_cons_self

/-! ### Failures change nothing -/

/-- Two buckets refill to the same from some moment on. -/
def SameFrom (moment : Moment) (b b' : TokenBucket ℚ) : Prop :=
  ∀ t, moment ≤ t → b.refill t = b'.refill t

theorem SameFrom.tryTake (h : SameFrom now b b') : b.tryTake now = b'.tryTake now := by
  unfold TokenBucket.tryTake
  rw [h now (Nat.le_refl now)]

/-- What has come back before a token is whole comes to the same in one step or in two. -/
theorem refill_refill (hstart : b.refilled ≤ now) (hle : now ≤ later) (hfew : (b.refill now).tokens < 1) :
    (b.refill now).refill later = b.refill later := by
  have hsum : secs b.refilled now + secs now later = secs b.refilled later := secs_add hstart hle
  have huncapped : (b.refill now).tokens = b.tokens + secs b.refilled now * b.rate := by
    rw [refill_tokens] at hfew ⊢
    exact min_eq_left (le_of_lt (by simpa using hfew))
  have htokens : ((b.refill now).refill later).tokens = (b.refill later).tokens := by
    rw [refill_tokens (b.refill now), huncapped, refill_tokens b, refill_refilled, refill_rate, ← hsum,
      add_mul, add_assoc]
  calc (b.refill now).refill later = ⟨((b.refill now).refill later).tokens, later, b.rate⟩ := rfl
    _ = b.refill later := by rw [htokens]; rfl

theorem sameFrom_of_not_taken (hrate : 0 < b.rate) (hstart : b.refilled ≤ now) (hnot : (b.tryTake now).1 ≠ .taken) :
    SameFrom now (b.tryTake now).2 b := by
  rcases tryTake_cases hrate now with ⟨-, htry⟩ | ⟨hfew, htry⟩
  · rw [htry] at hnot
    exact absurd rfl hnot
  · rw [htry]
    exact fun t ht => refill_refill hstart ht hfew

/-- After attempts a bucket is the same as after those of them that succeeded. -/
theorem sameFrom_successes {rate : ℚ} (hrate : 0 < rate) (h : Holds rate b) (hsame : SameFrom now b b')
    (hstart : b.refilled ≤ now) {moments : List Moment} (hclock : (now :: moments).Pairwise (· ≤ ·))
    {last : Moment} (hpast : ∀ t ∈ now :: moments, t ≤ last) :
    SameFrom last (b.after moments) (b'.after (b.successes moments)) ∧
      b'.successes (b.successes moments) = b.successes moments := by
  induction moments generalizing b b' now with
  | nil => exact ⟨fun t ht => hsame t ((hpast now List.mem_cons_self).trans ht), rfl⟩
  | cons t rest ih =>
    obtain ⟨hfrom, hclock⟩ := List.pairwise_cons.mp hclock
    have hnow : now ≤ t := hfrom t List.mem_cons_self
    have hrefilled : (b.tryTake t).2.refilled ≤ t := (tryTake_refilled (h.rate ▸ hrate) t).le
    have hpast' : ∀ t' ∈ t :: rest, t' ≤ last := fun t' ht' => hpast t' (List.mem_cons_of_mem now ht')
    have heq : b.tryTake t = b'.tryTake t := SameFrom.tryTake fun t' ht' => hsame t' (hnow.trans ht')
    by_cases htaken : (b.tryTake t).1 = .taken
    · have hself : SameFrom t (b.tryTake t).2 (b.tryTake t).2 := fun _ _ => rfl
      obtain ⟨hsame', hall⟩ := ih (h.tryTake hrate t) hself hrefilled hclock hpast'
      rw [successes_cons_of_taken htaken, successes_cons_of_taken (heq ▸ htaken), ← heq, hall]
      refine ⟨?_, rfl⟩
      show SameFrom last ((b.tryTake t).2.after rest) ((b'.tryTake t).2.after _)
      rw [← heq]
      exact hsame'
    · have hback : SameFrom t (b.tryTake t).2 b' := fun t' ht' =>
        (sameFrom_of_not_taken (h.rate ▸ hrate) (hstart.trans hnow) htaken t' ht').trans (hsame t' (hnow.trans ht'))
      rw [successes_cons_of_not_taken htaken]
      exact ih (h.tryTake hrate t) hback hrefilled hclock hpast'

/-! ### Tokens are apart -/

/-- A bucket holds no more than has come back since some moment. -/
structure Since (moment : Moment) (b : TokenBucket ℚ) : Prop where
  refilled : moment ≤ b.refilled
  tokens : b.tokens ≤ secs moment b.refilled * b.rate

theorem Since.refill {s : Moment} (h : Since s b) (hstart : b.refilled ≤ now) : Since s (b.refill now) where
  refilled := h.refilled.trans hstart
  tokens := by
    have hcap := min_le_left (b.tokens + secs b.refilled now * b.rate) 1
    have hsince := h.tokens
    rw [refill_tokens, refill_refilled, refill_rate, ← secs_add h.refilled hstart, add_mul]
    linarith

theorem since_of_taken {rate : ℚ} (hrate : 0 < rate) (h : Holds rate b) (htaken : (b.tryTake now).1 = .taken) :
    Since now (b.tryTake now).2 := by
  rcases tryTake_cases (h.rate ▸ hrate) now with ⟨-, htry⟩ | ⟨-, htry⟩
  · rw [htry]
    refine ⟨Nat.le_refl now, ?_⟩
    show (b.refill now).tokens - 1 ≤ secs now now * b.rate
    have hmost := (h.refill hrate now).most
    rw [secs_eq_zero (Nat.le_refl now), zero_mul]
    linarith
  · rw [htry] at htaken
    cases htaken

/-- A token is taken only when a whole one has come back. -/
theorem Since.gap_le {rate : ℚ} (hrate : 0 < rate) (h : Holds rate b) {s : Moment} (hsince : Since s b)
    (hstart : b.refilled ≤ now) (htaken : (b.tryTake now).1 = .taken) : 1 / rate ≤ secs s now := by
  rcases tryTake_cases (h.rate ▸ hrate) now with ⟨hwhole, -⟩ | ⟨-, htry⟩
  · have hback := (hsince.refill hstart).tokens
    rw [refill_refilled, refill_rate, h.rate] at hback
    rw [div_le_iff₀ hrate]
    exact hwhole.trans hback
  · rw [htry] at htaken
    cases htaken

/-- Attempts that succeed are apart by the time in which a token comes back, from each other and from
the last one before. -/
theorem successes_spaced {rate : ℚ} (hrate : 0 < rate) (h : Holds rate b) {moments : List Moment}
    (hclock : (b.refilled :: moments).Pairwise (· ≤ ·)) :
    (b.successes moments).Pairwise (fun s t => 1 / rate ≤ secs s t) ∧
      ∀ s, Since s b → ∀ t ∈ b.successes moments, 1 / rate ≤ secs s t := by
  induction moments generalizing b with
  | nil => exact ⟨List.Pairwise.nil, fun s _ t ht => by cases ht⟩
  | cons now rest ih =>
    obtain ⟨hfrom, hclock⟩ := List.pairwise_cons.mp hclock
    have hstart : b.refilled ≤ now := hfrom now List.mem_cons_self
    have hrefilled : (b.tryTake now).2.refilled = now := tryTake_refilled (h.rate ▸ hrate) now
    obtain ⟨hspaced, hlater⟩ := ih (h.tryTake hrate now) (hrefilled.symm ▸ hclock)
    by_cases htaken : (b.tryTake now).1 = .taken
    · have hnext := hlater now (since_of_taken hrate h htaken)
      rw [successes_cons_of_taken htaken]
      refine ⟨List.pairwise_cons.mpr ⟨hnext, hspaced⟩, fun s hsince t ht => ?_⟩
      have hgap := hsince.gap_le hrate h hstart htaken
      rcases List.mem_cons.mp ht with rfl | ht
      · exact hgap
      · exact (hnext t ht).trans (secs_mono_left (hsince.refilled.trans hstart)
          (le_of_secs_pos ((one_div_pos.mpr hrate).trans_le (hnext t ht))))
    · rw [successes_cons_of_not_taken htaken]
      refine ⟨hspaced, fun s hsince t ht => hlater s ?_ t ht⟩
      rcases tryTake_cases (h.rate ▸ hrate) now with ⟨-, htry⟩ | ⟨-, htry⟩
      · rw [htry] at htaken
        exact absurd rfl htaken
      · rw [htry]
        exact hsince.refill hstart

/-! ### Waits -/

theorem taken_iff (hrate : 0 < b.rate) (now : Moment) : (b.tryTake now).1 = .taken ↔ 1 ≤ (b.refill now).tokens := by
  rcases tryTake_cases hrate now with ⟨hwhole, htry⟩ | ⟨hfew, htry⟩
  · rw [htry]
    exact ⟨fun _ => hwhole, fun _ => rfl⟩
  · rw [htry]
    constructor
    · intro htaken
      cases htaken
    · intro hwhole
      exact absurd hwhole (not_le.mpr hfew)

/-- An attempt that tells of a wait leaves the bucket refilled. -/
theorem refill_of_wait (hrate : 0 < b.rate) {w : ℚ} (hwait : (b.tryTake now).1 = .wait w) :
    (b.refill now).tokens < 1 ∧ (b.tryTake now).2 = b.refill now ∧
      Quantity.seconds (Quantity.span (b.refill now).missing) = w := by
  rcases tryTake_cases hrate now with ⟨-, htry⟩ | ⟨hfew, htry⟩
  · rw [htry] at hwait
    cases hwait
  · rw [htry] at hwait ⊢
    exact ⟨hfew, rfl, by simpa using hwait⟩

theorem missing_eq (b : TokenBucket ℚ) : b.missing = (1 - b.tokens) / b.rate := by
  have hfull : (full : ℚ) = 1 := Nat.cast_one
  rw [missing, hfull]

theorem missing_pos (hrate : 0 < b.rate) (hfew : b.tokens < 1) : 0 < b.missing := by
  rw [missing_eq]
  exact div_pos (sub_pos.mpr hfew) hrate

/-- There is a token once what was missing has come back. -/
theorem refill_whole_iff (hrate : 0 < b.rate) (later : Moment) :
    1 ≤ (b.refill later).tokens ↔ b.missing ≤ secs b.refilled later := by
  rw [refill_tokens, le_min_iff, missing_eq, div_le_iff₀ hrate, sub_le_iff_le_add']
  exact and_iff_left (le_refl 1)

/-- Until then less and less is missing. -/
theorem missing_refill (hrate : 0 < b.rate) {later : Moment} (hfew : (b.refill later).tokens < 1) :
    (b.refill later).missing = b.missing - secs b.refilled later := by
  have hpart : (b.refill later).tokens = b.tokens + secs b.refilled later * b.rate := by
    rw [refill_tokens] at hfew ⊢
    exact min_eq_left (le_of_lt (by simpa using hfew))
  rw [missing_eq, missing_eq, hpart, refill_rate]
  field_simp
  ring

/-- A later attempt succeeds once what was missing has come back; attempts that fail in the meantime make
no difference to that. -/
theorem taken_iff_missing_over {rate : ℚ} (hrate : 0 < rate) (h : Holds rate b) {w : ℚ}
    (hwait : (b.tryTake now).1 = .wait w) {between : List Moment} {again : Moment}
    (hclock : (now :: (between ++ [again])).Pairwise (· ≤ ·)) (hnone : (b.tryTake now).2.successes between = []) :
    (((b.tryTake now).2.after between).tryTake again).1 = .taken ↔ (b.refill now).missing ≤ secs now again := by
  have hpos : 0 < b.rate := h.rate ▸ hrate
  have hpast : ∀ t ∈ now :: between, t ≤ again := by
    rw [← List.cons_append, List.pairwise_append] at hclock
    exact fun t ht => hclock.2.2 t ht again List.mem_cons_self
  have hbetween : (now :: between).Pairwise (· ≤ ·) :=
    hclock.sublist ((List.sublist_append_left _ _).cons_cons now)
  have hsame := (sameFrom_successes hrate (h.tryTake hrate now) (fun _ _ => rfl)
    (tryTake_refilled hpos now).le hbetween hpast).1
  rw [hnone] at hsame
  rw [hsame.tryTake]
  show ((b.tryTake now).2.tryTake again).1 = .taken ↔ _
  rw [(refill_of_wait hpos hwait).2.1, taken_iff (b := b.refill now) hpos, refill_whole_iff (b := b.refill now) hpos,
    refill_refilled]

/-! ### What is told of a wait -/

theorem roundDiv_near (num : Nat) {den : Nat} (hden : 0 < den) :
    2 * num ≤ (2 * Decimal.roundDiv num den + 1) * den ∧ 2 * Decimal.roundDiv num den * den ≤ 2 * num + den := by
  have hdiv : den * (num / den) + num % den = num := Nat.div_add_mod num den
  have hrest : num % den < den := Nat.mod_lt num hden
  have hmul : ∀ q, (2 * q + 1) * den = 2 * (den * q) + den := fun q => by ring
  have hmul' : ∀ q, 2 * q * den = 2 * (den * q) := fun q => by ring
  have hsucc : den * (num / den + 1) = den * (num / den) + den := Nat.mul_succ _ _
  unfold Decimal.roundDiv
  simp only [hmul, hmul']
  split_ifs <;> constructor <;> omega

theorem roundDiv_eq_zero {num den : Nat} (hden : 0 < den) (hsmall : 2 * num ≤ den) :
    Decimal.roundDiv num den = 0 := by
  have hlt : num < den := by omega
  unfold Decimal.roundDiv
  simp only [Nat.div_eq_of_lt hlt, Nat.mod_eq_of_lt hlt]
  split_ifs <;> omega

section Span
variable {w : ℚ}

theorem span_ratio (hw : 0 ≤ w) : w * 1000000000 = ((w.num.toNat * 1000000000 : ℕ) : ℚ) / (w.den : ℚ) := by
  have hnum : ((w.num.toNat : ℕ) : ℚ) = (w.num : ℚ) := by
    exact_mod_cast Int.toNat_of_nonneg (Rat.num_nonneg.mpr hw)
  rw [Nat.cast_mul, hnum, mul_div_right_comm, Rat.num_div_den]
  norm_num

/-- The nearest span is no more than half a nanosecond off. -/
theorem span_near (hw : 0 ≤ w) :
    w * 1000000000 ≤ (Quantity.span w).nanos + 1 / 2 ∧ (Quantity.span w).nanos ≤ w * 1000000000 + 1 / 2 := by
  have hden : (0 : ℚ) < (w.den : ℚ) := by exact_mod_cast w.den_pos
  obtain ⟨hlow, hhigh⟩ := roundDiv_near (w.num.toNat * 1000000000) w.den_pos
  have hnanos : (Quantity.span w).nanos = Decimal.roundDiv (w.num.toNat * 1000000000) w.den := rfl
  rw [span_ratio hw, hnanos]
  generalize w.num.toNat * 1000000000 = num at hlow hhigh ⊢
  generalize Decimal.roundDiv num w.den = q at hlow hhigh ⊢
  have hlow : 2 * (num : ℚ) ≤ (2 * q + 1) * w.den := by exact_mod_cast hlow
  have hhigh : 2 * (q : ℚ) * w.den ≤ 2 * num + w.den := by exact_mod_cast hhigh
  constructor
  · rw [div_le_iff₀ hden]
    linarith
  · rw [← sub_le_iff_le_add, le_div_iff₀ hden]
    linarith

/-- So a span that is told in seconds is that span again. -/
@[simp] theorem span_seconds (d : Span) : Quantity.span (Quantity.seconds d : ℚ) = d := by
  have hnanos : (Quantity.seconds d : ℚ) * 1000000000 = d.nanos := div_mul_cancel₀ _ (by norm_num)
  have hnonneg : (0 : ℚ) ≤ Quantity.seconds d := by
    show (0 : ℚ) ≤ (d.nanos : ℚ) / 1000000000
    positivity
  obtain ⟨hlow, hhigh⟩ := span_near hnonneg
  rw [hnanos] at hlow hhigh
  generalize Quantity.span (Quantity.seconds d : ℚ) = d' at hlow hhigh ⊢
  have hle : ((d.nanos : ℕ) : ℚ) < ((d'.nanos + 1 : ℕ) : ℚ) := by
    push_cast
    linarith
  have hge : ((d'.nanos : ℕ) : ℚ) < ((d.nanos + 1 : ℕ) : ℚ) := by
    push_cast
    linarith
  have hsame : d'.nanos = d.nanos :=
    Nat.le_antisymm (Nat.lt_succ_iff.mp (by exact_mod_cast hge)) (Nat.lt_succ_iff.mp (by exact_mod_cast hle))
  exact congrArg Span.mk hsame

theorem seconds_inj {d d' : Span} (h : (Quantity.seconds d : ℚ) = Quantity.seconds d') : d = d' := by
  rw [← span_seconds d, h, span_seconds]

/-- What is missing has not come back before the moment that is told, and has after it. -/
theorem over_of_span (hw : 0 < w) (now again : Nat) :
    (again < now + (Quantity.span w).nanos → secs now again < w) ∧
      (now + (Quantity.span w).nanos < again → w ≤ secs now again) := by
  obtain ⟨hlow, hhigh⟩ := span_near hw.le
  generalize (Quantity.span w).nanos = d at hlow hhigh ⊢
  constructor
  · intro hearly
    rcases Nat.le_total now again with hle | hle
    · have hcast : ((again : ℕ) : ℚ) + 1 ≤ now + d := by exact_mod_cast hearly
      rw [secs_eq hle, div_lt_iff₀ (by norm_num)]
      linarith
    · rw [secs_eq_zero hle]
      exact hw
  · intro hlate
    have hcast : (now : ℚ) + d + 1 ≤ again := by exact_mod_cast hlate
    rw [secs_eq ((Nat.le_add_right now d).trans hlate.le), le_div_iff₀ (by norm_num)]
    linarith

theorem span_eq_zero (hw : 0 ≤ w) (hsmall : w * 1000000000 ≤ 1 / 2) : Quantity.span w = .zero := by
  have hden : (0 : ℚ) < (w.den : ℚ) := by exact_mod_cast w.den_pos
  rw [span_ratio hw, div_le_iff₀ hden] at hsmall
  refine congrArg Span.mk (roundDiv_eq_zero w.den_pos ?_)
  have hsmall : ((2 * (w.num.toNat * 1000000000) : ℕ) : ℚ) ≤ ((w.den : ℕ) : ℚ) := by
    rw [Nat.cast_mul 2, Nat.cast_ofNat]
    linarith
  exact_mod_cast hsmall

end Span

theorem secs_later (start : Moment) (length : Span) : secs start (start.later length) = Quantity.seconds length := by
  have helapsed : start.elapsed (start.later length) = length := by
    show (⟨start + length.nanos - start⟩ : Span) = length
    rw [Nat.add_sub_cancel_left]
  rw [secs, helapsed]

/-- What an attempt tells of a wait decides when a token is there, but for the very moment that it names:
then there is one unless less was told than is missing. -/
theorem taken_iff_told {rate : ℚ} (hrate : 0 < rate) (h : Holds rate b) {d : Span}
    (hwait : (b.tryTake now).1 = .wait (Quantity.seconds d)) {between : List Moment} {again : Moment}
    (hclock : (now :: (between ++ [again])).Pairwise (· ≤ ·)) (hnone : (b.tryTake now).2.successes between = []) :
    (((b.tryTake now).2.after between).tryTake again).1 = .taken ↔
      now.later d < again ∨ (now.later d = again ∧ (b.refill now).missing ≤ Quantity.seconds d) := by
  have hpos : 0 < b.rate := h.rate ▸ hrate
  obtain ⟨hfew, -, htold⟩ := refill_of_wait hpos hwait
  obtain rfl := seconds_inj htold
  rw [taken_iff_missing_over hrate h hwait hclock hnone]
  obtain ⟨hbefore, hpast⟩ := over_of_span (missing_pos (b := b.refill now) hpos hfew) now again
  rcases Nat.lt_trichotomy again (now.later (Quantity.span (b.refill now).missing)) with hlt | heq | hgt
  · have hshort := hbefore hlt
    constructor
    · intro hover
      exact absurd hover (not_le.mpr hshort)
    · rintro (hgt | ⟨heq, -⟩)
      · exact absurd hgt (Nat.lt_asymm hlt)
      · exact absurd heq (Nat.ne_of_gt hlt)
  · rw [heq, secs_later]
    simp
  · exact ⟨fun _ => .inl hgt, fun _ => hpast hgt⟩

/-! ### Waiting for a token -/

theorem le_wakeTime (now : Nat) (d : Span) : now + d.nanos ≤ Moment.wakeTime now d := by
  show now + d.nanos ≤ (now + max d.nanos 1 + 999999) / 1000000 * 1000000
  omega

/-- Who wakes when a reported wait is over and comes too early comes at that very moment, and has half
a nanosecond to wait at most. -/
theorem rest_of_wait {w : ℚ} {now wake d : Nat} (hle : now + d ≤ wake) (hshort : secs now wake < w)
    (hnear : w * 1000000000 ≤ d + 1 / 2) : wake = now + d ∧ (w - secs now wake) * 1000000000 ≤ 1 / 2 := by
  have hnow : now ≤ wake := (Nat.le_add_right now d).trans hle
  rw [secs_eq hnow, div_lt_iff₀ (by norm_num)] at hshort
  have hlt : ((wake : ℕ) : ℚ) < ((now + d + 1 : ℕ) : ℚ) := by
    push_cast
    linarith
  have hsame : wake = now + d := Nat.le_antisymm (Nat.lt_succ_iff.mp (by exact_mod_cast hlt)) hle
  refine ⟨hsame, ?_⟩
  rw [secs_eq hnow, hsame]
  push_cast
  linarith

/-- An acquisition fails only if the wait that its first attempt reports reaches beyond the deadline:
after a wait that does not there is a token, or there is one at the next millisecond. -/
theorem acquireBy_late {rate : ℚ} (hrate : 0 < rate) {timeout : Span} {deadline : Nat} (h : Holds rate b)
    (hstart : b.refilled ≤ now) {f : Failure} (hfailed : (b.acquireBy timeout deadline now).result = .error f) :
    f = lateFailure timeout ∧ ∃ d, (b.tryTake now).1 = .wait (Quantity.seconds d) ∧ deadline < now + d.nanos := by
  fun_induction acquireBy b timeout deadline now with
  | case1 b now b' htry => cases hfailed
  | case2 b now b' htry =>
    rcases tryTake_cases (h.rate ▸ hrate) now with ⟨-, htry'⟩ | ⟨-, htry'⟩ <;>
      rw [htry] at htry' <;> cases htry'
  | case3 b now w b' htry d hlate =>
    obtain rfl : lateFailure timeout = f := by simpa using hfailed
    have hwait : (b.tryTake now).1 = .wait w := by rw [htry]
    obtain ⟨-, -, htold⟩ := refill_of_wait (h.rate ▸ hrate) hwait
    have hd : d = Quantity.span (b.refill now).missing := (congrArg Quantity.span htold.symm).trans (span_seconds _)
    exact ⟨rfl, d, by rw [hwait, hd, htold], hlate⟩
  | case4 b now w b' htry d hsoon ih =>
    have hpos : 0 < b.rate := h.rate ▸ hrate
    have hwait : (b.tryTake now).1 = .wait w := by rw [htry]
    obtain ⟨hfew, hnext, htold⟩ := refill_of_wait hpos hwait
    have hd : d = Quantity.span (b.refill now).missing := (congrArg Quantity.span htold.symm).trans (span_seconds _)
    have hb' : b' = b.refill now := by rw [← hnext, htry]
    clear_value d
    subst hb'
    have hwake : now < Moment.wakeTime now d := Moment.lt_wakeTime now d
    have hnear : (b.refill now).missing * 1000000000 ≤ d.nanos + 1 / 2 := by
      rw [hd]
      exact (span_near (missing_pos (b := b.refill now) hpos hfew).le).1
    obtain ⟨hf, d', hwait', hlate⟩ := ih (h.refill hrate now) hwake.le hfailed
    refine ⟨hf, d, by rw [hwait, hd, htold], ?_⟩
    -- The rest of the wait is what rounding took off it, and is reported as no time at all.
    obtain ⟨hfew', -, htold'⟩ := refill_of_wait (b := b.refill now) hpos hwait'
    have hrest := missing_refill (b := b.refill now) hpos hfew'
    have hshort : secs now (Moment.wakeTime now d) < (b.refill now).missing :=
      sub_pos.mp (hrest ▸ missing_pos (b := (b.refill now).refill _) hpos hfew')
    obtain ⟨hsame, hsmall⟩ := rest_of_wait (le_wakeTime now d) hshort hnear
    have hnone : d' = .zero := by
      rw [← seconds_inj htold', hrest]
      exact span_eq_zero (sub_pos.mpr hshort).le hsmall
    rw [hnone, hsame] at hlate
    simpa [Span.zero] using hlate

/-- Acquisitions in turn are attempts as well. -/
theorem acquireInTurn_attempts {α : Type} [Quantity α] (b : TokenBucket α) (now : Moment) (timeouts : List Span) :
    now ≤ (b.acquireInTurn now timeouts).2 ∧ ∃ moments : List Moment, (now :: moments).Pairwise (· ≤ ·) ∧
      (∀ t ∈ moments, t ≤ (b.acquireInTurn now timeouts).2) ∧
      (b.successes moments).length = (b.acquireInTurn now timeouts).1 := by
  induction timeouts generalizing b now with
  | nil => exact ⟨Nat.le_refl now, [], by simp, by simp, rfl⟩
  | cons timeout rest ih =>
    obtain ⟨hle, first, hclock, hpast, hafter, hsuccesses⟩ := acquireBy_attempts b timeout (now + timeout.nanos) now
    obtain ⟨hle', others, hclock', hpast', hcount⟩ :=
      ih (b.acquire timeout now).bucket (b.acquire timeout now).moment
    have hturn : b.acquireInTurn now (timeout :: rest) =
        (if (b.acquire timeout now).result.toBool then
            ((b.acquire timeout now).bucket.acquireInTurn (b.acquire timeout now).moment rest).1 + 1
          else ((b.acquire timeout now).bucket.acquireInTurn (b.acquire timeout now).moment rest).1,
          ((b.acquire timeout now).bucket.acquireInTurn (b.acquire timeout now).moment rest).2) := rfl
    rw [hturn]
    refine ⟨hle.trans hle', first ++ others, ?_, fun t ht => ?_, ?_⟩
    · rw [← List.cons_append, List.pairwise_append]
      refine ⟨hclock, (List.pairwise_cons.mp hclock').2, fun a ha c hc => ?_⟩
      have hmiddle : a ≤ (b.acquire timeout now).moment := by
        rcases List.mem_cons.mp ha with rfl | ha
        · exact hle
        · exact hpast a ha
      exact hmiddle.trans ((List.pairwise_cons.mp hclock').1 c hc)
    · rcases List.mem_append.mp ht with ht | ht
      · exact (hpast t ht).trans hle'
      · exact hpast' t ht
    · have hone : (b.successes first).length = if (b.acquire timeout now).result.toBool then 1 else 0 := by
        rw [hsuccesses, apply_ite List.length]
        rfl
      rw [successes_append, List.length_append, hafter, hone]
      show _ + ((b.acquire timeout now).bucket.successes others).length = _
      rw [hcount]
      split <;> omega

end Exact

/-! ### The pace -/

/-- A fresh bucket for so many tokens a minute keeps its pace over attempts at these moments, and over
what comes after them. -/
structure Paced (perMinute : Nat) (b : TokenBucket ℚ) (moments : List Moment) : Prop where
  level : 0 ≤ (b.after moments).tokens ∧ (b.after moments).tokens ≤ 1
  /-- Attempts that succeed are apart by the time in which a token comes back. -/
  spaced : (b.successes moments).Pairwise fun s t => 60 / (perMinute : ℚ) ≤ secs s t
  /-- So there are not many in any stretch of time. -/
  few : ∀ (start : Moment) (length : Span),
    (((b.successes moments).filter fun t => start ≤ t ∧ t ≤ start.later length).length : ℚ) ≤
      1 + Quantity.seconds length * perMinute / 60
  /-- Attempts that failed change nothing for a later one. -/
  unaffected : ∀ now, (∀ t ∈ b.refilled :: moments, t ≤ now) →
    (b.after moments).tryTake now = (b.after (b.successes moments)).tryTake now
  /-- An attempt that fails tells of a wait, which is no more than half a nanosecond off. -/
  reports : ∀ now, ((b.after moments).tryTake now).1 = .taken ∨
    ∃ d : Span, ((b.after moments).tryTake now).1 = .wait (Quantity.seconds d) ∧
      ((b.after moments).refill now).missing * 1000000000 ≤ d.nanos + 1 / 2 ∧
      d.nanos ≤ ((b.after moments).refill now).missing * 1000000000 + 1 / 2
  /-- Unless a token is taken in between, an attempt fails before the moment that was told and succeeds
  after it; at that very moment it succeeds unless less was told than was missing. -/
  exact : ∀ now d, (∀ t ∈ b.refilled :: moments, t ≤ now) →
    ((b.after moments).tryTake now).1 = .wait (Quantity.seconds d) →
    ∀ between again, (now :: (between ++ [again])).Pairwise (· ≤ ·) →
      ((b.after moments).tryTake now).2.successes between = [] →
        (((((b.after moments).tryTake now).2.after between).tryTake again).1 = .taken ↔
          now.later d < again ∨
            (now.later d = again ∧ ((b.after moments).refill now).missing ≤ Quantity.seconds d))
  /-- Tokens that are acquired in turn take the time of all gaps between them. -/
  inTurn : ∀ now timeouts, (∀ t ∈ b.refilled :: moments, t ≤ now) →
    (((b.after moments).acquireInTurn now timeouts).1 - 1) * (60 / (perMinute : ℚ)) ≤
      secs now ((b.after moments).acquireInTurn now timeouts).2
  /-- Who fails to acquire a token was told of a wait beyond the deadline. -/
  late : ∀ now timeout f, (∀ t ∈ b.refilled :: moments, t ≤ now) →
    ((b.after moments).acquire timeout now).result = .error f →
    f = lateFailure timeout ∧ ∃ d, ((b.after moments).tryTake now).1 = .wait (Quantity.seconds d) ∧
      now + timeout.nanos < now + d.nanos

/-- In exact numbers a bucket keeps its pace over every run of attempts at moments that do not go back. -/
theorem run_paced (perMinute : Nat) (hrate : 1 ≤ perMinute) (created : Moment) (moments : List Moment)
    (hclock : (created :: moments).Pairwise (· ≤ ·)) : Paced perMinute (create perMinute created) moments := by
  have hminute : (0 : ℚ) < perMinute / 60 := by
    have hcast : (1 : ℚ) ≤ perMinute := by exact_mod_cast hrate
    linarith
  have hgap : 1 / ((perMinute : ℚ) / 60) = 60 / perMinute := one_div_div _ _
  have hfresh : Holds (perMinute / 60) (create perMinute created) := holds_create perMinute created
  have hrun : Holds (perMinute / 60) ((create perMinute created).after moments) := hfresh.after hminute moments
  have hspaced := (successes_spaced hminute hfresh hclock).1
  have hrefilled : ∀ now, (∀ t ∈ created :: moments, t ≤ now) →
      ((create perMinute created : TokenBucket ℚ).after moments).refilled ≤ now :=
    fun now hpast => after_refilled_le hminute hfresh (hpast created List.mem_cons_self) fun t ht =>
      hpast t (List.mem_cons_of_mem created ht)
  refine ⟨⟨hrun.nonneg, hrun.most⟩, hgap ▸ hspaced, fun start length => ?_, fun now hpast => ?_, fun now => ?_,
    fun now w hpast hwait between again hclock' hnone => ?_, fun now timeouts hpast => ?_,
    fun now timeout f hpast hfailed => ?_⟩
  · have hwithin : ∀ t ∈ ((create perMinute created : TokenBucket ℚ).successes moments).filter
        (fun t => start ≤ t ∧ t ≤ start.later length), start ≤ t ∧ t ≤ start.later length :=
      fun t ht => by simpa using (List.mem_filter.mp ht).2
    have hlength := length_le_of_spaced (one_div_pos.mpr hminute) (hspaced.filter _) hwithin
    rw [secs_later, div_div_eq_mul_div, div_one, ← mul_div_assoc] at hlength
    exact hlength
  · exact (sameFrom_successes hminute hfresh (fun _ _ => rfl) (Nat.le_refl created) hclock hpast).1.tryTake
  · rcases tryTake_cases (hrun.rate ▸ hminute) now with ⟨-, htry⟩ | ⟨hfew, htry⟩
    · exact .inl (by rw [htry])
    · exact .inr ⟨_, by rw [htry], span_near (missing_pos (hrun.rate ▸ hminute) hfew).le⟩
  · exact taken_iff_told hminute hrun hwait hclock' hnone
  · obtain ⟨-, tries, hclock', hpast', hcount⟩ :=
      acquireInTurn_attempts ((create perMinute created : TokenBucket ℚ).after moments) now timeouts
    obtain ⟨hfrom, hsorted⟩ := List.pairwise_cons.mp hclock'
    have hspaced' := (successes_spaced hminute hrun
      (List.pairwise_cons.mpr ⟨fun t ht => (hrefilled now hpast).trans (hfrom t ht), hsorted⟩)).1
    have hlength := length_le_of_spaced (one_div_pos.mpr hminute) hspaced' fun t ht =>
      ⟨hfrom t ((successes_sublist _ tries).subset ht), hpast' t ((successes_sublist _ tries).subset ht)⟩
    rw [hcount, ← sub_le_iff_le_add', le_div_iff₀ (one_div_pos.mpr hminute), hgap] at hlength
    exact hlength
  · exact acquireBy_late hminute hrun (hrefilled now hpast) hfailed

/-- Sixty a minute, asked seven times in some seconds: tokens are taken a second apart at least. -/
theorem run_paced_sixty :
    let moments := [0, 400000000, 1000000000, 1000000000, 1700000000, 2600000000, 3500000000]
    (1 ≤ 60 ∧ ((0 : Moment) :: moments).Pairwise (· ≤ ·)) ∧ Paced 60 (create 60 0) moments ∧
      (create 60 0 : TokenBucket ℚ).successes moments = [0, 1000000000, 2600000000] :=
  ⟨⟨by decide, by decide⟩, run_paced 60 (by decide) 0 _ (by decide), by decide +kernel⟩

/-- The moment that is told need not be late enough. Of seven tokens a minute the next one is eight and
four sevenths of a second away, which is rounded down. -/
theorem told_too_early :
    ¬∀ (perMinute : Nat) (created : Moment) (moments : List Moment) (now again : Moment) (d : Span),
      1 ≤ perMinute →
      (created :: (moments ++ [now, again])).Pairwise (· ≤ ·) →
      (((create perMinute created : TokenBucket ℚ).after moments).tryTake now).1 = .wait (Quantity.seconds d) →
      now.later d ≤ again →
      ((((create perMinute created : TokenBucket ℚ).after moments).tryTake now).2.tryTake again).1 = .taken := by
  intro hall
  have htold : (((create 7 0 : TokenBucket ℚ).after [0]).tryTake 0).1 =
      .wait (Quantity.seconds ⟨8571428571⟩) := by
    decide +kernel
  have htaken := hall 7 0 [0] 0 8571428571 ⟨8571428571⟩ (by decide) (by decide) htold (by decide)
  have hnot : ((((create 7 0 : TokenBucket ℚ).after [0]).tryTake 0).2.tryTake 8571428571).1 ≠ .taken := by
    decide +kernel
  exact hnot htaken

end TokenBucket

end AdmissionWatch.Dispatch
