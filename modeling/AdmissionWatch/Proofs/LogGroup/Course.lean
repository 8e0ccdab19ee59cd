import AdmissionWatch.LogGroup.Poll
import AdmissionWatch.Proofs.LogGroup.Session

/-!
# Courses

The course of a session is what it did, step by step, and what each step brought: which calls were
made and how they were answered, how long it waited and whether it was cut off, and which messages the
intake looked at, by which clock. Nothing is said of where answers, cuts and clocks come from, so what
holds of all courses holds in all surroundings (`exists_course`). A course of two sessions one after the
other is a course of the first and then one of the second (`course_bind_iff`), and where the first ends
shows in the course itself (`Course.append_inj`).
-/

namespace AdmissionWatch.LogGroup

open Time

/-- What a session did in one step, and what that brought. -/
inductive Interaction where
  | asked (call : Call) (reply : call.Reply)
  | paused (span : Span) (isCut : Bool)
  | handed (now : Clock) (messages : List String)

namespace Session

variable {α β : Type} {x : Session α} {i mid i' : Intake} {steps first rest : List Interaction}

/-- A session that ends with a result does this, and does that to the intake. -/
inductive Course : Session α → Intake → List Interaction → α → Intake → Prop where
  | done (a : α) (i : Intake) : Course (.done a) i [] a i
  | ask {c : Call} {resume : c.Reply → Session α} {reply : c.Reply} {i i' : Intake}
      {steps : List Interaction} {a : α}
      (h : Course (resume reply) i steps a i') : Course (.ask c resume) i (.asked c reply :: steps) a i'
  | pause {d : Span} {resume : Bool → Session α} {isCut : Bool} {i i' : Intake} {steps : List Interaction} {a : α}
      (h : Course (resume isCut) i steps a i') : Course (.pause d resume) i (.paused d isCut :: steps) a i'
  | hand {messages : List String} {resume : Source.Tally → Session α} {now : Clock} {i i' : Intake}
      {steps : List Interaction} {a : α}
      (h : Course (resume (readMessages now i messages).tally) (readMessages now i messages).intake steps a i') :
      Course (.hand messages resume) i (.handed now messages :: steps) a i'

@[simp] theorem course_done_iff {a b : α} : (Session.done a).Course i steps b i' ↔
    steps = [] ∧ b = a ∧ i' = i := by
  constructor
  · intro h
    cases h
    exact ⟨rfl, rfl, rfl⟩
  · rintro ⟨rfl, rfl, rfl⟩
    exact .done _ _

@[simp] theorem course_pure_iff {a b : α} : (pure a : Session α).Course i steps b i' ↔
    steps = [] ∧ b = a ∧ i' = i :=
  course_done_iff

theorem course_ask_iff {c : Call} {resume : c.Reply → Session α} {a : α} :
    (Session.ask c resume).Course i steps a i' ↔
      ∃ reply rest, steps = .asked c reply :: rest ∧ (resume reply).Course i rest a i' := by
  constructor
  · intro h
    cases h with
    | ask h => exact ⟨_, _, rfl, h⟩
  · rintro ⟨reply, rest, rfl, h⟩
    exact .ask h

theorem course_pause_iff {d : Span} {resume : Bool → Session α} {a : α} :
    (Session.pause d resume).Course i steps a i' ↔
      ∃ isCut rest, steps = .paused d isCut :: rest ∧ (resume isCut).Course i rest a i' := by
  constructor
  · intro h
    cases h with
    | pause h => exact ⟨_, _, rfl, h⟩
  · rintro ⟨isCut, rest, rfl, h⟩
    exact .pause h

theorem course_hand_iff {messages : List String} {resume : Source.Tally → Session α} {a : α} :
    (Session.hand messages resume).Course i steps a i' ↔
      ∃ now rest, steps = .handed now messages :: rest ∧
        (resume (readMessages now i messages).tally).Course (readMessages now i messages).intake rest a i' := by
  constructor
  · intro h
    cases h with
    | hand h => exact ⟨_, _, rfl, h⟩
  · rintro ⟨now, rest, rfl, h⟩
    exact .hand h

theorem Course.bind {f : α → Session β} {a : α} {b : β} (hx : x.Course i first a mid)
    (hf : (f a).Course mid rest b i') : (x >>= f).Course i (first ++ rest) b i' := by
  induction hx with
  | done => exact hf
  | ask _ ih => exact .ask (ih hf)
  | pause _ ih => exact .pause (ih hf)
  | hand _ ih => exact .hand (ih hf)

theorem Course.bind_nil {f : α → Session β} {a : α} {b : β} (hx : x.Course i steps a mid)
    (hf : (f a).Course mid [] b i') : (x >>= f).Course i steps b i' := by
  simpa using hx.bind hf

theorem course_bind_iff {f : α → Session β} {b : β} :
    (x >>= f).Course i steps b i' ↔
      ∃ first rest a mid, steps = first ++ rest ∧ x.Course i first a mid ∧ (f a).Course mid rest b i' := by
  constructor
  · intro h
    change (x.bind f).Course i steps b i' at h
    induction x generalizing i steps with
    | done a => exact ⟨[], steps, a, i, rfl, .done a i, h⟩
    | ask c resume ih =>
      obtain ⟨reply, steps, rfl, hresume⟩ := course_ask_iff.mp h
      obtain ⟨first, rest, a, mid, rfl, hx, hf⟩ := ih reply hresume
      exact ⟨_ :: first, rest, a, mid, rfl, .ask hx, hf⟩
    | pause d resume ih =>
      obtain ⟨isCut, steps, rfl, hresume⟩ := course_pause_iff.mp h
      obtain ⟨first, rest, a, mid, rfl, hx, hf⟩ := ih isCut hresume
      exact ⟨_ :: first, rest, a, mid, rfl, .pause hx, hf⟩
    | hand messages resume ih =>
      obtain ⟨now, steps, rfl, hresume⟩ := course_hand_iff.mp h
      obtain ⟨first, rest, a, mid, rfl, hx, hf⟩ := ih _ hresume
      exact ⟨_ :: first, rest, a, mid, rfl, .hand hx, hf⟩
  · rintro ⟨first, rest, a, mid, rfl, hx, hf⟩
    exact hx.bind hf

/-- No course goes on where another of the same session has ended: what the steps brought decides what
the session does next. -/
theorem Course.append_inj {a a' : α} {mid' : Intake} {first' rest' : List Interaction} (h : x.Course i first a mid)
    (h' : x.Course i first' a' mid') (hsteps : first ++ rest = first' ++ rest') :
    first = first' ∧ rest = rest' ∧ a = a' ∧ mid = mid' := by
  induction h generalizing first' with
  | done =>
    obtain ⟨rfl, rfl, rfl⟩ := course_done_iff.mp h'
    exact ⟨rfl, hsteps, rfl, rfl⟩
  | ask _ ih =>
    obtain ⟨reply, steps', rfl, hresume⟩ := course_ask_iff.mp h'
    obtain ⟨heq, htail⟩ := List.cons.inj hsteps
    cases heq
    obtain ⟨rfl, hrest⟩ := ih hresume htail
    exact ⟨rfl, hrest⟩
  | pause _ ih =>
    obtain ⟨isCut, steps', rfl, hresume⟩ := course_pause_iff.mp h'
    obtain ⟨heq, htail⟩ := List.cons.inj hsteps
    cases heq
    obtain ⟨rfl, hrest⟩ := ih hresume htail
    exact ⟨rfl, hrest⟩
  | hand _ ih =>
    obtain ⟨now, steps', rfl, hresume⟩ := course_hand_iff.mp h'
    obtain ⟨heq, htail⟩ := List.cons.inj hsteps
    cases heq
    obtain ⟨rfl, hrest⟩ := ih hresume htail
    exact ⟨rfl, hrest⟩

/-- After a course of the first session only the second goes on. -/
theorem course_bind_append_iff {f : α → Session β} {a : α} {b : β} (h : x.Course i first a mid) :
    (x >>= f).Course i (first ++ rest) b i' ↔ (f a).Course mid rest b i' := by
  constructor
  · intro hboth
    obtain ⟨first', rest', a', mid', hsteps, hx, hf⟩ := course_bind_iff.mp hboth
    obtain ⟨-, rfl, rfl, rfl⟩ := h.append_inj hx hsteps
    exact hf
  · exact h.bind

/-- A session that is run has a course, when the intake is a part of the surroundings that only looking
at messages changes. -/
theorem exists_course {σ : Type} {s : Surroundings σ} {intake : σ → Intake}
    (hask : ∀ c world, intake (s.ask c world).2 = intake world)
    (hpause : ∀ d world, intake (s.pause d world).2 = intake world)
    (hhand : ∀ messages world, ∃ now,
      (s.hand messages world).1 = (readMessages now (intake world) messages).tally ∧
      intake (s.hand messages world).2 = (readMessages now (intake world) messages).intake)
    (x : Session α) (world : σ) :
    ∃ steps, x.Course (intake world) steps (x.run s world).1 (intake (x.run s world).2) := by
  induction x generalizing world with
  | done a => exact ⟨[], .done a _⟩
  | ask c resume ih =>
    obtain ⟨steps, h⟩ := ih (s.ask c world).1 (s.ask c world).2
    rw [hask] at h
    exact ⟨_, .ask h⟩
  | pause d resume ih =>
    obtain ⟨steps, h⟩ := ih (s.pause d world).1 (s.pause d world).2
    rw [hpause] at h
    exact ⟨_, .pause h⟩
  | hand messages resume ih =>
    obtain ⟨now, htally, hintake⟩ := hhand messages world
    obtain ⟨steps, h⟩ := ih (s.hand messages world).1 (s.hand messages world).2
    rw [hintake] at h
    refine ⟨.handed now messages :: steps, .hand ?_⟩
    rw [← htally]
    exact h

end Session

end AdmissionWatch.LogGroup
