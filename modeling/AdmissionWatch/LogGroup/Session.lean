import AdmissionWatch.LogGroup.Call
import AdmissionWatch.Source.Tally
import AdmissionWatch.Time.Span

/-!
# Sessions with the log service

A session says what is to be done step by step: which calls are made, when there is a pause, which
messages are handed to the intake, and how it goes on after each of these. What they bring is the
matter of the surroundings in which the session is run; they can be a script, a simulation or the
world.
-/

namespace AdmissionWatch.LogGroup

open Time Source

/-- What is to be done to get an `α`. -/
inductive Session (α : Type) where
  /-- Nothing more. -/
  | done (result : α)
  /-- Make a call. -/
  | ask (call : Call) (resume : call.Reply → Session α)
  /-- Wait. The session goes on with `true` when it is cut off before the time is up. -/
  | pause (span : Span) (resume : Bool → Session α)
  /-- Hand messages to the intake, which tells what it found in them. -/
  | hand (messages : List String) (resume : Tally → Session α)

namespace Session

variable {α β σ : Type}

/-- One session after another. -/
def bind : Session α → (α → Session β) → Session β
  | done a, f => f a
  | ask c resume, f => ask c fun reply => (resume reply).bind f
  | pause d resume, f => pause d fun isCut => (resume isCut).bind f
  | hand messages resume, f => hand messages fun tally => (resume tally).bind f

instance : Monad Session where
  pure := done
  bind := bind

/-- What a session is run in: how calls, pauses and messages change its state, and what they
bring. -/
structure Surroundings (σ : Type) where
  ask : (c : Call) → σ → c.Reply × σ
  pause : Span → σ → Bool × σ
  hand : List String → σ → Tally × σ

/-- Runs a session to its end. -/
def run (s : Surroundings σ) : Session α → σ → α × σ
  | done a, world => (a, world)
  | ask c resume, world =>
    let (reply, world) := s.ask c world
    (resume reply).run s world
  | pause d resume, world =>
    let (isCut, world) := s.pause d world
    (resume isCut).run s world
  | hand messages resume, world =>
    let (tally, world) := s.hand messages world
    (resume tally).run s world

end Session

end AdmissionWatch.LogGroup
