import AdmissionWatch.LogGroup.Client
import AdmissionWatch.Proofs.Text.Digits
import AdmissionWatch.Proofs.Text.Occurrence
import AdmissionWatch.Proofs.Text.Pieces

/-!
# Which refusals pass

Whether a refused call is worth another try is told by searching the composed report for a few texts.
What is composed holds the operation, the status, the kind of failure and the message, with a colon and
a blank before each of the last two. No text that is searched for has a colon or a digit, or starts with
a blank, and none is in the name of an operation or the words after it. So it is in the kind or in the
message as a whole, or nowhere (`infix_report_iff`).
-/

namespace AdmissionWatch.LogGroup

open Text

variable {m : String}

/-! ### The report -/

/-- The words of a report up to the status. -/
def reportStart (c : Call) : List Char := c.operation.toList ++ " failed with status ".toList

/-- What is searched for cannot straddle the parts of a report. -/
structure KeepsWithin (m : List Char) : Prop where
  colon : ':' ∉ m
  blank : m.head? ≠ some ' '
  digit : ∀ d ∈ m, d.isDigit = false

theorem keepsWithin_of_mem (h : m ∈ passingMarkers) : KeepsWithin m.toList := by
  have hall : ∀ m ∈ passingMarkers,
      ':' ∉ m.toList ∧ m.toList.head? ≠ some ' ' ∧ m.toList.any Char.isDigit = false := by
    decide +kernel
  obtain ⟨hcolon, hblank, hdigit⟩ := hall m h
  exact ⟨hcolon, hblank, fun d hd => Bool.eq_false_iff.mpr (List.any_eq_false.mp hdigit d hd)⟩

theorem not_infix_reportStart (h : m ∈ passingMarkers) (c : Call) : ¬m.toList <:+: reportStart c := by
  have hall : ∀ operation ∈ ["DescribeLogGroups", "DescribeLogStreams", "GetLogEvents", "FilterLogEvents"],
      ∀ m ∈ passingMarkers, ¬m.toList <:+: operation.toList ++ " failed with status ".toList := by
    decide +kernel
  refine hall c.operation ?_ m h
  cases c <;> simp [Call.operation]

theorem not_infix_nil (h : m ∈ passingMarkers) : ¬m.toList <:+: [] := by
  have hall : ∀ m ∈ passingMarkers, m.toList ≠ [] := by decide +kernel
  rw [List.infix_nil]
  exact hall m h

/-- A text put behind a colon and a blank is a part of its own. -/
theorem KeepsWithin.infix_append_iff {m before part : List Char} (h : KeepsWithin m) :
    m <:+: before ++ (": ".toList ++ part) ↔ m <:+: before ∨ m <:+: part := by
  show m <:+: before ++ ':' :: (' ' :: part) ↔ _
  rw [infix_append_cons_iff h.colon, infix_cons_iff_of_head h.blank]

/-- What is searched for is in the kind or in the message, if it is in the report at all. -/
theorem infix_report_iff (h : m ∈ passingMarkers) (c : Call) (status : Nat) (kind message : String) :
    m.toList <:+: s!"{c.operation} failed with status {status}: {kind}: {message}".toList ↔
      m.toList <:+: kind.toList ∨ m.toList <:+: message.toList := by
  have hwithin := keepsWithin_of_mem h
  have htext : s!"{c.operation} failed with status {status}: {kind}: {message}".toList =
      (reportStart c ++ Nat.toDigits 10 status) ++
        (": ".toList ++ (kind.toList ++ (": ".toList ++ message.toList))) := by
    simp only [reportStart, String.toList_append, toString, Nat.toList_repr, List.append_assoc]
  have hdigits : ∀ d ∈ Nat.toDigits 10 status, d ∉ m.toList := by
    intro d hd hm
    have hdigit : d.isDigit = true := isDigit_of_mem_toDigits (n := status) hd
    rw [hwithin.digit d hm] at hdigit
    cases hdigit
  rw [htext, hwithin.infix_append_iff, hwithin.infix_append_iff, infix_append_iff_of_disjoint hdigits]
  exact or_iff_right (not_infix_reportStart h c)

/-! ### What the service says -/

namespace Refusal

/-- What the body of an answer says about a failure, if it can be read as that. -/
def read? (body : String) : Option Refusal := (Json.Raw.read? body.toList).bind ofRaw?

/-- Whether the kind without the space of names it is from, or the message, tells of a failure that
passes. -/
def TellsOfPassing (r : Refusal) : Prop :=
  ∃ m ∈ passingMarkers, (∃ short, IsLastPiece '#' r.kind.toList short ∧ m.toList <:+: short) ∨
    m.toList <:+: r.message.toList

theorem isLastPiece_shortKind_iff {r : Refusal} {short : List Char} :
    IsLastPiece '#' r.kind.toList short ↔ r.shortKind.toList = short := by
  obtain ⟨last, hlast⟩ := exists_isLastPiece '#' r.kind.toList
  have hshort : r.shortKind.toList = last := by simp [shortKind, hlast.getLast?_pieces]
  rw [hshort, ← getLast?_pieces_eq_some_iff, hlast.getLast?_pieces, Option.some.injEq]

theorem isPassing_report_iff (c : Call) (status : Nat) (r : Refusal) :
    isPassing s!"{c.operation} failed with status {status}: {r.shortKind}: {r.message}" = true ↔
      r.TellsOfPassing := by
  simp only [isPassing, List.any_eq_true, hasText_iff, TellsOfPassing, isLastPiece_shortKind_iff, exists_eq_left']
  exact exists_congr fun m => and_congr_right fun hm => infix_report_iff hm c status r.shortKind r.message

theorem isRetryable_refusal (c : Call) (status : Nat) (r : Refusal) :
    (refusal c status r).isRetryable =
      (isPassing s!"{c.operation} failed with status {status}: {r.shortKind}: {r.message}" ||
        Http.isServerError status ||
        decide (status = Http.tooManyRequests)) := by
  simp only [refusal]
  split
  · rename_i hpasses
    exact hpasses.symm
  · rename_i hfinal
    exact ((Bool.not_eq_true _).mp hfinal).symm

theorem isRetryable_iff (c : Call) (status : Nat) (r : Refusal) :
    (refusal c status r).isRetryable = true ↔ status = 429 ∨ (500 ≤ status ∧ status ≤ 599) ∨
      r.TellsOfPassing := by
  have hserver : Http.isServerError status = true ↔ 500 ≤ status ∧ status ≤ 599 := by simp [Http.isServerError]
  rw [isRetryable_refusal, Bool.or_eq_true, Bool.or_eq_true, isPassing_report_iff, hserver, decide_eq_true_iff, or_comm,
    or_comm (a := r.TellsOfPassing)]
  exact Iff.rfl

/-- An answer that says nothing does not tell of one. -/
theorem not_tellsOfPassing_empty : ¬TellsOfPassing {} := by
  rintro ⟨m, hm, ⟨short, hshort, hin⟩ | hin⟩
  · obtain rfl := isLastPiece_shortKind_iff.mp hshort
    exact not_infix_nil hm hin
  · exact not_infix_nil hm hin

end Refusal

/-- A call that is refused is worth another try exactly if the status says that it was asked too often or
that the server failed, or if what the service says tells of a failure that passes. So it is whatever the
service says; where nothing of that can be read in the body, the status alone decides. -/
theorem refused_passes_iff (c : Call) {status : Nat} (hstatus : ¬(200 ≤ status ∧ status ≤ 299)) :
    (∀ body : String, Client.reply c (.ok { status, body := .ok body }) =
        .error (refusal c status ((Refusal.read? body).getD {}))) ∧
      ∀ said : Option Refusal, (refusal c status (said.getD {})).isRetryable = true ↔
        status = 429 ∨ (500 ≤ status ∧ status ≤ 599) ∨ ∃ r, said = some r ∧ r.TellsOfPassing := by
  constructor
  · intro body
    have hfailed : Http.isSuccess status = false := by simpa [Http.isSuccess] using hstatus
    simp [Client.reply, Call.readReply, hfailed, Refusal.read?]
  · intro said
    rw [Refusal.isRetryable_iff]
    cases said with
    | none => simp [Refusal.not_tellsOfPassing_empty]
    | some r => simp

/-- What stands behind the sign in the kind of a failure counts, what stands before it does not. -/
theorem refused_passes_iff_named :
    let throttled := "\x7b\"__type\":\"com.amazonaws.logs#ThrottlingException\",\"Message\":\"slow down\"\x7d"
    let denied := "\x7b\"__type\":\"network.timeout#AccessDenied\",\"message\":\"dia: l\"\x7d"
    ¬(200 ≤ 400 ∧ 400 ≤ 299) ∧
      (∃ e : Failure, Client.reply (.streams "g" 50) (.ok { status := 400, body := .ok throttled }) = .error e ∧
        e.isRetryable = true) ∧
      ∃ e : Failure, Client.reply (.streams "g" 50) (.ok { status := 400, body := .ok denied }) = .error e ∧
        e.isRetryable = false := by
  intro throttled denied
  have hstatus : ¬(200 ≤ 400 ∧ 400 ≤ 299) := by decide
  obtain ⟨hreply, hpasses⟩ := refused_passes_iff (.streams "g" 50) hstatus
  refine ⟨hstatus, ⟨_, hreply throttled, (hpasses _).mpr (.inr (.inr ?_))⟩, _, hreply denied, ?_⟩
  · refine ⟨⟨"com.amazonaws.logs#ThrottlingException", "slow down"⟩, by decide +kernel, "ThrottlingException",
      by decide, .inl ?_⟩
    exact ⟨"ThrottlingException".toList,
      ⟨by decide +kernel, .inr ⟨"com.amazonaws.logs".toList, by decide +kernel⟩⟩,
      List.infix_rfl⟩
  · have hread : Refusal.read? denied = some ⟨"network.timeout#AccessDenied", "dia: l"⟩ := by decide +kernel
    have hnone : ∀ m ∈ passingMarkers, ¬m.toList <:+: "AccessDenied".toList ∧
        ¬m.toList <:+: "dia: l".toList := by
      decide +kernel
    rw [← Bool.not_eq_true, hpasses, hread]
    rintro (hlimit | ⟨hserver, -⟩ | ⟨r, hr, m, hm, ⟨short, hshort, hin⟩ | hin⟩)
    · omega
    · omega
    · obtain rfl := Option.some.inj hr
      obtain rfl := Refusal.isLastPiece_shortKind_iff.mp hshort
      exact (hnone m hm).1 hin
    · obtain rfl := Option.some.inj hr
      exact (hnone m hm).2 hin

end AdmissionWatch.LogGroup
