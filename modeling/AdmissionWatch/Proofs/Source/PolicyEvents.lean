import AdmissionWatch.Proofs.Event.PolicyEvents
import AdmissionWatch.Source.PolicyEvents

/-!
# Policy events that stay listed

A poll looks at each listed object and comes to a finding, which depends on the versions recorded so
far and not on the intake; what the poll does to the counts and to the intake is to settle its
findings in turn (`poll_eq`). An object that stays listed at one version is found to be new by the
first poll that meets it and known by every other one, so it is submitted once, whatever the window of
identifiers has forgotten in the meantime (`lingering_submitted_once`).
-/

namespace AdmissionWatch.Source.PolicyEvents

open Time

/-! ### Findings -/

/-- What looking at an object comes to. -/
inductive Finding where
  /-- It is no policy event of audit mode. -/
  | other
  /-- It was met at this version before. -/
  | known
  | submitted (id : String) (e : Event)
  | malformed

/-- What a listed object turns out to be. -/
def finding (date : Instant) (versions : Versions) (object : Json) : Finding :=
  if Detection.isAuditOnlyPolicyEvent object = false then .other
  else if versions.get? (uid object) = some (version object) then .known
  else
    match Event.ofPolicyEvent date object with
    | .ok e => .submitted (key object) e
    | .error _ => .malformed

/-- What a finding does to the counts and to the intake. What is known counts as a duplicate, and only
what is new is submitted. -/
def Finding.settle (now : Clock) (p : Pass) : Finding → Pass
  | other => { p with tally := p.tally.addRecord }
  | known => { p with tally := { p.tally.addRecord with duplicates := p.tally.duplicates + 1 } }
  | submitted id e =>
    let answer := p.intake.submit id e now.moment
    { tally := p.tally.addRecord.count answer.1, intake := answer.2 }
  | malformed => { p with tally := p.tally.addRecord.addMalformed }

/-- The versions after a look at an object. -/
def observe (versions : Versions) (object : Json) : Versions :=
  if Detection.isAuditOnlyPolicyEvent object = false ∨
    versions.get? (uid object) = some (version object) then versions
  else versions.insert (uid object) (version object)

/-- The listed objects with what looking at each comes to. -/
def findings (date : Instant) : Versions → List Json → List (Json × Finding)
  | _, [] => []
  | versions, object :: rest => (object, finding date versions object) :: findings date (observe versions object) rest

section
variable (now : Clock)

theorem look_eq (p : Poll) (object : Json) :
    p.look now object =
      { (finding now.date p.versions object).settle now p.toPass with versions := observe p.versions object } := by
  unfold Poll.look finding observe
  cases Detection.isAuditOnlyPolicyEvent object with
  | false => rfl
  | true =>
    by_cases hknown : p.versions.get? (uid object) = some (version object)
    · simp [hknown, Finding.settle, Tally.addRecord]
    · cases Event.ofPolicyEvent now.date object with
      | ok e => simp [hknown, Finding.settle]
      | error f => simp [hknown, Finding.settle]

theorem foldl_look (p : Poll) (listed : List Json) :
    listed.foldl (Poll.look now) p =
      { (findings now.date p.versions listed).foldl (fun q f => f.2.settle now q) p.toPass with
        versions := listed.foldl observe p.versions } := by
  induction listed generalizing p with
  | nil => rfl
  | cons object rest ih =>
    rw [List.foldl_cons, ih, look_eq]
    rfl

/-- A poll settles its findings in turn. -/
theorem poll_eq (intake : Intake) (versions : Versions) (listed : List Json) :
    poll now intake versions listed =
      { (findings now.date (retain listed versions) listed).foldl (fun q f => f.2.settle now q) { intake } with
        versions := listed.foldl observe (retain listed versions) } :=
  foldl_look now _ listed

end

/-! ### Versions -/

variable {date : Instant} {versions : Versions} {object : Json} {listed : List Json}

theorem get?_retain (hlisted : object ∈ listed) :
    (retain listed versions).get? (uid object) = versions.get? (uid object) := by
  have hkept : (listed.any fun o => uid o == uid object) = true :=
    List.any_eq_true.mpr ⟨object, hlisted, beq_self_eq_true _⟩
  unfold retain
  rw [Dict.get?_filter_keys (fun u => listed.any fun o => uid o == u), if_pos hkept]

/-- A look at an object leaves the versions of the others alone. -/
theorem get?_observe_of_ne {u : String} (h : uid object ≠ u) :
    (observe versions object).get? u = versions.get? u := by
  unfold observe
  split
  · rfl
  · rw [Dict.get?_insert, if_neg h]

/-- After a look at a policy event its version is recorded. -/
theorem get?_observe (h : Detection.isAuditOnlyPolicyEvent object = true) :
    (observe versions object).get? (uid object) = some (version object) := by
  unfold observe
  split
  · rename_i hsame
    exact hsame.resolve_left (by simp [h])
  · rw [Dict.get?_insert, if_pos rfl]

theorem get?_foldl_observe_of_ne {u : String} (h : ∀ o ∈ listed, uid o ≠ u) :
    (listed.foldl observe versions).get? u = versions.get? u := by
  induction listed generalizing versions with
  | nil => rfl
  | cons o rest ih =>
    rw [List.foldl_cons, ih fun o' ho' => h o' (List.mem_cons_of_mem _ ho'),
      get?_observe_of_ne (h o List.mem_cons_self)]

/-- Of objects with different uids the others are met under other uids. -/
theorem uid_ne_of_nodup {o : Json} {rest : List Json} (hnodup : ((o :: rest).map uid).Nodup) :
    ∀ o' ∈ rest, uid o' ≠ uid o := by
  rw [List.map_cons, List.nodup_cons] at hnodup
  exact fun o' ho' hsame => hnodup.1 (hsame ▸ List.mem_map_of_mem ho')

/-- Once a list has been looked at, the versions of its policy events are recorded. -/
theorem get?_foldl_observe (hnodup : (listed.map uid).Nodup) (hlisted : object ∈ listed)
    (hpolicy : Detection.isAuditOnlyPolicyEvent object = true) :
    (listed.foldl observe versions).get? (uid object) = some (version object) := by
  induction listed generalizing versions with
  | nil => cases hlisted
  | cons o rest ih =>
    rw [List.foldl_cons]
    rcases List.mem_cons.mp hlisted with rfl | hrest
    · rw [get?_foldl_observe_of_ne (uid_ne_of_nodup hnodup)]
      exact get?_observe hpolicy
    · exact ih (List.nodup_cons.mp hnodup).2 hrest

/-- What was not recorded before is recorded of a listed object. -/
theorem mem_foldl_observe {e : String × String} (h : e ∈ listed.foldl observe versions) :
    e ∈ versions ∨ ∃ o ∈ listed, uid o = e.1 := by
  induction listed generalizing versions with
  | nil => exact .inl h
  | cons o rest ih =>
    rw [List.foldl_cons] at h
    rcases ih h with hobserved | ⟨o', ho', huid⟩
    · unfold observe at hobserved
      split at hobserved
      · exact .inl hobserved
      · rcases Dict.mem_insert hobserved with rfl | hbefore
        · exact .inr ⟨o, List.mem_cons_self, rfl⟩
        · exact .inl hbefore
    · exact .inr ⟨o', List.mem_cons_of_mem _ ho', huid⟩

/-- After a poll only versions of listed objects are recorded. -/
theorem listed_of_mem_poll (now : Clock) (intake : Intake) {e : String × String}
    (h : e ∈ (poll now intake versions listed).versions) : ∃ o ∈ listed, uid o = e.1 := by
  rw [poll_eq] at h
  rcases mem_foldl_observe h with hretained | hobserved
  · obtain ⟨-, hkept⟩ := List.mem_filter.mp hretained
    obtain ⟨o, ho, huid⟩ := List.any_eq_true.mp hkept
    exact ⟨o, ho, beq_iff_eq.mp huid⟩
  · exact hobserved

/-! ### The finding on one object -/

/-- The findings on the objects with a uid. -/
def findingsOn (u : String) (found : List (Json × Finding)) : List Finding :=
  (found.filter fun f => uid f.1 == u).map Prod.snd

theorem finding_congr {versions' : Versions} (h : versions.get? (uid object) = versions'.get? (uid object)) :
    finding date versions object = finding date versions' object := by
  unfold finding
  rw [h]

theorem findingsOn_eq_nil {u : String} (h : ∀ o ∈ listed, uid o ≠ u) :
    findingsOn u (findings date versions listed) = [] := by
  induction listed generalizing versions with
  | nil => rfl
  | cons o rest ih =>
    have hhead : ¬(uid o == u) = true := by simpa using h o List.mem_cons_self
    unfold findingsOn findings
    rw [List.filter_cons_of_neg (p := fun f : Json × Finding => uid f.1 == u) hhead]
    exact ih fun o' ho' => h o' (List.mem_cons_of_mem _ ho')

/-- An object is found what it is found by the versions recorded before the list was looked at. -/
theorem findingsOn_eq (hnodup : (listed.map uid).Nodup) (hlisted : object ∈ listed) :
    findingsOn (uid object) (findings date versions listed) = [finding date versions object] := by
  induction listed generalizing versions with
  | nil => cases hlisted
  | cons o rest ih =>
    have hothers := uid_ne_of_nodup hnodup
    rcases List.mem_cons.mp hlisted with rfl | hrest
    · unfold findingsOn findings
      rw [List.filter_cons_of_pos (p := fun f : Json × Finding => uid f.1 == uid object)
        (beq_self_eq_true _), List.map_cons]
      exact congrArg _ (findingsOn_eq_nil hothers)
    · have hne : uid o ≠ uid object := (hothers object hrest).symm
      unfold findingsOn findings
      rw [List.filter_cons_of_neg (p := fun f : Json × Finding => uid f.1 == uid object) (by simpa using hne)]
      have hfinding : findingsOn (uid object) (findings date (observe versions o) rest) =
          [finding date (observe versions o) object] := ih (List.nodup_cons.mp hnodup).2 hrest
      rw [finding_congr (get?_observe_of_ne hne)] at hfinding
      exact hfinding

theorem finding_of_recorded (hpolicy : Detection.isAuditOnlyPolicyEvent object = true)
    (hrecorded : versions.get? (uid object) = some (version object)) : finding date versions object = .known := by
  unfold finding
  rw [if_neg (by simp [hpolicy]), if_pos hrecorded]

/-- What is not recorded and has a uid is submitted. -/
theorem finding_of_new (date : Instant) (hpolicy : Detection.isAuditOnlyPolicyEvent object = true)
    (hnew : versions.get? (uid object) ≠ some (version object)) (huid : uid object ≠ "") :
    ∃ e, Event.ofPolicyEvent date object = .ok e ∧ finding date versions object = .submitted (key object) e := by
  obtain ⟨metadata, hmetadata⟩ := Json.member?_of_textAt huid
  obtain ⟨e, he, -⟩ := Event.exists_ofPolicyEvent date hmetadata
  refine ⟨e, he, ?_⟩
  unfold finding
  rw [if_neg (by simp [hpolicy]), if_neg hnew, he]

/-! ### Polls in a row -/

/-- One poll among others: what has happened to the intake since the last one, and what comes of asking
for the list. -/
structure Round where
  now : Clock
  meanwhile : Intake → Intake
  listing : Except Failure (List Json)

/-- What the polls share. -/
structure Shared where
  intake : Intake
  versions : Versions := []

namespace Shared

/-- One poll. -/
def poll (s : Shared) (r : Round) : Poll :=
  attempt r.now (r.meanwhile s.intake) s.versions r.listing

/-- The intake and the versions after a round. -/
def step (s : Shared) (r : Round) : Shared :=
  ⟨(s.poll r).intake, (s.poll r).versions⟩

/-- Rounds in turn. -/
def run (s : Shared) (rounds : List Round) : Shared := rounds.foldl step s

/-- What a poll finds; nothing without a list. -/
def found (s : Shared) (r : Round) : List (Json × Finding) :=
  match r.listing with
  | .ok listed => findings r.now.date (retain listed s.versions) listed
  | .error _ => []

/-- What each of some polls finds. -/
def log (s : Shared) : List Round → List (List (Json × Finding))
  | [] => []
  | r :: rest => s.found r :: (s.step r).log rest

end Shared

/-- The objects of a list have uids, each its own. -/
def Round.HasUids (r : Round) : Prop :=
  ∀ listed, r.listing = .ok listed → (listed.map uid).Nodup ∧ "" ∉ listed.map uid

/-- A policy event with that uid and version is listed. -/
def Round.Lists (r : Round) (u v : String) : Prop :=
  ∃ listed object, r.listing = .ok listed ∧ object ∈ listed ∧ Detection.isAuditOnlyPolicyEvent object = true ∧
    uid object = u ∧ version object = v

variable {s : Shared} {r : Round} {u v : String}

/-- One poll finds an object known exactly if its version is recorded, submits it otherwise, and
records its version. -/
theorem found_lists (huids : r.HasUids) (hlists : r.Lists u v) :
    (s.step r).versions.get? u = some v ∧
      (s.versions.get? u = some v → findingsOn u (s.found r) = [.known]) ∧
      (s.versions.get? u ≠ some v → ∃ object e, uid object = u ∧ version object = v ∧
        Event.ofPolicyEvent r.now.date object = .ok e ∧
        findingsOn u (s.found r) = [.submitted (key object) e]) := by
  obtain ⟨listed, object, hlisting, hmem, hpolicy, rfl, rfl⟩ := hlists
  obtain ⟨hnodup, hnonempty⟩ := huids listed hlisting
  have hfound : findingsOn (uid object) (s.found r) = [finding r.now.date (retain listed s.versions) object] := by
    unfold Shared.found
    rw [hlisting]
    exact findingsOn_eq hnodup hmem
  refine ⟨?_, fun hrecorded => ?_, fun hnew => ?_⟩
  · unfold Shared.step Shared.poll
    rw [hlisting, attempt, poll_eq]
    exact get?_foldl_observe hnodup hmem hpolicy
  · rw [hfound, finding_of_recorded hpolicy ((get?_retain hmem).trans hrecorded)]
  · have huid : uid object ≠ "" := fun hempty => hnonempty (hempty ▸ List.mem_map_of_mem hmem)
    rw [← get?_retain hmem] at hnew
    obtain ⟨e, he, hsubmitted⟩ := finding_of_new r.now.date hpolicy hnew huid
    rw [hfound, hsubmitted]
    exact ⟨object, e, rfl, rfl, he, rfl⟩

/-- From then on each poll that lists it finds it known. -/
theorem log_of_recorded {stretch : List Round} (huids : ∀ r ∈ stretch, r.HasUids)
    (hlists : ∀ r ∈ stretch, r.Lists u v) (hrecorded : s.versions.get? u = some v) :
    (s.log stretch).map (findingsOn u) = List.replicate stretch.length [.known] := by
  induction stretch generalizing s with
  | nil => rfl
  | cons r rest ih =>
    obtain ⟨hrecords, hknown, -⟩ := found_lists (s := s) (huids r List.mem_cons_self) (hlists r List.mem_cons_self)
    rw [Shared.log, List.map_cons, hknown hrecorded, List.length_cons, List.replicate_succ]
    exact congrArg _
      (ih (fun r hr => huids r (List.mem_cons_of_mem _ hr)) (fun r hr => hlists r (List.mem_cons_of_mem _ hr)) hrecords)

/-- Polls share what they have seen and an intake to which anything may happen between them. A poll
without a list leaves the versions and the intake as they are; after any other only versions of listed
objects are recorded, and what it does to counts and intake is to settle its findings. Over polls in a
row that all list a policy event at one version, it is submitted by the first, unless that version was
recorded before, and every other one finds it known. -/
theorem lingering_submitted_once (intake : Intake) (rounds : List Round) (huids : ∀ r ∈ rounds, r.HasUids) :
    (∀ before r after, rounds = before ++ r :: after →
      let s := Shared.run { intake } before
      (∀ f, r.listing = .error f → s.poll r = { intake := r.meanwhile s.intake, versions := s.versions }) ∧
        ∀ listed, r.listing = .ok listed → (s.poll r).toPass =
            (s.found r).foldl (fun p f => f.2.settle r.now p) { intake := r.meanwhile s.intake } ∧
          ∀ e ∈ (s.poll r).versions, ∃ object ∈ listed, uid object = e.1) ∧
      ∀ before r rest after, rounds = before ++ (r :: rest ++ after) →
        ∀ u v, (∀ r' ∈ r :: rest, r'.Lists u v) →
        let s := Shared.run { intake } before
        ∃ opening, (s.log (r :: rest)).map (findingsOn u) = [opening] :: List.replicate rest.length [.known] ∧
          (s.versions.get? u = some v → opening = .known) ∧
          (s.versions.get? u ≠ some v → ∃ object e, uid object = u ∧ version object = v ∧
            Event.ofPolicyEvent r.now.date object = .ok e ∧ opening = .submitted (key object) e) := by
  constructor
  · intro before r after _ s
    refine ⟨fun f hfailed => ?_, fun listed hlisting => ⟨?_, fun e he => ?_⟩⟩
    · unfold Shared.poll
      rw [hfailed]
      rfl
    · unfold Shared.poll Shared.found
      rw [hlisting, attempt, poll_eq]
    · unfold Shared.poll at he
      rw [hlisting] at he
      exact listed_of_mem_poll _ _ he
  · intro before r rest after hrounds u v hlists s
    have hstretch : ∀ r' ∈ r :: rest, r'.HasUids := fun r' hr' =>
      huids r' (hrounds ▸ List.mem_append_right _ (List.mem_append_left _ hr'))
    obtain ⟨hrecords, hknown, hnew⟩ :=
      found_lists (s := s) (hstretch r List.mem_cons_self) (hlists r List.mem_cons_self)
    have hrest : ((s.step r).log rest).map (findingsOn u) = List.replicate rest.length [.known] :=
      log_of_recorded (fun r' hr' => hstretch r' (List.mem_cons_of_mem _ hr'))
        (fun r' hr' => hlists r' (List.mem_cons_of_mem _ hr'))
        hrecords
    rw [Shared.log, List.map_cons, hrest]
    by_cases hrecorded : s.versions.get? u = some v
    · exact ⟨.known, by rw [hknown hrecorded], fun _ => rfl, fun hnot => absurd hrecorded hnot⟩
    · obtain ⟨object, e, hu, hv, he, hsubmitted⟩ := hnew hrecorded
      exact ⟨_, by rw [hsubmitted], fun hold => absurd hold hrecorded, fun _ => ⟨object, e, hu, hv, he, rfl⟩⟩

/-- An object is listed at the same version by two polls around one that fails, and the window of
identifiers loses all it knows before the last: it is not submitted again. -/
theorem lingering_submitted_once_forgotten :
    let object : Json := .object [("reason", .str "PolicyViolation"), ("action", .str "Resource Passed"),
      ("involvedObject", .object [("kind", .str "Policy")]),
      ("metadata", .object [("uid", .str "e-1"), ("resourceVersion", .str "7")])]
    let round (meanwhile : Intake → Intake) (listing : Except Failure (List Json)) : Round :=
      ⟨⟨⟨0, 0⟩, 0⟩, meanwhile, listing⟩
    let intake : Intake := .create 4 .empty 0
    let before : List Round := [round id (.ok [object]), round id (.error .missingMetadata)]
    let last : Round := round (fun i => { i with window := .empty }) (.ok [object])
    (∀ r ∈ before ++ [last], r.HasUids) ∧
      ((Shared.run { intake } before).log [last]).map (findingsOn "e-1") = [[.known]] := by
  intro object round intake before last
  have huids : ∀ r ∈ before ++ [last], r.HasUids := by
    have hone : ([object].map uid).Nodup ∧ "" ∉ [object].map uid := by decide +kernel
    intro r hr listed hlisting
    rcases List.mem_append.mp hr with hbefore | hlast
    · rcases List.mem_cons.mp hbefore with rfl | hfailed
      · exact Except.ok.inj hlisting ▸ hone
      · obtain rfl := List.mem_singleton.mp hfailed
        cases hlisting
    · obtain rfl := List.mem_singleton.mp hlast
      exact Except.ok.inj hlisting ▸ hone
  have hlists : ∀ r ∈ [last], r.Lists "e-1" "7" := fun r hr =>
    List.mem_singleton.mp hr ▸ ⟨[object], object, rfl, List.mem_singleton_self _, by decide +kernel,
      by decide +kernel, by decide +kernel⟩
  obtain ⟨opening, hlog, hknown, -⟩ :=
    (lingering_submitted_once intake (before ++ [last]) huids).2 before last [] [] (by rfl) "e-1" "7" hlists
  refine ⟨huids, ?_⟩
  rw [hlog, hknown (by decide +kernel)]
  rfl

end AdmissionWatch.Source.PolicyEvents
