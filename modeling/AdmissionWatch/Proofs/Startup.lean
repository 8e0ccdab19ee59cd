import AdmissionWatch.Program
import AdmissionWatch.Watcher.Run

/-!
# From settings to a watcher

Settings that are loaded have passed every check (`Accepted`), wherever their values came from. That
is enough for the sources and the report to tick, but not for the channel: the checks leave the buffer
size open above, and a watcher can be made exactly if the size is one that a channel can have
(`watcher_of_settings`).
-/

namespace AdmissionWatch

open Time

/-! ### Accepted settings -/

/-- Nothing keeps the settings for a log group from making sense. -/
structure LogGroup.Settings.Accepted (g : LogGroup.Settings) : Prop where
  group : Text.isBlankText g.group = false
  region : Text.isBlankText g.region = false
  batchSize : 1 ≤ g.batchSize ∧ g.batchSize ≤ Settings.maxBatchSize
  interval : g.interval ≠ .zero
  maxMemory : 1 ≤ g.maxMemory

namespace Settings

/-- Nothing keeps the settings from making sense. -/
structure Accepted (s : Settings) : Prop where
  bufferSize : 1 ≤ s.bufferSize
  rateLimit : 1 ≤ s.rateLimit
  timeout : s.insights.timeout ≠ .zero
  organization : Text.isBlankText s.insights.organization = false
  cluster : Text.isBlankText s.insights.cluster = false
  token : s.console = true ∨ Text.isBlankText s.insights.token = false
  policyEvents : s.policyEvents.enabled = true → s.policyEvents.interval ≠ .zero
  logGroup : ∀ g, s.logGroup = some g → g.Accepted
  source : s.auditLogPath ≠ none ∨ s.logGroup ≠ none ∨ s.policyEvents.enabled = true

theorem fault?_eq_none {s : Settings} (h : s.fault? = none) : ∀ f ∈ s.faults, f.1 = false := by
  have hnone : s.faults.find? (·.1) = none := Option.map_eq_none_iff.mp h
  intro f hf
  simpa using List.find?_eq_none.mp hnone f hf

theorem accepted_of_fault? {s : Settings} (h : s.fault? = none) : s.Accepted := by
  have hfaults := fault?_eq_none h
  have hgeneral : ∀ f ∈ s.generalFaults, f.1 = false := fun f hf => hfaults f (by simp [faults, hf])
  have hsource := hfaults (s.auditLogPath.isNone && s.logGroup.isNone && !s.policyEvents.enabled, .noSource)
    (by simp [faults])
  have hgroup : ∀ g, s.logGroup = some g → ∀ f ∈ logGroupFaults g, f.1 = false := fun g hg f hf =>
    hfaults f (by simp [faults, hg, hf])
  simp only [generalFaults, List.forall_mem_cons, beq_eq_false_iff_ne, Bool.and_eq_false_iff] at hgeneral
  obtain ⟨hbuffer, hrate, htimeout, horganization, hcluster, htoken, hevents, -⟩ := hgeneral
  refine ⟨Nat.pos_of_ne_zero hbuffer, Nat.pos_of_ne_zero hrate, htimeout, horganization, hcluster, ?_,
    fun henabled => ?_, fun g hg => ?_, ?_⟩
  · simpa using htoken
  · simpa [henabled] using hevents
  · have hg := hgroup g hg
    simp only [logGroupFaults, List.forall_mem_cons, beq_eq_false_iff_ne, Bool.or_eq_false_iff,
      decide_eq_false_iff_not] at hg
    obtain ⟨hname, hregion, ⟨hsome, hmost⟩, hinterval, hmemory, -⟩ := hg
    exact ⟨hname, hregion, ⟨Nat.pos_of_ne_zero hsome, Nat.le_of_not_lt hmost⟩, hinterval,
      Nat.pos_of_ne_zero hmemory⟩
  · cases haudit : s.auditLogPath <;> cases hlog : s.logGroup <;> simp_all

/-- Settings are loaded only if they are accepted. -/
theorem accepted_of_load {readFile : String → Except String String} {o : Options} {s : Settings}
    (h : load readFile o = .ok s) : s.Accepted := by
  unfold load at h
  simp only [bind, Except.bind, pure, Except.pure] at h
  split at h
  · split at h
    · cases h
    · rename_i hfault
      exact Except.ok.inj h ▸ accepted_of_fault? hfault
  · split at h
    · cases h
    · split at h
      · cases h
      · split at h
        · cases h
        · rename_i hfault
          exact Except.ok.inj h ▸ accepted_of_fault? hfault

end Settings

/-! ### What ticks -/

/-- The period of the ticker that a source goes by; a log group waits between two polls instead. -/
def Source.Setup.period? : Source.Setup → Option Span
  | .auditLog _ interval | .policyEvents _ interval => some interval
  | .logGroup .. => none

/-- The periods of all tickers that a watcher sets up: of its sources, and of its report if there is
one. -/
def Watcher.periods (w : Watcher) : List Span :=
  w.feeds.filterMap (·.setup.period?) ++ if (w.endStart 0).reportDue.isSome then [w.metricsInterval] else []

theorem Watcher.report_period {w : Watcher} {p : Span}
    (hp : p ∈ if (w.endStart 0).reportDue.isSome then [w.metricsInterval] else []) : p ≠ .zero := by
  split at hp
  · rename_i hdue
    obtain rfl := List.mem_singleton.mp hp
    intro hzero
    simp [endStart, hzero] at hdue
  · cases hp

/-- A source that accepted settings ask for has a period that is no zero. -/
theorem Settings.Accepted.period {s : Settings} (h : s.Accepted) (env : Environment)
    (cluster : Except Failure Source.ApiServer) {setup : Source.Setup}
    (hsetup : setup ∈ Source.Setup.ofSettings s env cluster) {p : Span} (hp : setup.period? = some p) :
    p ≠ .zero := by
  simp only [Source.Setup.ofSettings, List.mem_append, Option.mem_toList] at hsetup
  rcases hsetup with (haudit | hgroup) | hevents
  · obtain ⟨path, -, rfl⟩ := Option.map_eq_some_iff.mp haudit
    obtain rfl : Source.AuditLog.defaultInterval = p := Option.some.inj hp
    decide
  · obtain ⟨g, -, hg⟩ := Option.bind_eq_some_iff.mp hgroup
    have hclient : ∃ client, setup = .logGroup client g := by
      unfold Source.Setup.ofLogGroup at hg
      cases hcredentials : Signing.Credentials.ofEnvironment env with
      | error e =>
        rw [hcredentials] at hg
        cases hg
      | ok credentials =>
        rw [hcredentials] at hg
        cases hcreate : LogGroup.Client.create g.region g.endpoint credentials with
        | error e => simp [bind, Except.bind, hcreate, Except.toOption] at hg
        | ok client =>
          exact ⟨client,
            by simpa [bind, Except.bind, hcreate, Except.toOption, pure, Except.pure, eq_comm] using hg⟩
    obtain ⟨client, rfl⟩ := hclient
    cases hp
  · split at hevents
    · rename_i henabled
      obtain ⟨server, -, rfl⟩ := Option.map_eq_some_iff.mp (Option.mem_toList.mp hevents)
      obtain rfl : s.policyEvents.interval = p := Option.some.inj hp
      exact h.policyEvents henabled
    · cases hevents

/-- A source that is watched and has no zero period goes on, unless its file is not there. -/
theorem Watcher.Feed.start_idle {world : Watcher.World Id} {now : Now} {f : Watcher.Feed}
    (hperiod : f.setup.period? ≠ some .zero) (henabled : f.setup.isEnabled = true)
    (hidle : (Id.run (f.start world now)).activity = none) :
    ∃ path interval, f.setup = .auditLog path interval ∧ Id.run (world.hasFile path) = false := by
  unfold start at hidle
  simp only [henabled, Bool.not_true, Bool.false_eq_true, ↓reduceIte] at hidle
  cases hsetup : f.setup with
  | auditLog path interval =>
    have hsome : interval ≠ .zero := fun hzero => hperiod (by rw [hsetup, hzero]; rfl)
    refine ⟨path, interval, rfl, ?_⟩
    rw [hsetup] at hidle
    simpa [hsome] using hidle
  | policyEvents server interval =>
    have hsome : interval ≠ .zero := fun hzero => hperiod (by rw [hsetup, hzero]; rfl)
    rw [hsetup] at hidle
    simp [hsome] at hidle
  | logGroup client settings =>
    rw [hsetup] at hidle
    simp at hidle

/-! ### Making a watcher -/

namespace Program

/-- For settings that are loaded, be it from the command line, the environment or a file, a watcher can
be made exactly if a channel can be as large as they say, which no check sees to. A watcher that is
made has room for one event at least, no ticker of it has a zero period, and each of its sources goes
on once it is started, if it is watched at all and its file is there. -/
theorem watcher_of_settings (env : Environment) (cluster : Except Failure Source.ApiServer) (now : Moment)
    (file : String → Except String String) (o : Options) (s : Settings) (hsettings : settings file o = .ok s) :
    ((∃ w, watcher s env cluster now = .ok w) ↔ s.bufferSize ≤ Watcher.maxCapacity) ∧
      (Watcher.maxCapacity < s.bufferSize → watcher s env cluster now = .error (.ofAbort .channelTooLarge)) ∧
      ∀ w, watcher s env cluster now = .ok w →
        (w.pipeline.intake.capacity = s.bufferSize ∧ 1 ≤ s.bufferSize) ∧ (∀ p ∈ w.periods, p ≠ .zero) ∧
          ∀ (world : Watcher.World Id) (later : Now), ∀ f ∈ w.feeds, f.setup.isEnabled = true →
            (Id.run (f.start world later)).activity = none →
              ∃ path interval, f.setup = .auditLog path interval ∧ Id.run (world.hasFile path) = false := by
  have h : s.Accepted := by
    cases hload : Settings.load file o with
    | error e =>
      rw [settings, hload] at hsettings
      cases hsettings
    | ok s' =>
      rw [settings, hload] at hsettings
      obtain rfl : s' = s := Except.ok.inj hsettings
      exact Settings.accepted_of_load hload
  by_cases hlarge : Watcher.maxCapacity < s.bufferSize
  · have hcreate : Watcher.create (plan s env cluster) (dispatcher s now) now = .error .channelTooLarge :=
      if_pos hlarge
    have habort : watcher s env cluster now = .error (.ofAbort .channelTooLarge) := by rw [watcher, hcreate]; rfl
    refine ⟨⟨fun ⟨w, hw⟩ => ?_, fun hle => absurd hlarge (Nat.not_lt.mpr hle)⟩, fun _ => habort,
      fun w hw => ?_⟩
    · rw [habort] at hw
      cases hw
    · rw [habort] at hw
      cases hw
  · obtain ⟨w, hcreate, hcapacity, hfeeds⟩ :
        ∃ w, Watcher.create (plan s env cluster) (dispatcher s now) now = .ok w ∧
        w.pipeline.intake.capacity = max s.bufferSize 1 ∧
          w.feeds = (Source.Setup.ofSettings s env cluster).map fun setup => { setup } :=
            ⟨_, if_neg hlarge, rfl, rfl⟩
    have hw : watcher s env cluster now = .ok w := by rw [watcher, hcreate]; rfl
    refine ⟨⟨fun _ => Nat.le_of_not_lt hlarge, fun _ => ⟨w, hw⟩⟩, fun hlt => absurd hlt hlarge,
      fun w' hw' => ?_⟩
    obtain rfl : w = w' := Except.ok.inj (hw.symm.trans hw')
    have hperiod : ∀ f ∈ w.feeds, ∀ p, f.setup.period? = some p → p ≠ .zero := by
      intro f hf p hp
      rw [hfeeds] at hf
      obtain ⟨setup, hsetup, rfl⟩ := List.mem_map.mp hf
      exact h.period env cluster hsetup hp
    refine ⟨⟨hcapacity.trans (Nat.max_eq_left h.bufferSize), h.bufferSize⟩, fun p hp => ?_,
      fun world later f hf henabled hidle => ?_⟩
    · rcases List.mem_append.mp hp with hp | hp
      · obtain ⟨f, hf, hp⟩ := List.mem_filterMap.mp hp
        exact hperiod f hf p hp
      · exact Watcher.report_period hp
    · exact Watcher.Feed.start_idle (fun hzero => hperiod f hf _ hzero rfl) henabled hidle

/-- The options for a watcher of an audit log with a buffer of that size. -/
def auditLogOptions (bufferSize : Nat) : Options :=
  { bufferSize := some bufferSize, console := true, organization := some "acme", cluster := some "prod"
    source := some (.auditLog "audit.log") }

/-- The largest buffer that a channel can have. -/
theorem watcher_of_largest_buffer :
    settings (fun _ => .error "") (auditLogOptions 2305843009213693951) =
        .ok (Settings.merge {} (auditLogOptions 2305843009213693951)) ∧
      ∃ w, watcher (Settings.merge {} (auditLogOptions 2305843009213693951)) []
        (.error Watcher.startedTwice) 0 = .ok w :=
  have hsettings : settings (fun _ => .error "") (auditLogOptions 2305843009213693951) =
      .ok (Settings.merge {} (auditLogOptions 2305843009213693951)) := rfl
  ⟨hsettings, (watcher_of_settings [] _ 0 (fun _ => .error "") _ _ hsettings).1.mpr (by decide)⟩

/-- A buffer of one more is accepted on the command line, and no watcher can be made for it. -/
theorem larger_buffer_aborts :
    options []
    ["--console", "--organization", "acme", "--cluster", "prod", "--buffer-size", "2305843009213693952", "audit",
        "--log-path", "audit.log"] = .ok (auditLogOptions 2305843009213693952) ∧
      settings (fun _ => .error "") (auditLogOptions 2305843009213693952) =
        .ok (Settings.merge {} (auditLogOptions 2305843009213693952)) ∧
      watcher (Settings.merge {} (auditLogOptions 2305843009213693952)) [] (.error Watcher.startedTwice) 0 =
        .error (.ofAbort .channelTooLarge) :=
  ⟨rfl, rfl, rfl⟩

end Program

end AdmissionWatch
