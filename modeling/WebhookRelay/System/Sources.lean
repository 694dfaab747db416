import WebhookRelay.Delivery.Redelivery
import WebhookRelay.System.Conservation

/-!
# What the other processes go by

A process that runs no attempts publishes messages and removes rows by what it has been told: who
is subscribed to an event, which rows an operator has selected, what time it is.
-/

namespace WebhookRelay

open Interleaving Program Books

/-- What a process has been told so far: who is subscribed to which event, and rows of the audit
trail. -/
structure Sources where
  subscribers : List (String × Nat) := []
  rows : List WebhookDeliveryAttempt := []
  /-- the time at which a purge that is under way has started -/
  purging : Option Time := none

/-- What a purge looks for: the rows that are older than so many days, with the status if there is
one. A dry run leaves them. -/
structure PurgeWindow where
  days : Int
  status : Option AttemptStatus
  removes : Bool

/-- The rows of a purge that starts at this time are those before the cutoff. -/
def PurgeWindow.cutoff (window : PurgeWindow) (time : Time) : Time := time - timedelta window.days

/-- What the processes purge. -/
def Duty.window (settings : RetentionSettings) : Duty → Option PurgeWindow
  | .purgeCommand options => some {
      days := resolveRetentionDays settings options.days
      status := options.status
      removes := options.yes }
  | .purgeTask =>
    if settings.autoPurgeEnabled then
      some { days := resolveRetentionDays settings none, status := none, removes := true }
    else none
  | _ => none

namespace Sources

def track (window : Option PurgeWindow) (sources : Sources) : Event deployment → Sources
  | ⟨.endpointIds event, pks⟩ =>
    { sources with subscribers := sources.subscribers ++ pks.map fun pk => (event, pk) }
  | ⟨.selectAttempts _, rows⟩ => { sources with rows := sources.rows ++ rows }
  | ⟨.now, time⟩ => { sources with purging := some time }
  | ⟨.countAttempts _ _, matched⟩ =>
    if matched = 0 || window.all (!·.removes) then { sources with purging := none } else sources
  | ⟨.deleteAttempts _ _, _⟩ => { sources with purging := none }
  | _ => sources

/-- The message is for a subscriber, or a row is sent again. -/
def Justify (sources : Sources) (message : Message) : Prop :=
  (message.event, message.endpointId) ∈ sources.subscribers ∨
    ∃ row ∈ sources.rows, message.event = row.event ∧ message.endpointId = row.endpointId

/-- The rows are those that the purge looks for. -/
def Purges (sources : Sources) (window : PurgeWindow) (cutoff : Time)
    (status : Option AttemptStatus) : Prop :=
  ∃ time, sources.purging = some time ∧ cutoff = window.cutoff time ∧ status = window.status

def permits (window : Option PurgeWindow) (sources : Sources) : SystemOp → Prop
  | .publish message => sources.Justify message
  | .now => sources.purging = none
  | .countAttempts cutoff status => ∃ w, window = some w ∧ sources.Purges w cutoff status
  | .deleteAttempts cutoff status => ∃ w, window = some w ∧ w.removes ∧
      sources.Purges w cutoff status
  | _ => True

/-- The rule of a process that runs no attempts. -/
def informed (window : Option PurgeWindow) : Discipline deployment Sources :=
  ⟨track window, permits window⟩

/-- The rule of a worker says nothing here. -/
def unrestricted : Discipline deployment Sources := ⟨fun sources _ => sources, fun _ _ => True⟩

/-- No purge is under way. -/
def Rests (sources : Sources) (_ : Unit) : Prop := sources.purging = none

theorem follows_unrestricted (p : Process Unit) {sources : Sources} (h : sources.Rests ()) :
    p.Follows unrestricted Rests sources := by
  induction p with
  | ret value => exact h
  | call op rest ih => exact ⟨trivial, fun answer => ih answer⟩

variable {sources : Sources} {window : Option PurgeWindow}

theorem follows_publishEach {messages : List Message} (h : ∀ m ∈ messages, sources.Justify m)
    (hrests : sources.Rests ()) :
    (publishEach messages).Follows (informed window) Rests sources := by
  induction messages with
  | nil => exact hrests
  | cons m messages ih =>
    refine ⟨h m List.mem_cons_self, fun publication => ?_⟩
    cases publication with
    | confirmed => exact ih fun m hm => h m (List.mem_cons_of_mem _ hm)
    | _ => exact hrests

theorem follows_processEvent (eventName : String) (event : EventData)
    (hrests : sources.Rests ()) :
    (processEvent eventName event).Follows (informed window) Rests sources := by
  rw [processEvent_eq]
  refine ⟨trivial, fun (pks : List Nat) => ?_⟩
  beta_reduce
  split
  · exact hrests
  · refine ⟨trivial, fun correlationId => follows_publishEach (fun m hm => ?_) hrests⟩
    obtain ⟨hpk, rfl, -⟩ := EventData.mem_messages hm
    exact .inl (List.mem_append_right _ (List.mem_map_of_mem hpk))

/-- What is enqueued for some rows. -/
def Requeues (rows : List WebhookDeliveryAttempt) (enqueued : List Enqueued) : Prop :=
  ∀ e ∈ enqueued, ∃ row ∈ rows, e.event = row.event ∧ e.endpointId = row.endpointId

theorem justify_message? {rows : List WebhookDeliveryAttempt} {enqueued : List Enqueued}
    (h : Requeues rows enqueued) : ∀ m ∈ enqueued.filterMap Enqueued.message?,
      ({ sources with rows := sources.rows ++ rows } : Sources).Justify m := by
  intro m hm
  obtain ⟨e, he, hmessage⟩ := List.mem_filterMap.mp hm
  obtain ⟨payload, -, rfl⟩ := Option.map_eq_some_iff.mp hmessage
  obtain ⟨row, hrow, hsame⟩ := h e he
  exact .inr ⟨row, List.mem_append_right _ hrow, hsame⟩

theorem requeues_redeliver {load : String → Except RedeliverError (Option Json)}
    {options : RedeliverOptions} {rows : List WebhookDeliveryAttempt} {enqueued : List Enqueued}
    (h : redeliverFailedWebhooks load options rows = .ok enqueued) : Requeues rows enqueued := by
  have hnone : Requeues rows [] := fun e he => by simp at he
  have hvalid := valid_of_ok h
  cases hrequeue : options.requeue with
  | false =>
    rw [redeliver_dry_run hvalid hrequeue] at h
    cases h
    exact hnone
  | true =>
    cases hpayload : explicitPayload load options with
    | error e =>
      rw [redeliver_requeue hvalid hrequeue, hpayload] at h
      split at h
      · cases h
        exact hnone
      · cases h
    | ok payload =>
      rw [redeliver_of_payload hvalid hrequeue hpayload, enqueueAll] at h
      split at h
      · cases h
      · cases h
        intro e he
        obtain ⟨row, hrow, rfl⟩ := List.mem_map.mp he
        exact ⟨row, List.mem_of_mem_filter (List.mem_reverse.mp hrow), rfl, rfl⟩

theorem requeues_requeueSelected (rows : List WebhookDeliveryAttempt) :
    Requeues rows (requeueSelected rows).enqueued := by
  rw [(requeueSelected_spec rows).1]
  intro e he
  obtain ⟨row, hrow, hrequeue⟩ := List.mem_filterMap.mp he
  simp only [WebhookDeliveryAttempt.requeue, Option.ite_none_right_eq_some,
    Option.map_eq_some_iff] at hrequeue
  obtain ⟨-, payload, -, rfl⟩ := hrequeue
  exact ⟨row, hrow, rfl, rfl⟩

theorem follows_purge (settings : RetentionSettings) (days : Option Int)
    (status : Option AttemptStatus) (dryRun : Bool)
    (hwindow : window = some {
      days := resolveRetentionDays settings days, status, removes := !dryRun })
    (hrests : sources.Rests ()) :
    (purgeOldDeliveryAttempts settings days status dryRun).Follows (informed window)
      (fun sources _ => sources.Rests ()) sources := by
  refine ⟨hrests, fun (time : Time) => ⟨⟨_, hwindow, time, rfl, rfl, rfl⟩,
    fun (matched : Nat) => ?_⟩⟩
  have htrack : (informed window).track ((informed window).track sources ⟨.now, time⟩)
      ⟨.countAttempts (time - timedelta (resolveRetentionDays settings days)) status, matched⟩ =
        if matched = 0 || dryRun then { sources with purging := none }
        else { sources with purging := some time } := by
    simp [informed, track, hwindow]
  rw [htrack]
  change Follows _ _ (if dryRun || matched = 0 then _ else _) _
  rw [Bool.or_comm]
  split
  · exact rfl
  · next hmatched =>
    simp only [Bool.or_eq_true, decide_eq_true_eq, not_or, Bool.not_eq_true] at hmatched
    exact ⟨⟨_, hwindow, by simp [hmatched.2], time, rfl, rfl, rfl⟩, fun _ => rfl⟩

end Sources

/-- The rows that a purge looks for are gone: it has removed them, or has found none. -/
def Purged (events : List (Event deployment)) (cutoff : Time) (status : Option AttemptStatus) :
    Prop :=
  (∃ deleted, ⟨.deleteAttempts cutoff status, deleted⟩ ∈ events) ∨
    ⟨.countAttempts cutoff status, (0 : Nat)⟩ ∈ events

/-- The rule about what a process publishes and removes. -/
def Duty.sources (site : Site) (duty : Duty) : Discipline deployment Sources :=
  match duty with
  | .worker => Sources.unrestricted
  | duty => Sources.informed (duty.window site.retention)

theorem Duty.follows_sources (site : Site) (duty : Duty) {sources : Sources}
    (h : sources.Rests ()) :
    (duty.program site).Follows (duty.sources site) Sources.Rests sources := by
  cases duty with
  | receiver eventName event => exact Sources.follows_processEvent eventName event h
  | worker => exact Sources.follows_unrestricted _ h
  | visibilityTimeout => exact ⟨trivial, fun _ => h⟩
  | redeliver options file =>
    rw [Duty.program, redeliver_eq]
    refine ⟨trivial, fun (attempts : List WebhookDeliveryAttempt) =>
      Sources.follows_publishEach (fun m hm => ?_) h⟩
    unfold redelivered at hm
    split at hm
    · cases hm
    · next henqueued =>
      exact Sources.justify_message? (Sources.requeues_redeliver henqueued) m hm
  | requeue selects =>
    exact ⟨trivial, fun attempts => Sources.follows_publishEach (Sources.justify_message?
      (Sources.requeues_requeueSelected attempts)) h⟩
  | purgeCommand options =>
    exact (Sources.follows_purge site.retention options.days options.status (!options.yes)
      (by simp [Duty.window]) h).bind fun _ _ h => h
  | purgeTask =>
    change Follows _ _ ((if !site.retention.autoPurgeEnabled then _ else _) >>= _) _
    split
    · exact h
    · next henabled =>
      have hwindow : Duty.purgeTask.window site.retention = some {
          days := resolveRetentionDays site.retention none
          status := none
          removes := !false } := by
        simp_all [Duty.window]
      have hsome : (purgeOldDeliveryAttempts site.retention none none false >>= fun result =>
          return some result).Follows (Duty.purgeTask.sources site)
            (fun sources _ => sources.Rests ()) sources :=
        (Sources.follows_purge site.retention none none false hwindow h).bind fun _ _ h => h
      exact hsome.bind fun _ _ h => h

/-- What a process has been told stands in its part of the log. The purges that have started have
come to their end but for the one that is under way. -/
structure Sources.Grounded (window : Option PurgeWindow) (sources : Sources)
    (events : List (Event deployment)) : Prop where
  subscribers : ∀ event pk, (event, pk) ∈ sources.subscribers →
    ∃ pks, ⟨.endpointIds event, pks⟩ ∈ events ∧ pk ∈ pks
  rows : ∀ row ∈ sources.rows, ∃ selects rows, ⟨.selectAttempts selects, rows⟩ ∈ events ∧ row ∈ rows
  purging : ∀ time, sources.purging = some time → ⟨.now, time⟩ ∈ events
  purged : ∀ time, ⟨.now, time⟩ ∈ events → sources.purging = some time ∨
    ∀ w, window = some w → w.removes → Purged events (w.cutoff time) w.status

theorem Purged.snoc {events : List (Event deployment)} {cutoff : Time}
    {status : Option AttemptStatus} (h : Purged events cutoff status) (ev : Event deployment) :
    Purged (events ++ [ev]) cutoff status :=
  h.imp (.imp fun _ => List.mem_append_left _) (List.mem_append_left _)

/-- A purge that comes to its end has purged what it looked for. -/
theorem Sources.Grounded.purged_last {window : Option PurgeWindow} {sources : Sources}
    {events : List (Event deployment)} (h : sources.Grounded window events) {cutoff : Time}
    {status : Option AttemptStatus} {w : PurgeWindow} (hwindow : window = some w)
    (hpurges : sources.Purges w cutoff status) {ev : Event deployment}
    (hlast : w.removes → Purged (events ++ [ev]) cutoff status) {time : Time}
    (htime : ⟨.now, time⟩ ∈ events) :
    ∀ w, window = some w → w.removes → Purged (events ++ [ev]) (w.cutoff time) w.status := by
  intro w' hw' hremoves
  obtain rfl : w = w' := Option.some.inj (hwindow.symm.trans hw')
  obtain ⟨time', hpurging, rfl, rfl⟩ := hpurges
  rcases h.purged time htime with hsame | hpurged
  · obtain rfl : time' = time := Option.some.inj (hpurging.symm.trans hsame)
    exact hlast hremoves
  · exact (hpurged w hw' hremoves).snoc ev

theorem Sources.Grounded.track {window : Option PurgeWindow} {sources : Sources}
    {events : List (Event deployment)} (h : sources.Grounded window events) {op : SystemOp}
    (answer : op.Answer) (hpermits : sources.permits window op) :
    (sources.track window ⟨op, answer⟩).Grounded window (events ++ [⟨op, answer⟩]) := by
  have hsubscribers : ∀ event pk, (event, pk) ∈ sources.subscribers →
      ∃ pks, ⟨.endpointIds event, pks⟩ ∈ events ++ [⟨op, answer⟩] ∧ pk ∈ pks := by
    intro event pk hmem
    obtain ⟨pks, hevent, hpk⟩ := h.subscribers event pk hmem
    exact ⟨pks, List.mem_append_left _ hevent, hpk⟩
  have hrows : ∀ row ∈ sources.rows, ∃ selects rows,
      ⟨.selectAttempts selects, rows⟩ ∈ events ++ [⟨op, answer⟩] ∧ row ∈ rows := by
    intro row hmem
    obtain ⟨selects, rows, hevent, hrow⟩ := h.rows row hmem
    exact ⟨selects, rows, List.mem_append_left _ hevent, hrow⟩
  have hpurging : ∀ time, sources.purging = some time → ⟨.now, time⟩ ∈ events ++ [⟨op, answer⟩] :=
    fun time htime => List.mem_append_left _ (h.purging time htime)
  have hpurged : ∀ time, ⟨.now, time⟩ ∈ events → sources.purging = some time ∨
      ∀ w, window = some w → w.removes →
        Purged (events ++ [⟨op, answer⟩]) (w.cutoff time) w.status :=
    fun time htime => (h.purged time htime).imp_right fun h w hw hremoves =>
      (h w hw hremoves).snoc _
  have hbefore : ∀ time, op ≠ .now → (⟨.now, time⟩ : Event deployment) ∈ events ++ [⟨op, answer⟩] →
      ⟨.now, time⟩ ∈ events := by
    intro time hop hmem
    rcases List.mem_append.mp hmem with hmem | hmem
    · exact hmem
    · exact absurd (Event.mk.inj (List.mem_singleton.mp hmem)).1.symm hop
  cases op with
  | endpointIds event =>
    refine ⟨fun event' pk hmem => ?_, hrows, hpurging,
      fun time htime => hpurged time (hbefore time (by simp) htime)⟩
    rcases List.mem_append.mp hmem with hmem | hmem
    · exact hsubscribers event' pk hmem
    · obtain ⟨pk', hpk, heq⟩ := List.mem_map.mp hmem
      cases heq
      exact ⟨answer, by simp, hpk⟩
  | selectAttempts selects =>
    refine ⟨hsubscribers, fun row hmem => ?_, hpurging,
      fun time htime => hpurged time (hbefore time (by simp) htime)⟩
    rcases List.mem_append.mp hmem with hmem | hmem
    · exact hrows row hmem
    · exact ⟨selects, answer, by simp, hmem⟩
  | now =>
    have hnone : sources.purging = none := hpermits
    refine ⟨hsubscribers, hrows, fun time htime => ?_, fun time htime => ?_⟩
    · obtain rfl : answer = time := Option.some.inj htime
      simp
    · rcases List.mem_append.mp htime with htime | htime
      · exact .inr ((hpurged time htime).resolve_left (by simp [hnone]))
      · cases List.mem_singleton.mp htime
        exact .inl rfl
  | countAttempts cutoff status =>
    obtain ⟨w, hwindow, hpurges⟩ := hpermits
    rw [Sources.track]
    split
    · next hdone =>
      refine ⟨hsubscribers, hrows, by simp, fun time htime => .inr
        (h.purged_last hwindow hpurges (fun hremoves => .inr ?_) (hbefore time (by simp) htime))⟩
      have hnone : answer = 0 := by simpa [hwindow, hremoves] using hdone
      simp [hnone]
    · exact ⟨hsubscribers, hrows, hpurging,
        fun time htime => hpurged time (hbefore time (by simp) htime)⟩
  | deleteAttempts cutoff status =>
    obtain ⟨w, hwindow, -, hpurges⟩ := hpermits
    exact ⟨hsubscribers, hrows, by simp [Sources.track], fun time htime => .inr
      (h.purged_last hwindow hpurges (fun _ => .inl ⟨answer, by simp⟩)
        (hbefore time (by simp) htime))⟩
  | _ =>
    exact ⟨hsubscribers, hrows, hpurging,
      fun time htime => hpurged time (hbefore time (by simp) htime)⟩

section Deployed

variable {ι : Type} [DecidableEq ι] {site : Site} {duties : ι → Duty} {s : Deployment}
  {G : Config deployment ι Deployment Unit → Label Circumstances Intervention ι → Prop}
  {c : Config deployment ι Deployment Unit}

/-- What a process has been told. -/
def sourcesIn (site : Site) (duties : ι → Duty) (i : ι) (log : List (ι × Event deployment)) :
    Sources :=
  System.ghost ((duties i).sources site) {} i log

omit [DecidableEq ι] in
theorem start_follows_sources (i : ι) : ((boot site duties s).program i).Follows
    ((duties i).sources site) Sources.Rests {} :=
  (duties i).follows_sources site rfl

omit [DecidableEq ι] in
theorem again_follows_sources (i : ι) (sources : Sources) (value : Unit) (p : Process Unit)
    (h : sources.Rests value) (hlaunch : (deployed site duties).relaunch i value = some p) :
    p.Follows ((duties i).sources site) Sources.Rests sources := by
  simp only [deployed, Option.ite_none_right_eq_some, Option.some.injEq] at hlaunch
  obtain ⟨-, rfl⟩ := hlaunch
  exact (duties i).follows_sources site h

/-- In every interleaving every process keeps to its rule. -/
theorem sources_follow (h : (deployed site duties).Reaches G (boot site duties s) c) (i : ι) :
    (c.program i).Follows ((duties i).sources site) Sources.Rests (sourcesIn site duties i c.log) :=
  h.follows rfl start_follows_sources again_follows_sources i

theorem sources_permitted (h : (deployed site duties).Reaches G (boot site duties s) c) {i : ι}
    {op : SystemOp} {rest : op.Answer → Process Unit} (hduty : duties i ≠ .worker)
    (hp : c.program i = .call op rest) :
    (sourcesIn site duties i c.log).permits ((duties i).window site.retention) op := by
  have hfollows := sources_follow h i
  rw [hp] at hfollows
  have hpermits := hfollows.1
  generalize sourcesIn site duties i c.log = sources at hpermits
  cases hi : duties i with
  | worker => exact absurd hi hduty
  | _ =>
    rw [hi] at hpermits
    exact hpermits

/-- What a process goes by is in the log. -/
theorem sources_grounded (h : (deployed site duties).Reaches G (boot site duties s) c) {i : ι}
    (hduty : duties i ≠ .worker) :
    (sourcesIn site duties i c.log).Grounded ((duties i).window site.retention) (part i c.log) := by
  refine h.course (I := fun i (sources : Sources) events => duties i ≠ .worker →
      sources.Grounded ((duties i).window site.retention) events) rfl
    start_follows_sources again_follows_sources (fun _ _ => ⟨by simp, by simp, by simp, by simp⟩)
    (fun i sources events op answer ih hpermits hduty => ?_) i hduty
  have hgrounded := ih hduty
  cases hi : duties i with
  | worker => exact absurd hi hduty
  | _ =>
    rw [hi] at hpermits hgrounded
    exact hgrounded.track answer hpermits

end Deployed

end WebhookRelay
