import WebhookRelay.System.Sources

/-!
# Where messages, rows and requests come from

Every message for the task has an origin: a subscription that a receiver has looked up, an
attempt that announced a retry, or a row of the audit trail that an operator sends again. Rows
and requests come from messages. Following the causes back gives what the audit trail may be
trusted with.

## Main results

* `trail_without_gaps` — every row of the audit trail comes after a row for each earlier attempt
  of its delivery that announces the next one.
-/

namespace WebhookRelay

open Interleaving Program Messaging Books

/-! ## Causes -/

section Deployed

variable {ι : Type} [DecidableEq ι] {site : Site} {duties : ι → Duty} {s : Deployment}
  {G : Config deployment ι Deployment Unit → Label Circumstances Intervention ι → Prop}
  {c : Config deployment ι Deployment Unit} {log : List (ι × Event deployment)}
  {lib : Primitives} {old : List AuditRow}

/-- A row was written by an attempt for the message. -/
def WrittenFor (log : List (ι × Event deployment)) (message : Message)
    (attempt : WebhookDeliveryAttempt) : Prop :=
  ∃ i, (i, ⟨.statement message (.createAttempt attempt), true⟩) ∈ log

/-- A receiver has found an endpoint enabled and subscribed to the event. -/
def Subscribed (log : List (ι × Event deployment)) (event : String) (pk : Nat) : Prop :=
  ∃ i pks, (i, ⟨.endpointIds event, pks⟩) ∈ log ∧ pk ∈ pks

/-- The row was handed to an operator. -/
def Shown (log : List (ι × Event deployment)) (attempt : WebhookDeliveryAttempt) : Prop :=
  ∃ i selects rows, (i, ⟨.selectAttempts selects, rows⟩) ∈ log ∧ attempt ∈ rows

/-- A process that runs no attempts publishes what it has been told about. -/
theorem justified_publish (h : (deployed site duties).Reaches G (boot site duties s) c) {i : ι}
    {message : Message} {rest : Publication → Process Unit} (hduty : duties i ≠ .worker)
    (hp : c.program i = .call (.publish message) rest) :
    Subscribed c.log message.event message.endpointId ∨ ∃ row, Shown c.log row ∧
      message.event = row.event ∧ message.endpointId = row.endpointId := by
  have hgrounded := sources_grounded h hduty
  rcases sources_permitted h hduty hp with hsubscribed | ⟨row, hrow, hsame⟩
  · obtain ⟨pks, hevent, hpk⟩ := hgrounded.subscribers _ _ hsubscribed
    exact .inl ⟨i, pks, mem_part.mp hevent, hpk⟩
  · obtain ⟨selects, rows, hevent, hmem⟩ := hgrounded.rows row hrow
    exact .inr ⟨row, ⟨i, selects, rows, mem_part.mp hevent, hmem⟩, hsame⟩

/-! ## What the store has been given -/

/-- The broker has, and hands out, only messages that were published. -/
theorem published_of_holds (hs : s.broker = .empty)
    (h : (deployed site duties).Reaches G (boot site duties s) c) :
    (∀ message, c.store.broker.Holds message → Published c.log message) ∧
      ∀ i tag message, (progressIn site duties i c.log).holding = some (tag, message) →
        Published c.log message := by
  refine h.account (I := fun s log => (∀ message, s.broker.Holds message → Published log message) ∧
    ∀ i tag message, (progressIn site duties i log).holding = some (tag, message) →
      Published log message) ?_ ?_ ?_
  · refine ⟨fun message hholds => ?_, by simp [boot, progressIn]⟩
    rw [boot, hs] at hholds
    rcases hholds with hholds | ⟨tag, hholds⟩ <;> cases hholds
  · rintro c j e op rest - - ⟨hbroker, hworkers⟩
    have hbefore : ∀ message, c.store.broker.Holds message →
        Published (c.log ++ [(j, ⟨op, (serve e op c.store).1⟩)]) message :=
      fun message h => (hbroker message h).snoc _
    refine ⟨fun message hholds => ?_, fun i tag message hholding => ?_⟩
    · change (serve e op c.store).2.broker.Holds message at hholds
      cases op with
      | publish other =>
        by_cases harrives : e.publication.arrives
        · rw [serve, if_pos harrives] at hholds
          rcases hholds.of_publish with hholds | rfl
          · exact hbefore message hholds
          · exact ⟨j, e.publication, harrives,
              List.mem_append_right _ (List.mem_singleton_self _)⟩
        · rw [serve, if_neg harrives] at hholds
          exact hbefore message hholds
      | reserve => exact hbefore message hholds.of_reserve
      | redeliver => exact hbefore message hholds.of_redeliver
      | acknowledge tag other state => exact hbefore message hholds.of_acknowledge
      | statement other op => exact hbefore message (execute_broker .. ▸ hholds)
      | _ => exact hbefore message hholds
    · rcases holding_snoc hholding with hholding | hreserve
      · exact (hworkers i tag message hholding).snoc _
      · obtain ⟨rfl, hanswer⟩ := Event.mk.inj hreserve
        exact hbefore message (.inl (Broker.mem_ready_of_reserve (eq_of_heq hanswer)))
  · rintro s log a ⟨hbroker, hworkers⟩
    refine ⟨fun message hholds => hbroker message ?_, hworkers⟩
    rwa [show (deployed site duties).environment a s = intervene a s from rfl,
      intervene_broker] at hholds

/-- The row that an operation has written. -/
def rowWritten : Event deployment → Option WebhookDeliveryAttempt
  | ⟨.statement _ (.createAttempt attempt), true⟩ => some attempt
  | _ => none

theorem eq_of_rowWritten {ev : Event deployment} {attempt : WebhookDeliveryAttempt}
    (h : rowWritten ev = some attempt) :
    ∃ message, ev = ⟨.statement message (.createAttempt attempt), true⟩ := by
  unfold rowWritten at h
  split at h
  · cases h
    exact ⟨_, rfl⟩
  · cases h

/-- The rows that an operation removes. -/
def SystemOp.removes : SystemOp → AuditRow → Bool
  | .deleteAttempts cutoff status => AuditRow.isOld cutoff status
  | _ => fun _ => false

/-- What an operation does to the audit trail. -/
theorem attempts_serve (e : Circumstances) (op : SystemOp) (s : Deployment) :
    (serve e op s).2.attempts = (s.attempts.filter fun row => !op.removes row) ++
      ((rowWritten ⟨op, (serve e op s).1⟩).map (AuditRow.mk s.clock)).toList := by
  have hkeep : (s.attempts.filter fun _ => !false) = s.attempts := by simp
  cases op with
  | statement message op =>
    cases op with
    | createAttempt attempt =>
      rw [serve, execute]
      split
      · exact (hkeep.symm.trans (List.append_nil _).symm)
      · exact congrArg (· ++ _) hkeep.symm
    | setHalfOpen | getEnabled =>
      rw [serve, execute]
      split <;> exact (hkeep.symm.trans (List.append_nil _).symm)
    | _ => exact (hkeep.symm.trans (List.append_nil _).symm)
  | deleteAttempts cutoff status => exact (List.append_nil _).symm
  | publish message =>
    rw [serve]
    split <;> exact (hkeep.symm.trans (List.append_nil _).symm)
  | _ => exact (hkeep.symm.trans (List.append_nil _).symm)

/-- The rows of the audit trail were there before or were written by attempts. -/
theorem written_of_mem (h : (deployed site duties).Reaches G (boot site duties s) c) :
    ∀ row ∈ c.store.attempts,
      row ∈ s.attempts ∨ ∃ message, WrittenFor c.log message row.attempt := by
  refine h.account (I := fun s' log => ∀ row ∈ s'.attempts, row ∈ s.attempts ∨ ∃ message,
    WrittenFor log message row.attempt) ?_ ?_ ?_
  · exact fun row hrow => .inl hrow
  · intro c i e op rest _ _ ih row hrow
    change row ∈ (serve e op c.store).2.attempts at hrow
    rw [attempts_serve] at hrow
    rcases List.mem_append.mp hrow with hrow | hrow
    · refine (ih row (List.mem_of_mem_filter hrow)).imp_right fun ⟨message, j, hmem⟩ => ?_
      exact ⟨message, j, List.mem_append_left _ hmem⟩
    · obtain ⟨attempt, hwritten, rfl⟩ := Option.map_eq_some_iff.mp (Option.mem_toList.mp hrow)
      obtain ⟨message, hev⟩ := eq_of_rowWritten hwritten
      refine .inr ⟨message, i, List.mem_append_right _ ?_⟩
      change (i, _) ∈ [(i, (⟨op, (serve e op c.store).1⟩ : Event deployment))]
      rw [hev]
      exact List.mem_singleton_self _
  · intro s log a ih row hrow
    cases a with
    | deleteEndpoint pk => exact ih row (List.mem_of_mem_filter hrow)
    | _ => exact ih row hrow

/-- What a worker knows of its attempt stands in its part of the log. -/
structure WorkerProgress.Grounded (progress : WorkerProgress)
    (events : List (Event deployment)) : Prop where
  loaded : ∀ tag message, progress.holding = some (tag, message) →
    ∀ endpoint, progress.attempt.loaded = some endpoint →
    ⟨.statement message .getEnabled, .ok (some endpoint)⟩ ∈ events
  retrying : ∀ tag message, progress.holding = some (tag, message) →
    progress.attempt.fate = some (.recorded .retrying) →
    (∃ row, ⟨.statement message (.createAttempt row), true⟩ ∈ events ∧ row.status = .retrying) ∧
      ∃ endpoint, ⟨.statement message .getEnabled, .ok (some endpoint)⟩ ∈ events ∧
        message.retries + 1 < endpoint.maxRetries

theorem WorkerProgress.Grounded.snoc {progress : WorkerProgress}
    {events : List (Event deployment)} (h : progress.Grounded events) (ev : Event deployment) :
    progress.Grounded (events ++ [ev]) where
  loaded tag message hholding endpoint hloaded :=
    List.mem_append_left _ (h.loaded tag message hholding endpoint hloaded)
  retrying tag message hholding hfate :=
    (h.retrying tag message hholding hfate).imp
      (fun ⟨row, hrow, hstatus⟩ => ⟨row, List.mem_append_left _ hrow, hstatus⟩)
      fun ⟨endpoint, hfound, hless⟩ => ⟨endpoint, List.mem_append_left _ hfound, hless⟩

theorem WorkerProgress.Grounded.track {progress : WorkerProgress}
    {events : List (Event deployment)} (h : progress.Grounded events) {op : SystemOp}
    (answer : op.Answer) (hpermits : progress.permits site.lib op) :
    (progress.track ⟨op, answer⟩).Grounded (events ++ [⟨op, answer⟩]) := by
  cases op with
  | reserve => exact ⟨by simp [WorkerProgress.track], by simp [WorkerProgress.track]⟩
  | acknowledge tag message state =>
    exact ⟨by simp [WorkerProgress.track], by simp [WorkerProgress.track]⟩
  | publish next => exact ⟨(h.snoc _).loaded, (h.snoc _).retrying⟩
  | statement message op =>
    obtain ⟨⟨tag, hholding⟩, hop, -⟩ := hpermits
    have hsame : ∀ {tag' message'}, progress.holding = some (tag', message') →
        message' = message := fun h => (Prod.mk.inj (Option.some.inj (h.symm.trans hholding))).2
    have hlast : (⟨.statement message op, answer⟩ : Event deployment) ∈
        events ++ [⟨.statement message op, answer⟩] :=
      List.mem_append_right _ (List.mem_singleton_self _)
    cases op with
    | getEnabled =>
      rcases answer with e | _ | endpoint
      · exact ⟨(h.snoc _).loaded, (h.snoc _).retrying⟩
      · exact ⟨(h.snoc _).loaded, by simp [WorkerProgress.track, Op.read,
          AttemptProgress.track]⟩
      · refine ⟨fun tag' message' hholding' endpoint' hloaded => ?_, (h.snoc _).retrying⟩
        obtain rfl := hsame hholding'
        obtain rfl : endpoint = endpoint' := Option.some.inj hloaded
        exact hlast
    | createAttempt row =>
      cases answer with
      | false => exact h.snoc _
      | true =>
        refine ⟨(h.snoc _).loaded, fun tag' message' hholding' hfate => ?_⟩
        obtain rfl := hsame hholding'
        have hstatus : row.status = .retrying := by
          simpa [WorkerProgress.track, Op.read, AttemptProgress.track] using hfate
        obtain ⟨-, -, ⟨endpoint, hloaded, hrecords⟩, hwrites⟩ := hop
        exact ⟨⟨row, hlast, hstatus⟩, endpoint,
          List.mem_append_left _ (h.loaded tag message' hholding endpoint hloaded),
          hrecords.retrying hstatus⟩
    | refreshFailures =>
      cases answer with
      | none => exact h.snoc _
      | some failures => exact ⟨(h.snoc _).loaded, (h.snoc _).retrying⟩
    | _ => exact ⟨(h.snoc _).loaded, (h.snoc _).retrying⟩
  | _ => exact hpermits.elim

theorem grounded (h : (deployed site duties).Reaches G (boot site duties s) c) (i : ι) :
    (progressIn site duties i c.log).Grounded (part i c.log) := by
  refine h.course (I := fun _ => WorkerProgress.Grounded) rfl
    (fun i => (duties i).follows_program site) again_follows (fun _ => ⟨by simp, by simp⟩)
    (fun i progress events op answer ih hpermits => ?_) i
  cases hduty : duties i with
  | worker =>
    rw [hduty] at hpermits
    exact ih.track answer hpermits
  | _ => exact ih.snoc _

/-- The row that an attempt finds is stored, and enabled. -/
theorem stored_of_found (outside : Outside) {pk : Nat} {s : Deployment} {row : WebhookEndpoint}
    (h : (execute outside pk .getEnabled s).1 = .ok (some row)) :
    s.endpoints.get? pk = some row ∧ row.enabled := by
  rw [execute] at h
  split at h
  · cases h
  · next stored hstored =>
    obtain rfl : row = stored := Option.some.inj (Outside.load_ok h)
    exact Option.filter_eq_some_iff.mp hstored

/-- The row that an attempt has loaded is that of its message's endpoint, and enabled. -/
theorem enabled_of_found (h : (deployed site duties).Reaches G (boot site duties s) c) {i : ι}
    {message : Message} {endpoint : WebhookEndpoint}
    (hmem : (i, ⟨.statement message .getEnabled, .ok (some endpoint)⟩) ∈ c.log) :
    endpoint.enabled ∧ endpoint.pk = message.endpointId := by
  revert hmem
  let ev : Event deployment := ⟨.statement message .getEnabled, .ok (some endpoint)⟩
  refine h.account (I := fun _ log => (i, ev) ∈ log →
    endpoint.enabled ∧ endpoint.pk = message.endpointId) (by simp [boot]) ?_ fun _ _ _ h => h
  intro c j e op rest _ _ ih hmem
  rcases List.mem_append.mp hmem with hmem | hmem
  · exact ih hmem
  · obtain ⟨-, hev⟩ := Prod.mk.inj (List.mem_singleton.mp hmem)
    obtain ⟨rfl, hanswer⟩ := Event.mk.inj hev
    obtain ⟨hget, henabled⟩ := stored_of_found e.toOutside (eq_of_heq hanswer).symm
    exact ⟨henabled, EndpointTable.pk_of_get? hget⟩

/-! ## Every operation has a cause -/

/-- The first attempt of a delivery has a subscriber or a row that is sent again. -/
def Origin (before : List (ι × Event deployment)) (message : Message) : Prop :=
  message.retries = 0 ∧ (Subscribed before message.event message.endpointId ∨
    ∃ row, Shown before row ∧ message.event = row.event ∧ message.endpointId = row.endpointId)

/-- A retry has an attempt that announced it. -/
def Continuation (before : List (ι × Event deployment)) (message : Message) : Prop :=
  ∃ previous row, message.Succeeds previous ∧ Published before previous ∧
    WrittenFor before previous row ∧ row.status = .retrying

/-- What must have come before an operation; `old` is the audit trail at the start. -/
def Cause (lib : Primitives) (old : List AuditRow) (before : List (ι × Event deployment)) :
    ι × Event deployment → Prop
  | (_, ⟨.publish message, _⟩) => Origin before message ∨ Continuation before message
  | (_, ⟨.selectAttempts _, rows⟩) => ∀ row ∈ rows,
      row ∈ old.map AuditRow.attempt ∨ ∃ message, WrittenFor before message row
  | (i, ⟨.statement message (.createAttempt row), _⟩) => Published before message ∧
      message.Writes row ∧ row.endpointId = message.endpointId ∧
      ∃ endpoint outcome, (i, ⟨.statement message .getEnabled, .ok (some endpoint)⟩) ∈ before ∧
        AttemptProgress.Records lib message endpoint outcome row
  | (i, ⟨.statement message (.post request), _⟩) => Published before message ∧
      ∃ endpoint, (i, ⟨.statement message .getEnabled, .ok (some endpoint)⟩) ∈ before ∧
        AttemptProgress.Carries lib message endpoint request
  | _ => True

theorem caused (hbroker : s.broker = .empty)
    (h : (deployed site duties).Reaches G (boot site duties s) c) :
    Justified (Cause site.lib s.attempts) c.log := by
  refine h.justified rfl fun c i e op rest hr hp => ?_
  have hpermits := conduct_permitted hr hp
  have hpublished := (published_of_holds hbroker hr).2 i
  have hgrounded := grounded hr i
  cases op with
  | publish message =>
    by_cases hduty : duties i = .worker
    · rw [hduty] at hpermits
      obtain ⟨tag, previous, hholding, hsucceeds, -, hfate, -⟩ := hpermits
      obtain ⟨⟨row, hrow, hstatus⟩, -⟩ := hgrounded.retrying tag previous hholding hfate
      exact .inr ⟨previous, row, hsucceeds, hpublished tag previous hholding,
        ⟨i, mem_part.mp hrow⟩, hstatus⟩
    · refine .inl ⟨?_, justified_publish hr hduty hp⟩
      cases hi : duties i with
      | worker => exact absurd hi hduty
      | _ =>
        rw [hi] at hpermits
        exact hpermits
  | selectAttempts selects =>
    intro attempt hattempt
    obtain ⟨row, hrow, rfl⟩ := List.mem_map.mp hattempt
    exact (written_of_mem hr row (List.mem_of_mem_filter hrow)).imp_left (List.mem_map_of_mem ·)
  | statement message op =>
    cases hi : duties i with
    | worker =>
      rw [hi] at hpermits
      obtain ⟨⟨tag, hholding⟩, hop, -⟩ := hpermits
      cases op with
      | createAttempt row =>
        obtain ⟨-, -, ⟨endpoint, hloaded, hrecords⟩, hwrites⟩ := hop
        have hfound := mem_part.mp (hgrounded.loaded tag message hholding endpoint hloaded)
        exact ⟨hpublished tag message hholding, hwrites,
          hrecords.endpointId.trans (enabled_of_found hr hfound).2, endpoint, _, hfound, hrecords⟩
      | post request =>
        obtain ⟨-, -, endpoint, hloaded, hcarries⟩ := hop
        have hfound := hgrounded.loaded tag message hholding endpoint hloaded
        exact ⟨hpublished tag message hholding, endpoint, mem_part.mp hfound, hcarries⟩
      | _ => trivial
    | _ =>
      rw [hi] at hpermits
      exact hpermits.elim
  | _ => trivial

/-! ## The audit trail -/

/-- The rows in the order in which they were written. -/
def rowsWritten (log : List (ι × Event deployment)) : List WebhookDeliveryAttempt :=
  log.filterMap fun entry => rowWritten entry.2

/-- The row says that the attempt with this number will be retried. -/
structure WebhookDeliveryAttempt.Announces (row : WebhookDeliveryAttempt) (message : Message)
    (attemptNumber : Nat) : Prop where
  endpointId : row.endpointId = message.endpointId
  event : row.event = message.event
  correlationId : row.correlationId = message.correlationId
  attemptNumber : row.attemptNumber = attemptNumber
  status : row.status = .retrying

omit [DecidableEq ι] in
/-- What a row says about the message that it was written for. -/
theorem writes_of_writtenFor (hcaused : Justified (Cause lib old) log) {message : Message}
    {row : WebhookDeliveryAttempt} (h : WrittenFor log message row) :
    message.Writes row ∧ row.endpointId = message.endpointId := by
  obtain ⟨i, hmem⟩ := h
  obtain ⟨before, later, -, -, -, hwrites, hpk, -⟩ := hcaused.of_mem hmem
  exact ⟨hwrites, hpk⟩

omit [DecidableEq ι] in
theorem mem_rowsWritten {message : Message} {row : WebhookDeliveryAttempt}
    (h : WrittenFor log message row) : row ∈ rowsWritten log := by
  obtain ⟨i, hmem⟩ := h
  exact List.mem_filterMap.mpr ⟨_, hmem, rfl⟩

omit [DecidableEq ι] in
/-- Each of the attempts before a message has announced the next one. -/
theorem announced (hcaused : Justified (Cause lib old) log) {message : Message}
    (hpublished : Published log message) {n : Nat} (hpos : 0 < n) (hle : n ≤ message.retries) :
    ∃ row ∈ rowsWritten log, row.Announces message n := by
  obtain ⟨i, publication, -, hmem⟩ := hpublished
  -- along the causes, from a message to the one that it succeeds
  let P : ι × Event deployment → Prop := fun entry =>
    ∀ message publication, entry.2 = ⟨.publish message, publication⟩ →
      ∀ n, 0 < n → n ≤ message.retries → ∃ row ∈ rowsWritten log, row.Announces message n
  refine hcaused.induct (P := P) (fun before entry hsub ih hcause => ?_) _ hmem message
    publication rfl n hpos hle
  obtain ⟨j, op, answer⟩ := entry
  rintro message publication ⟨⟩ n hpos hle
  rcases hcause with ⟨hfirst, -⟩ |
    ⟨previous, row, hsucceeds, ⟨k, publication, -, hprevious⟩, ⟨k', hrow⟩, hstatus⟩
  · omega
  · have hretries := hsucceeds.retries
    by_cases hlast : n = message.retries
    · have hwritten : WrittenFor log previous row := ⟨k', hsub hrow⟩
      obtain ⟨hwrites, hpk⟩ := writes_of_writtenFor hcaused hwritten
      have hnumber := hwrites.attemptNumber
      exact ⟨row, mem_rowsWritten hwritten, hpk.trans hsucceeds.endpointId.symm,
        hwrites.event.trans hsucceeds.event.symm,
        hwrites.correlationId.trans hsucceeds.correlationId.symm, by omega, hstatus⟩
    · obtain ⟨row, hrow, hannounces⟩ :=
        ih _ hprevious previous publication rfl n hpos (by omega)
      exact ⟨row, hrow, hannounces.endpointId.trans hsucceeds.endpointId.symm,
        hannounces.event.trans hsucceeds.event.symm,
        hannounces.correlationId.trans hsucceeds.correlationId.symm, hannounces.attemptNumber,
        hannounces.status⟩

/-- The audit trail has no gaps: a row for the n-th attempt of a delivery comes after a row for
each earlier attempt that announces the next one, whatever is interleaved, repeated or
redelivered. -/
theorem trail_without_gaps (site : Site) (duties : ι → Duty) (s : Deployment)
    (hbroker : s.broker = .empty)
    (h : (deployed site duties).Reaches (fun _ _ => True) (boot site duties s) c)
    (before later : List WebhookDeliveryAttempt) (row : WebhookDeliveryAttempt)
    (hrows : rowsWritten c.log = before ++ row :: later) (n : Nat) (hpos : 0 < n)
    (hlt : n < row.attemptNumber) :
    ∃ earlier ∈ before, earlier.endpointId = row.endpointId ∧ earlier.event = row.event ∧
      earlier.correlationId = row.correlationId ∧ earlier.attemptNumber = n ∧
        earlier.status = .retrying := by
  obtain ⟨log, rest, hlog, rfl, hrest⟩ := List.filterMap_eq_append_iff.mp hrows
  obtain ⟨skipped, ⟨i, ev⟩, rest, rfl, hskipped, hwritten, -⟩ := List.filterMap_eq_cons_iff.mp hrest
  obtain ⟨message, rfl⟩ := eq_of_rowWritten hwritten
  have hcaused := caused hbroker h
  rw [hlog, ← List.append_assoc] at hcaused
  obtain ⟨hpublished, hwrites, hpk, -⟩ := hcaused _ _ _ rfl
  have hnumber := hwrites.attemptNumber
  obtain ⟨earlier, hearlier, hannounces⟩ := announced hcaused.left hpublished hpos (by omega)
  refine ⟨earlier, ?_, hannounces.endpointId.trans hpk.symm,
    hannounces.event.trans hwrites.event.symm,
    hannounces.correlationId.trans hwrites.correlationId.symm, hannounces.attemptNumber,
    hannounces.status⟩
  rwa [rowsWritten, List.filterMap_append, List.filterMap_eq_nil_iff.mpr hskipped,
    List.append_nil] at hearlier

end Deployed

/-- The endpoint is unavailable once. -/
theorem trail_without_gaps_unavailableOnce : ∃ c before row later,
    (deployed emptySite receiverAndWorker).schedule (boot emptySite receiverAndWorker oneSubscriber)
      (servedOnce 500 9 ++ .relaunch 1 :: List.replicate 9 (onward 200 1)) = some c ∧
    rowsWritten c.log = before ++ row :: later ∧ row.attemptNumber = 2 ∧
    ∃ earlier ∈ before, earlier.endpointId = row.endpointId ∧ earlier.event = row.event ∧
      earlier.correlationId = row.correlationId ∧ earlier.attemptNumber = 1 ∧
        earlier.status = .retrying := by
  have hrun : ((deployed emptySite receiverAndWorker).schedule
      (boot emptySite receiverAndWorker oneSubscriber)
        (servedOnce 500 9 ++ .relaunch 1 :: List.replicate 9 (onward 200 1))).map
        (fun c => (rowsWritten c.log).map (·.attemptNumber)) = some [1, 2] := by
    decide +kernel
  obtain ⟨c, hc, hnumbers⟩ := Option.map_eq_some_iff.mp hrun
  obtain ⟨first, rest, hrows, -, hrest⟩ := List.map_eq_cons_iff.mp hnumbers
  obtain ⟨row, later, rfl, hrow, -⟩ := List.map_eq_cons_iff.mp hrest
  exact ⟨c, [first], row, later, hc, hrows, hrow, trail_without_gaps emptySite receiverAndWorker
    oneSubscriber rfl (System.reaches_of_schedule hc .refl) [first] later row hrows 1
    (by decide) (by omega)⟩

end WebhookRelay
