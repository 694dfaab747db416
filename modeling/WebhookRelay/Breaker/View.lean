import WebhookRelay.Delivery.Attempt
import WebhookRelay.Model.Celery

/-!
# What the log tells about a chain

The view of a chain is computed from the operations it has performed: the copy of the row
its running attempt loaded, its last readings, whether it owes the settlement of a trial.
`conduct` says which operations a chain performs in which view, and
`deliverWebhook_follows` that every attempt keeps to it. The invariants of the breaker
are derived from the view alone; none of them looks into the task again.
-/

namespace WebhookRelay

open Interleaving Program

/-- What can be said about a chain from its part of the log. -/
structure View where
  /-- how many of its attempts have looked up the row -/
  loads : Nat := 0
  /-- the row as the running attempt loaded it -/
  copy : Option WebhookEndpoint := none
  /-- the last reading of the clock by the running attempt -/
  checked : Option Time := none
  /-- the count of failures read back after counting one more -/
  reread : Option Nat := none
  /-- it won a trial and has neither closed nor reopened the circuit since -/
  owes : Bool := false
  /-- it met something after which it ends without a word to the breaker -/
  spoiled : Bool := false
  /-- it has closed or opened the circuit -/
  concluded : Bool := false

namespace View

variable (settings : Settings) (job : Job)

/-- The exhausted row that the outcome leads to, if it does, cannot be written. -/
def unrecords (view : View) (outcome : PostOutcome) : Bool :=
  view.copy.any fun endpoint => (verdict endpoint.maxRetries (view.loads - 1)
    (recordError job (view.loads - 1) endpoint) outcome).isUnrecorded

/-- The answers after which an attempt ends, and its chain with it, without closing or
reopening the circuit. -/
def spoils (view : View) : Event relay → Bool
  | ⟨.getEnabled, .error _⟩ | ⟨.getEnabled, .ok none⟩ => true
  | ⟨.getEnabled, .ok (some endpoint)⟩ => !deliverable settings job view.loads endpoint
  | ⟨.getSecretValue _, .failed⟩ => true
  | ⟨.post _, outcome⟩ => !outcome.handled || view.unrecords job outcome
  | ⟨.refreshFailures, failures⟩ =>
    view.copy.any fun endpoint => failures < endpoint.circuitBreakerFailureThreshold
  | _ => false

/-- What one operation adds to the view. -/
def observe (view : View) : Event relay → View
  | ⟨.getEnabled, row⟩ =>
    { view with loads := view.loads + 1, copy := row.toOption.join, checked := none }
  | ⟨.now, time⟩ => { view with checked := some time }
  | ⟨.setHalfOpen, won⟩ => { view with owes := view.owes || won }
  | ⟨.refreshFailures, failures⟩ => { view with reread := some failures }
  | ⟨.resetCircuit, _⟩ | ⟨.openCircuit _, _⟩ => { view with owes := false, concluded := true }
  | _ => view

def track (view : View) (ev : Event relay) : View :=
  if view.spoils settings job ev then { view.observe ev with spoiled := true }
  else view.observe ev

/-- The operations a chain performs in a view. -/
def permits (view : View) (op : Op) : Prop :=
  view.concluded = false ∧ match op with
    | .getEnabled => view.reread = none
    | .setHalfOpen => ∃ endpoint openedAt time, view.copy = some endpoint ∧
        endpoint.circuitOpenedAt = some openedAt ∧ view.checked = some time ∧
        endpoint.cooldown ≤ time - openedAt ∧
        (builds settings endpoint → view.spoiled = false)
    | .resetCircuit => view.reread = none
    | .openCircuit _ => ∃ endpoint failures, view.copy = some endpoint ∧
        view.reread = some failures ∧ endpoint.circuitBreakerFailureThreshold ≤ failures
    | _ => True

/-- The rule that every attempt of a chain follows. -/
def conduct : Discipline relay View := ⟨track settings job, permits settings⟩

/-- The view in which the attempt with this number of retries starts. -/
structure Ready (view : View) (retries : Nat) : Prop where
  loads : view.loads = retries
  reread : view.reread = none
  spoiled : view.spoiled = false
  concluded : view.concluded = false
  first : retries = 0 → view.owes = false

/-- The view in which an attempt ends: one that neither retries nor was spoiled owes
nothing. -/
structure Ended (view : View) (finish : TaskEnd) : Prop where
  settled : view.owes → view.spoiled = false →
    ∃ retries countdown, finish = .retry retries countdown
  again : ∀ retries countdown, finish = .retry retries countdown → view.Ready retries

theorem ready_zero : ({} : View).Ready 0 := ⟨rfl, rfl, rfl, rfl, fun _ => rfl⟩

/-! ## One operation -/

section Track

variable {settings job} {view : View}

@[simp] theorem track_now (time : Time) :
    view.track settings job ⟨.now, time⟩ = { view with checked := some time } := rfl

@[simp] theorem track_monotonic (time : Time) :
    view.track settings job ⟨.monotonic, time⟩ = view := rfl

@[simp] theorem track_setHalfOpen (won : Bool) :
    view.track settings job ⟨.setHalfOpen, won⟩ = { view with owes := view.owes || won } := rfl

@[simp] theorem track_resetCircuit (answer : Unit) :
    view.track settings job ⟨.resetCircuit, answer⟩ =
      { view with owes := false, concluded := true } := rfl

@[simp] theorem track_openCircuit (openedAt : Time) (answer : Unit) :
    view.track settings job ⟨.openCircuit openedAt, answer⟩ =
      { view with owes := false, concluded := true } := rfl

@[simp] theorem track_incrementFailures (answer : Unit) :
    view.track settings job ⟨.incrementFailures, answer⟩ = view := rfl

@[simp] theorem track_createAttempt (attempt : WebhookDeliveryAttempt) (answer : Unit) :
    view.track settings job ⟨.createAttempt attempt, answer⟩ = view := rfl

@[simp] theorem track_sendSignal (metric : DeliveryMetric) (answer : Unit) :
    view.track settings job ⟨.sendSignal metric, answer⟩ = view := rfl

@[simp] theorem track_incr (name : String) (answer : Unit) :
    view.track settings job ⟨.incr name, answer⟩ = view := rfl

/-- The copy changes only when the row is loaded, and then to what was loaded. -/
theorem track_copy {ev : Event relay} {copy : WebhookEndpoint}
    (h : (view.track settings job ev).copy = some copy) :
    view.copy = some copy ∨ ev = ⟨.getEnabled, .ok (some copy)⟩ := by
  have hobserve : (view.track settings job ev).copy = (view.observe ev).copy := by
    rw [track]
    split <;> rfl
  rw [hobserve] at h
  unfold observe at h
  split at h
  · next row =>
    obtain rfl : row = .ok (some copy) := by
      cases row with
      | error e => cases h
      | ok row => exact congrArg Except.ok h
    exact .inr rfl
  all_goals exact .inl h

/-- A view gets spoiled by the answers that spoil it, and stays so. -/
theorem track_spoiled (ev : Event relay) :
    (view.track settings job ev).spoiled = (view.spoiled || view.spoils settings job ev) := by
  have hobserve : (view.observe ev).spoiled = view.spoiled := by
    unfold observe
    split <;> rfl
  rw [track]
  split
  · next h => simp [h]
  · next h => simp [h, hobserve]

/-- A trial is owed until the circuit is closed or opened. -/
theorem track_owes {op : Op} (hreset : op ≠ .resetCircuit)
    (hopen : ∀ openedAt, op ≠ .openCircuit openedAt) (answer : op.Answer) (h : view.owes) :
    (view.track settings job ⟨op, answer⟩).owes := by
  have hobserve : (view.observe ⟨op, answer⟩).owes := by
    cases op with
    | setHalfOpen => simp [observe, h]
    | resetCircuit => exact absurd rfl hreset
    | openCircuit openedAt => exact absurd rfl (hopen openedAt)
    | _ => exact h
  rw [track]
  split <;> exact hobserve

end Track

/-! ## The parts of an attempt

Every part is followed up to an arbitrary continuation, so that the parts compose. -/

variable {settings job} {view : View} {α β : Type} {post : View → β → Prop}

/-- Writing the audit row and the metrics leaves the view as it is. -/
theorem follows_recordThen {ctx : AttemptContext} {status : AttemptStatus}
    {details : AttemptDetails} (hwrite : (attemptRow ctx status details).writeError? = none)
    {rest : Delivery TaskEnd} {post : View → TaskEnd → Prop} (hopen : view.concluded = false)
    (hrest : rest.Follows (conduct settings job) post view) :
    (recordThen settings ctx status details rest).Follows (conduct settings job) post view := by
  rw [recordThen_eq hwrite]
  refine ⟨⟨hopen, trivial⟩, fun _ => ⟨⟨hopen, trivial⟩, fun _ => ?_⟩⟩
  simp only [conduct, track_createAttempt, track_sendSignal]
  split
  · exact ⟨⟨hopen, trivial⟩, fun _ => hrest⟩
  · exact hrest

/-- Building the request leaves the view as it is, except that an exception of the
secrets manager spoils it. -/
theorem follows_buildRequest (lib : Primitives) {endpoint : WebhookEndpoint}
    {correlationId : String} {payload : Payload} {f : Except PyError Request → Delivery β}
    (hopen : view.concluded = false)
    (hok : ∀ request, builds settings endpoint →
      (f (.ok request)).Follows (conduct settings job) post view)
    (hraise : ∀ e, builds settings endpoint = false →
      (f (.error e)).Follows (conduct settings job) post view)
    (hfail : ∀ e,
      (f (.error e)).Follows (conduct settings job) post { view with spoiled := true }) :
    (buildRequest lib settings endpoint correlationId payload >>= f).Follows
      (conduct settings job) post view := by
  cases hb : builds settings endpoint with
  | false =>
    obtain ⟨e, he⟩ := buildRequest_raises lib hb correlationId payload
    simpa [he] using hraise e hb
  | true =>
    have hasks := buildRequest_asks lib hb correlationId payload
    generalize buildRequest lib settings endpoint correlationId payload = p at hasks
    cases hasks with
    | ready request => exact hok request hb
    | ask secretId request =>
      refine ⟨⟨hopen, trivial⟩, fun answer => ?_⟩
      cases answer with
      | found secretString => exact hok _ hb
      | resourceNotFound => exact hok _ hb
      | failed => exact hfail _

/-- The view of an attempt that works with a copy of the row on a payload. -/
structure Working (settings : Settings) (job : Job) (view : View) (retries : Nat)
    (endpoint : WebhookEndpoint) (payload : Payload) : Prop where
  loads : view.loads = retries + 1
  copy : ∃ loaded, view.copy = some loaded ∧
    (endpoint = loaded ∨ endpoint = loaded.halfOpened) ∧
      shapeAndCheck (job.rawPayload retries) loaded = .ok (payload, true)
  reread : view.reread = none
  spoiled : view.spoiled = !builds settings endpoint
  concluded : view.concluded = false

namespace Working

variable {retries : Nat} {endpoint : WebhookEndpoint} {payload : Payload}

/-- The copy that the attempt works with has the threshold that was loaded. -/
theorem threshold (h : view.Working settings job retries endpoint payload) :
    ∃ loaded, view.copy = some loaded ∧
      loaded.circuitBreakerFailureThreshold = endpoint.circuitBreakerFailureThreshold := by
  obtain ⟨loaded, hcopy, rfl | rfl, -⟩ := h.copy
  · exact ⟨_, hcopy, rfl⟩
  · exact ⟨_, hcopy, rfl⟩

/-- An outcome spoils the view if its exhausted row cannot be written. -/
theorem unrecords (h : view.Working settings job retries endpoint payload)
    (outcome : PostOutcome) : view.unrecords job outcome =
      (verdict endpoint.maxRetries retries (exhaustionError endpoint payload)
        outcome).isUnrecorded := by
  obtain ⟨loaded, hcopy, hendpoint, hshape⟩ := h.copy
  have herror : recordError job retries loaded = exhaustionError endpoint payload := by
    rw [recordError_eq hshape]
    rcases hendpoint with rfl | rfl <;> rfl
  have hretries : endpoint.maxRetries = loaded.maxRetries := by
    rcases hendpoint with rfl | rfl <;> rfl
  simp [View.unrecords, hcopy, h.loads, herror, hretries]

end Working

section Outcome

variable {retries : Nat} {ctx : AttemptContext} {payload : Payload}

/-- A counted failure opens the circuit or, below the threshold, spoils the view. -/
theorem follows_recordCircuitFailure {endpoint : WebhookEndpoint}
    (h : view.Working settings job retries endpoint payload) :
    (endpoint.recordCircuitFailure >>= fun _ => return .returned).Follows
      (conduct settings job) Ended view := by
  obtain ⟨loaded, hcopy, hthreshold⟩ := h.threshold
  rw [WebhookEndpoint.recordCircuitFailure_bind]
  refine ⟨⟨h.concluded, trivial⟩, fun _ => ⟨⟨h.concluded, trivial⟩, fun (failures : Nat) => ?_⟩⟩
  simp only [conduct, track_incrementFailures]
  by_cases hreach : endpoint.circuitBreakerFailureThreshold ≤ failures
  · have hview : view.track settings job ⟨.refreshFailures, failures⟩ =
        { view with reread := some failures } := by
      have hnot : ¬ failures < loaded.circuitBreakerFailureThreshold := by omega
      simp [track, observe, spoils, hcopy, hnot]
    rw [hview, if_pos hreach]
    refine ⟨⟨h.concluded, trivial⟩, fun time => ⟨⟨h.concluded, loaded, failures, hcopy, rfl,
      by omega⟩, fun _ => ?_⟩⟩
    exact ⟨by simp, by simp⟩
  · have hview : view.track settings job ⟨.refreshFailures, failures⟩ =
        { view with reread := some failures, spoiled := true } := by
      have hbelow : failures < loaded.circuitBreakerFailureThreshold := by omega
      simp [track, observe, spoils, hcopy, hbelow]
    rw [hview, if_neg hreach]
    exact ⟨by simp, by simp⟩

/-- A recorded success closes the circuit. -/
theorem follows_recordCircuitSuccess {endpoint : WebhookEndpoint}
    (h : view.Working settings job retries endpoint payload) :
    (endpoint.recordCircuitSuccess >>= fun _ => return .returned).Follows
      (conduct settings job) Ended view := by
  rw [WebhookEndpoint.recordCircuitSuccess_bind]
  exact ⟨⟨h.concluded, h.reread⟩, fun _ => ⟨by simp [conduct], by simp⟩⟩

/-- What an outcome with nothing left to try makes of the view. -/
def afterLast (view : View) : Option PyError → View
  | none => view
  | some _ => { view with spoiled := true }

/-- An exhausted attempt counts its failure, or its view is spoiled because the row cannot be
written. -/
theorem follows_exhausted (h : view.Working settings job retries ctx.endpoint payload)
    {details : AttemptDetails} (hpayload : details.payload = some payload) :
    (recordThen settings ctx .exhausted details do
        let _ ← ctx.endpoint.recordCircuitFailure
        return .returned).Follows (conduct settings job) Ended
      (view.afterLast (exhaustionError ctx.endpoint payload)) := by
  have hwrite := writeError?_exhausted ctx hpayload
  cases herror : exhaustionError ctx.endpoint payload with
  | none =>
    exact follows_recordThen (hwrite.trans herror) h.concluded (follows_recordCircuitFailure h)
  | some e =>
    rw [recordThen_raises (hwrite.trans herror)]
    exact ⟨by simp [afterLast], by simp⟩

theorem follows_failOrRetry (h : view.Working settings job retries ctx.endpoint payload)
    (hbuilds : builds settings ctx.endpoint) (hnumber : ctx.attemptNumber = retries + 1)
    (exc : PyError) {details : AttemptDetails} (hpayload : details.payload = some payload) :
    (failOrRetry settings ctx retries exc details).Follows (conduct settings job) Ended
      (if retries + 1 < ctx.endpoint.maxRetries then view
        else view.afterLast (exhaustionError ctx.endpoint payload)) := by
  rw [failOrRetry, hnumber]
  by_cases hretry : retries + 1 < ctx.endpoint.maxRetries
  · have hwithin : ¬ retries + 1 > ctx.endpoint.maxRetries := by omega
    have hready : view.Ready (retries + 1) :=
      ⟨h.loads, h.reread, by simp [h.spoiled, hbuilds], h.concluded, by simp⟩
    rw [if_pos hretry, if_pos hretry]
    refine follows_recordThen (writeError?_attemptRow (by simp)) h.concluded ?_
    simp only [taskRetry, if_neg hwithin]
    exact ⟨fun _ _ => ⟨_, _, rfl⟩, by rintro _ _ ⟨⟩; exact hready⟩
  · rw [if_neg hretry, if_neg hretry]
    exact follows_exhausted h hpayload

/-- What an outcome that the task handles makes of the view. -/
theorem track_post (h : view.Working settings job retries ctx.endpoint payload)
    {request : Request} {outcome : PostOutcome} (hhandled : outcome.handled) :
    view.track settings job ⟨.post request, outcome⟩ =
      if outcome.retryable then
        if retries + 1 < ctx.endpoint.maxRetries then view
        else view.afterLast (exhaustionError ctx.endpoint payload)
      else if outcome.succeeded then view
      else view.afterLast (exhaustionError ctx.endpoint payload) := by
  have htrack : view.track settings job ⟨.post request, outcome⟩ =
      if view.unrecords job outcome then { view with spoiled := true } else view := by
    simp [track, spoils, observe, hhandled]
  rw [htrack, h.unrecords, verdict]
  have hlast : (if (Verdict.exhaustedUnless (exhaustionError ctx.endpoint payload)).isUnrecorded
      then { view with spoiled := true } else view) =
        view.afterLast (exhaustionError ctx.endpoint payload) := by
    cases exhaustionError ctx.endpoint payload <;> rfl
  split
  · split
    · rfl
    · exact hlast
  · split
    · rfl
    · exact hlast

theorem follows_conclude {start : Time}
    (h : view.Working settings job retries ctx.endpoint payload)
    (hbuilds : builds settings ctx.endpoint) (hnumber : ctx.attemptNumber = retries + 1)
    {request : Request} (outcome : PostOutcome) :
    (conclude settings ctx retries payload start outcome).Follows (conduct settings job) Ended
      (view.track settings job ⟨.post request, outcome⟩) := by
  cases hhandled : outcome.handled with
  | false =>
    obtain ⟨message, rfl⟩ : ∃ message, outcome = .otherException message := by
      cases outcome <;> simp_all [PostOutcome.handled]
    exact ⟨by simp [track, spoils, hhandled], by simp⟩
  | true =>
    obtain ⟨exc, details, hdetails, htree⟩ :=
      conclude_handled settings ctx retries payload start hhandled
    have hopen : (view.track settings job ⟨.post request, outcome⟩).concluded = false := by
      rw [track_post h hhandled]
      repeat' split
      all_goals first | exact h.concluded | skip
      all_goals cases exhaustionError ctx.endpoint payload <;> exact h.concluded
    rw [htree]
    refine ⟨⟨hopen, trivial⟩, fun stop => ?_⟩
    simp only [conduct, track_monotonic]
    rw [track_post h hhandled]
    by_cases hretryable : outcome.retryable
    · have hfailed : outcome.succeeded = false :=
        Bool.eq_false_iff.mpr fun h => by
          simp [PostOutcome.not_retryable_of_succeeded h] at hretryable
      rw [if_pos hretryable, if_pos hretryable]
      exact follows_failOrRetry h hbuilds hnumber exc (hdetails hfailed stop)
    · rw [if_neg hretryable, if_neg hretryable]
      by_cases hsucceeded : outcome.succeeded
      · rw [if_pos hsucceeded, if_pos hsucceeded]
        exact follows_recordThen (writeError?_attemptRow (by simp)) h.concluded
          (follows_recordCircuitSuccess h)
      · rw [if_neg hsucceeded, if_neg hsucceeded]
        exact follows_exhausted h (hdetails (Bool.eq_false_iff.mpr hsucceeded) stop)

/-- The attempt from the request on. -/
theorem follows_sendAttempt (lib : Primitives)
    (h : view.Working settings job retries ctx.endpoint payload)
    (hnumber : ctx.attemptNumber = retries + 1) :
    (sendAttempt lib settings ctx retries payload).Follows (conduct settings job) Ended view := by
  refine follows_buildRequest lib h.concluded (fun request hbuilds => ?_) (fun e hraises => ?_)
    fun e => ⟨by simp, by simp⟩
  · exact ⟨⟨h.concluded, trivial⟩, fun start => ⟨⟨h.concluded, trivial⟩, fun outcome =>
      follows_conclude h hbuilds hnumber outcome⟩⟩
  · exact ⟨by simp [h.spoiled, hraises], by simp⟩

end Outcome

/-- The breaker check of a first attempt: a refusal owes nothing, and an attempt that is let
through works with the copy it loaded. -/
theorem follows_tryAcquire {endpoint : WebhookEndpoint} {payload : Payload}
    {f : Bool × WebhookEndpoint → Delivery TaskEnd}
    (h : view.Working settings job 0 endpoint payload) (hcopy : view.copy = some endpoint)
    (howes : view.owes = false)
    (hrefused : ∀ view', view'.concluded = false → view'.owes = false →
      (f (false, endpoint)).Follows (conduct settings job) Ended view')
    (hlet : ∀ view' copy, view'.Working settings job 0 copy payload →
      (f (true, copy)).Follows (conduct settings job) Ended view') :
    (endpoint.tryAcquireDeliverySlot >>= f).Follows (conduct settings job) Ended view := by
  rw [WebhookEndpoint.tryAcquireDeliverySlot_bind]
  split
  · exact hlet view endpoint h
  split
  · exact hrefused view h.concluded howes
  split
  · exact hlet view endpoint h
  · next openedAt hopenedAt =>
    refine ⟨⟨h.concluded, trivial⟩, fun (time : Time) => ?_⟩
    simp only [conduct, track_now]
    split
    · exact hrefused _ h.concluded howes
    · next helapsed =>
      have hspoiled : builds settings endpoint → view.spoiled = false := fun hb => by
        simp [h.spoiled, hb]
      refine ⟨⟨h.concluded, endpoint, openedAt, time, hcopy, hopenedAt, rfl,
        Int.not_lt.mp helapsed, hspoiled⟩, fun (won : Bool) => ?_⟩
      simp only [track_setHalfOpen]
      cases won with
      | true =>
        obtain ⟨loaded, hloaded, -, hshape⟩ := h.copy
        obtain rfl : endpoint = loaded := Option.some.inj (hcopy.symm.trans hloaded)
        exact hlet _ _ ⟨h.loads, ⟨endpoint, hcopy, .inr rfl, hshape⟩, h.reread, h.spoiled,
          h.concluded⟩
      | false => exact hrefused _ h.concluded (by simp [howes])

/-! ## Every attempt -/

/-- Each attempt of a chain keeps to the rule. -/
theorem follows_deliverWebhook (lib : Primitives) {retries : Nat} (h : view.Ready retries) :
    (deliverWebhook lib settings job retries).Follows (conduct settings job) Ended view := by
  simp only [deliverWebhook, Delivery.getEnabled, call_bind, ret_bind]
  refine ⟨⟨h.concluded, h.reread⟩, fun answer => ?_⟩
  simp only [conduct]
  cases answer with
  | error e => exact ⟨by simp [track, spoils], by simp⟩
  | ok row =>
  cases row with
  | none => exact ⟨by simp [track, spoils], by simp⟩
  | some endpoint =>
    simp only
    cases hshape : shapeAndCheck (job.rawPayload retries) endpoint with
    | error e =>
      exact ⟨by simp [track, spoils, deliverable, passes, h.loads, hshape], by simp⟩
    | ok shaped =>
      obtain ⟨payload, shouldSend⟩ := shaped
      have hview : view.track settings job ⟨.getEnabled, .ok (some endpoint)⟩ =
          { view with
            loads := retries + 1, copy := some endpoint, checked := none
            spoiled := !(shouldSend && builds settings endpoint) } := by
        cases hs : shouldSend <;> cases hb : builds settings endpoint <;>
          simp [track, observe, spoils, deliverable, passes, h.loads, h.spoiled, hshape, hs, hb,
            Except.toOption]
      rw [hview]
      cases shouldSend with
      | false =>
        exact follows_recordThen (writeError?_attemptRow (by simp)) h.concluded
          ⟨by simp, by simp⟩
      | true =>
        have hworking : View.Working settings job
            { view with
              loads := retries + 1, copy := some endpoint, checked := none
              spoiled := !(true && builds settings endpoint) } retries endpoint payload :=
          ⟨rfl, ⟨endpoint, rfl, .inl rfl, hshape⟩, h.reread, by simp, h.concluded⟩
        simp only [Bool.not_true, Bool.false_eq_true, if_false, gate]
        split
        · next hfirst =>
          obtain rfl : retries = 0 := by omega
          refine follows_tryAcquire hworking rfl (h.first rfl) ?_ ?_
          · intro view' hopen howes
            exact follows_recordThen (writeError?_attemptRow (by simp)) hopen
              ⟨by simp [howes], by simp⟩
          · exact fun view' copy hcopy => follows_sendAttempt lib hcopy rfl
        · exact follows_sendAttempt lib hworking rfl

end View

/-! ## Every interleaving -/

section Workers

variable {ι : Type} [DecidableEq ι] {lib : Primitives} {settings : Settings} {jobs : ι → Job}

/-- The view of a chain in a log. -/
def viewOf (settings : Settings) (jobs : ι → Job) (i : ι) (log : List (ι × Event relay)) : View :=
  System.ghost (View.conduct settings (jobs i)) {} i log

@[simp] theorem viewOf_snoc (i j : ι) (log : List (ι × Event relay)) (ev : Event relay) :
    viewOf settings jobs i (log ++ [(j, ev)]) =
      if j = i then (viewOf settings jobs i log).track settings (jobs i) ev
      else viewOf settings jobs i log := by
  simp [viewOf, View.conduct]

variable {G : Config relay ι Store TaskEnd → Label Outside Disturbance ι → Prop} {s : Store}
  {c : Config relay ι Store TaskEnd}

/-- Every chain keeps to the rule in every interleaving. -/
theorem workers_follow (h : (workers lib settings jobs).Reaches G (launch lib settings jobs s) c)
    (i : ι) : (c.program i).Follows (View.conduct settings (jobs i)) View.Ended
      (viewOf settings jobs i c.log) := by
  refine h.follows (l := fun _ => {}) rfl (fun j => View.follows_deliverWebhook lib
    View.ready_zero) (fun j view value p hended hlaunch => ?_) i
  cases value with
  | retry retries countdown =>
    obtain rfl := Option.some.inj hlaunch
    exact View.follows_deliverWebhook lib (hended.again retries countdown rfl)
  | _ => cases hlaunch

/-- An operation is performed only in a view that permits it. -/
theorem permitted (h : (workers lib settings jobs).Reaches G (launch lib settings jobs s) c)
    {i : ι} {op : Op} {rest : op.Answer → Delivery TaskEnd} (hp : c.program i = .call op rest) :
    (viewOf settings jobs i c.log).permits settings op := by
  have hf := workers_follow h i
  rw [hp] at hf
  exact hf.1

/-- A chain ends only in a view in which it may. -/
theorem ended (h : (workers lib settings jobs).Reaches G (launch lib settings jobs s) c)
    {i : ι} {finish : TaskEnd} (hp : c.program i = .ret finish) :
    (viewOf settings jobs i c.log).Ended finish := by
  have hf := workers_follow h i
  rw [hp] at hf
  exact hf

/-! ## The configuration of the endpoint -/

/-- A part of the row that no operation of a delivery writes. -/
structure Unwritten {β : Type} (part : WebhookEndpoint → β) : Prop where
  halfOpened : ∀ row, part row.halfOpened = part row
  reset : ∀ row, part row.reset = part row
  counting : ∀ row failures, part (row.counting failures) = part row
  opened : ∀ row openedAt, part (row.opened openedAt) = part row

theorem Unwritten.respond {β : Type} {part : WebhookEndpoint → β} (h : Unwritten part)
    (outside : Outside) (op : Op) (s : Store) :
    part (respond outside op s).2.endpoint = part s.endpoint := by
  cases op with
  | setHalfOpen =>
    rw [WebhookRelay.respond]
    split
    · exact h.halfOpened _
    · rfl
  | resetCircuit => exact h.reset _
  | incrementFailures => exact h.counting _ _
  | openCircuit openedAt => exact h.opened _ _
  | _ => rfl

/-- The row that is loaded is the stored one. -/
theorem respond_loads {outside : Outside} {op : Op} {s : Store} {copy : WebhookEndpoint}
    (h : (⟨op, (respond outside op s).1⟩ : Event relay) = ⟨.getEnabled, .ok (some copy)⟩) :
    copy = s.endpoint := by
  cases op with
  | getEnabled =>
    simp only [respond, Event.mk.injEq, heq_eq_eq, true_and] at h
    split at h
    · exact Option.some.inj (Outside.load_ok h)
    · cases h
  | _ => cases h

/-- What the environment does not edit either is the same in the row and in every loaded
copy throughout a run. -/
theorem configuration {β : Type} {part : WebhookEndpoint → β} (hpart : Unwritten part)
    (hedit : ∀ c a, G c (.environment a) → ∀ s, part (disturb a s).endpoint = part s.endpoint)
    (h : (workers lib settings jobs).Reaches G (launch lib settings jobs s) c) :
    part c.store.endpoint = part s.endpoint ∧
      ∀ i copy, (viewOf settings jobs i c.log).copy = some copy → part copy = part s.endpoint := by
  refine h.invariant (I := fun c => part c.store.endpoint = part s.endpoint ∧
    ∀ i copy, (viewOf settings jobs i c.log).copy = some copy → part copy = part s.endpoint)
    ⟨rfl, fun i copy hcopy => by cases hcopy⟩ ?_
  rintro c label d - ⟨hrow, hcopies⟩ hG hs
  cases label with
  | run i outside =>
    obtain ⟨op, rest, -, rfl⟩ := System.step_run.mp hs
    refine ⟨(hpart.respond outside op c.store).trans hrow, fun j copy hcopy => ?_⟩
    simp only [System.advance, viewOf_snoc] at hcopy
    by_cases hij : i = j
    · rw [if_pos hij] at hcopy
      rcases View.track_copy hcopy with hcopy | hload
      · exact hcopies j copy hcopy
      · exact (congrArg part (respond_loads hload)).trans hrow
    · rw [if_neg hij] at hcopy
      exact hcopies j copy hcopy
  | relaunch i =>
    obtain ⟨_, _, -, -, rfl⟩ := System.step_relaunch.mp hs
    exact ⟨hrow, hcopies⟩
  | environment a =>
    obtain rfl := System.step_environment.mp hs
    exact ⟨(hedit c a hG c.store).trans hrow, hcopies⟩

end Workers

end WebhookRelay
