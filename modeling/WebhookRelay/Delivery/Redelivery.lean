import WebhookRelay.Delivery.Noninterference
import WebhookRelay.Delivery.Selection

/-!
# Redelivering from the snapshot

The snapshot of an exhausted attempt is its shaped payload, and the admin action and the command
start a new delivery with it as the raw payload. That delivery shapes it again. Whether it sends
what the exhausted attempt sent can be told from the raw payload and the lists.

## Main results

* `attempt_accurate` — what the rows and requests of an attempt say about its shaped payload.
* `redelivery_reproduces_iff` — when a redelivery sends what the exhausted attempt did.
-/

namespace WebhookRelay

open Interleaving Program Dictionary Json

/-! ## What is requeued -/

/-- The delivery that a row is requeued as from its snapshot. -/
def WebhookDeliveryAttempt.requeue (attempt : WebhookDeliveryAttempt) : Option Enqueued :=
  if attempt.status = .exhausted then
    attempt.payloadSnapshot.map fun payload => attempt.enqueue (.obj payload.members)
  else none

theorem requeue_of_snapshot {attempt : WebhookDeliveryAttempt} {payload : Payload}
    (hstatus : attempt.status = .exhausted) (h : attempt.payloadSnapshot = some payload) :
    attempt.requeue = some (attempt.enqueue (.obj payload.members)) := by
  rw [WebhookDeliveryAttempt.requeue, if_pos hstatus, h, Option.map_some]

theorem requeue_eq_none {attempt : WebhookDeliveryAttempt} (hstatus : attempt.status = .exhausted)
    (h : attempt.payloadSnapshot = none) : attempt.requeue = none := by
  rw [WebhookDeliveryAttempt.requeue, if_pos hstatus, h, Option.map_none]

/-- What one round of the action adds. -/
theorem next_spec (done : Requeued) {attempt : WebhookDeliveryAttempt}
    (hstatus : attempt.status = .exhausted) :
    (done.next attempt).enqueued = done.enqueued ++ attempt.requeue.toList ∧
      (done.next attempt).requeued = done.requeued + attempt.requeue.toList.length ∧
      (done.next attempt).requeued + (done.next attempt).skippedNoSnapshot =
        done.requeued + done.skippedNoSnapshot + 1 := by
  rw [Requeued.next]
  cases h : attempt.payloadSnapshot with
  | none => simp [requeue_eq_none hstatus h, Nat.add_assoc]
  | some payload =>
    simp [requeue_of_snapshot hstatus h, WebhookDeliveryAttempt.snapshot, h]
    omega

/-- The action requeues every row on its own, and counts each as requeued or as skipped. -/
theorem requeueSelected_spec (queryset : List WebhookDeliveryAttempt) :
    let done := requeueSelected queryset
    done.enqueued = queryset.filterMap WebhookDeliveryAttempt.requeue ∧
      done.requeued = done.enqueued.length ∧
      done.requeued + done.skippedNoSnapshot =
        queryset.countP fun attempt => attempt.status = .exhausted := by
  have hloop : ∀ (rows : List WebhookDeliveryAttempt) (done : Requeued),
      (∀ attempt ∈ rows, attempt.status = .exhausted) →
      done.requeued = done.enqueued.length →
      (rows.foldl Requeued.next done).enqueued =
          done.enqueued ++ rows.filterMap WebhookDeliveryAttempt.requeue ∧
        (rows.foldl Requeued.next done).requeued =
          (rows.foldl Requeued.next done).enqueued.length ∧
        (rows.foldl Requeued.next done).requeued +
            (rows.foldl Requeued.next done).skippedNoSnapshot =
          done.requeued + done.skippedNoSnapshot + rows.length := by
    intro rows
    induction rows with
    | nil => simp
    | cons attempt rows ih =>
      intro done hrows hcount
      obtain ⟨hstatus, hrest⟩ := List.forall_mem_cons.mp hrows
      obtain ⟨henqueued, hrequeued, htotal⟩ := next_spec done hstatus
      obtain ⟨ih₁, ih₂, ih₃⟩ := ih (done.next attempt) hrest (by
        rw [hrequeued, henqueued, hcount, List.length_append])
      refine ⟨?_, ih₂, ?_⟩
      · rw [List.foldl_cons, ih₁, henqueued, List.append_assoc]
        cases hrequeue : attempt.requeue with
        | none => rw [List.filterMap_cons_none hrequeue]; rfl
        | some e => rw [List.filterMap_cons_some hrequeue]; rfl
      · rw [List.foldl_cons, ih₃, htotal, List.length_cons]
        omega
  obtain ⟨henqueued, hrequeued, htotal⟩ := hloop
    (queryset.filter fun attempt => attempt.status = .exhausted) {} (by simp) rfl
  refine ⟨henqueued.trans ?_, hrequeued, ?_⟩
  · rw [List.nil_append, List.filterMap_filter]
    refine List.filterMap_congr fun attempt _ => ?_
    by_cases hstatus : attempt.status = .exhausted <;>
      simp [WebhookDeliveryAttempt.requeue, hstatus]
  · rw [List.countP_eq_length_filter]
    exact htotal.trans (Nat.zero_add _)

theorem requeue_matching {options : RedeliverOptions} {attempts : List WebhookDeliveryAttempt}
    (h : ∀ attempt ∈ matchingAttempts options attempts, attempt.payloadSnapshot.isSome) :
    (matchingAttempts options attempts).map (fun attempt => attempt.enqueue attempt.snapshot) =
      (matchingAttempts options attempts).filterMap WebhookDeliveryAttempt.requeue := by
  rw [← List.filterMap_eq_map]
  refine List.filterMap_congr fun attempt hattempt => ?_
  have hstatus : attempt.status = .exhausted := by
    simp only [matchingAttempts, List.mem_reverse, List.mem_filter, Bool.and_eq_true] at hattempt
    exact of_decide_eq_true hattempt.2.1.1
  obtain ⟨payload, hpayload⟩ := Option.isSome_iff_exists.mp (h attempt hattempt)
  rw [requeue_of_snapshot hstatus hpayload]
  simp [WebhookDeliveryAttempt.snapshot, hpayload]

/-- Without a payload file the command requeues every row that it matches on its own, unless it
is a dry run or one of them has no snapshot. -/
theorem redeliverFailedWebhooks_spec (load : String → Except RedeliverError (Option Json))
    {options : RedeliverOptions} (hvalid : options.valid = true)
    (hfile : options.payloadFile = "") (attempts : List WebhookDeliveryAttempt) :
    let qs := matchingAttempts options attempts
    redeliverFailedWebhooks load options attempts =
      if !options.requeue then .ok []
      else if ∀ attempt ∈ qs, attempt.payloadSnapshot.isSome then
        .ok (qs.filterMap WebhookDeliveryAttempt.requeue)
      else .error (.commandError (missingPayloadMessage
        (qs.countP fun attempt => attempt.payloadSnapshot.isNone))) := by
  intro qs
  cases hrequeue : options.requeue with
  | false => exact redeliver_dry_run hvalid hrequeue
  | true =>
    have hnone : (∃ attempt ∈ qs, attempt.payloadSnapshot = none) ↔
        ¬ ∀ attempt ∈ qs, attempt.payloadSnapshot.isSome := by
      simp
    have hpayload : explicitPayload load options = .ok none := if_neg (not_not_intro hfile)
    rw [redeliver_of_payload hvalid hrequeue hpayload, enqueueAll]
    simp only [true_and, Option.getD_none, Bool.not_true, Bool.false_eq_true, if_false]
    by_cases hsome : ∀ attempt ∈ qs, attempt.payloadSnapshot.isSome
    · rw [if_neg (hnone.not.mpr (not_not_intro hsome)), if_pos hsome, ← requeue_matching hsome]
    · rw [if_pos (hnone.mpr hsome), if_neg hsome]

/-! ## What an attempt tells about its shaped payload -/

section Attempt

variable {lib : Primitives} {settings : Settings} {job : Job} {k : Nat} {outside : Outside}
  {s : Store}

/-- A store whose endpoint fits is answered alike to both sides and still has one that fits. -/
theorem respects_fitting {fits : WebhookEndpoint → Prop} {accurate : WebhookDeliveryAttempt → Prop}
    {requests : Request → Prop}
    (hfits : ∀ endpoint state failures openedAt, fits endpoint → fits
      { endpoint with
        circuitState := state, consecutiveFailures := failures, circuitOpenedAt := openedAt }) :
    Lockstep.Respects (Coupled fits (fun row row' => row = row' ∧ accurate row) requests)
      (fun s t => s = t ∧ fits s.endpoint) database database outside outside := by
  rintro op op' answers s _ hop ⟨rfl, h⟩
  cases hop with
  | load =>
    refine ⟨⟨rfl, fun found hfound => ?_⟩, rfl, h⟩
    simp only [database, respond] at hfound
    split at hfound
    · obtain rfl := Option.some.inj (Outside.load_ok hfound).symm
      exact h
    · cases hfound
  | row hrow =>
    obtain ⟨rfl, -⟩ := hrow
    exact ⟨trivial, rfl, h⟩
  | request _ => exact ⟨rfl, rfl, h⟩
  | @quiet op _ =>
    refine ⟨rfl, rfl, ?_⟩
    cases op with
    | setHalfOpen =>
      change fits (if _ then _ else _ : Bool × Store).2.endpoint
      split
      · exact hfits _ _ _ _ h
      · exact h
    | resetCircuit | incrementFailures | openCircuit _ => exact hfits _ _ _ _ h
    | _ => exact h

/-- What a payload that is shaped alike to itself says about rows and requests holds of those of
the attempt. -/
theorem attempt_spec (fits : WebhookEndpoint → Prop) (accurate : WebhookDeliveryAttempt → Prop)
    (requests : Request → Prop)
    (hfits : ∀ endpoint state failures openedAt, fits endpoint → fits
      { endpoint with
        circuitState := state, consecutiveFailures := failures, circuitOpenedAt := openedAt })
    (hshaped : ∀ endpoint, fits endpoint → ShapedAlike lib
      (fun row row' => row = row' ∧ accurate row) requests endpoint (job.rawPayload k)
      (job.rawPayload k)) (h : fits s.endpoint) :
    let run := (deliverWebhook lib settings job k).exec database outside s
    (∀ row ∈ rowsOf run.events, accurate row) ∧ ∀ request ∈ requestsOf run.events,
      requests request := by
  intro run
  obtain ⟨-, -, hevents⟩ := (lockstep_deliverWebhook lib settings rfl rfl k hshaped).exec
    (respects_fitting hfits) (⟨rfl, h⟩ : s = s ∧ fits s.endpoint)
  have hevents := List.forall₂_same.mp hevents
  constructor
  · intro row hrow
    obtain ⟨⟨op, answer⟩, hev, rfl⟩ := mem_rowsOf hrow
    obtain ⟨answers, hop, -⟩ := hevents _ hev
    cases hop with
    | row hrow => exact hrow.2
    | quiet hquiet => cases hquiet
  · intro request hrequest
    obtain ⟨⟨op, answer⟩, hev, rfl⟩ := mem_requestsOf hrequest
    obtain ⟨answers, hop, -⟩ := hevents _ hev
    cases hop with
    | request hrequest => exact hrequest
    | quiet hquiet => cases hquiet

/-- The row of an attempt with this shaped payload: it has the fingerprint, is skipped exactly if
the filter holds the payload back, and keeps it if it is exhausted and the endpoint asks for
it. -/
structure Accurate (lib : Primitives) (shaped : Payload) (retain shouldSend : Bool)
    (row : WebhookDeliveryAttempt) : Prop where
  fingerprint : row.payloadFingerprint = payloadFingerprint lib shaped
  skipped : row.status = .skipped ↔ shouldSend = false
  snapshot : row.status = .exhausted →
    row.payloadSnapshot = if retain then some shaped else none

/-- The rows and requests of an attempt are those of its shaped payload. -/
theorem attempt_accurate (lib : Primitives) (settings : Settings) (outside : Outside)
    {shaped : Payload} {shouldSend : Bool}
    (hshape : shapeAndCheck (job.rawPayload k) s.endpoint = .ok (shaped, shouldSend)) :
    let run := (deliverWebhook lib settings job k).exec database outside s
    (∀ row ∈ rowsOf run.events,
        Accurate lib shaped s.endpoint.retainPayloadSnapshot shouldSend row) ∧
      ∀ request ∈ requestsOf run.events, request.data = serializePayload lib shaped := by
  refine attempt_spec
    (fun endpoint => shapeAndCheck (job.rawPayload k) endpoint = .ok (shaped, shouldSend) ∧
      endpoint.retainPayloadSnapshot = s.endpoint.retainPayloadSnapshot)
    (Accurate lib shaped s.endpoint.retainPayloadSnapshot shouldSend)
    (fun request => request.data = serializePayload lib shaped)
    (fun endpoint state failures openedAt h => h) (fun endpoint h => ?_) ⟨hshape, rfl⟩
  refine .shaped h.1 h.1 rfl ⟨fun ctx status details hfingerprint hnot hskipped => ⟨rfl, ?_⟩,
    fun ctx details hfingerprint hretain hsend => ⟨rfl, ?_⟩, rfl⟩ fun _ hdata => hdata
  · exact ⟨hfingerprint, hskipped, fun hexhausted => absurd hexhausted hnot⟩
  · refine ⟨hfingerprint, iff_of_false nofun (by simp [hsend]), fun _ => ?_⟩
    simp [attemptRow, hretain, h.2]

/-- An attempt that cannot shape its payload leaves no row. -/
theorem shapes_of_row {row : WebhookDeliveryAttempt}
    (hrow : row ∈ rowsOf ((deliverWebhook lib settings job k).exec database outside s).events) :
    ∃ shaped shouldSend,
      shapeAndCheck (job.rawPayload k) s.endpoint = .ok (shaped, shouldSend) := by
  cases hshape : shapeAndCheck (job.rawPayload k) s.endpoint with
  | ok result => exact ⟨result.1, result.2, rfl⟩
  | error e =>
    exact ((attempt_spec (fun endpoint => shapeAndCheck (job.rawPayload k) endpoint = .error e)
      (fun _ => False) (fun _ => False) (fun endpoint state failures openedAt h => h)
      (fun endpoint h => .raised h h) hshape).1 row hrow).elim

end Attempt

/-! ## Redelivery -/

/-- A requeue of the row, by the action or by the command without a payload file, starts the
delivery. Rows that are requeued together are requeued like this each. -/
inductive RequeuedAs (row : WebhookDeliveryAttempt) (e : Enqueued) : Prop where
  | action : e ∈ (requeueSelected [row]).enqueued → RequeuedAs row e
  | command {load : String → Except RedeliverError (Option Json)} {options : RedeliverOptions}
      {enqueued : List Enqueued} : options.payloadFile = "" →
      redeliverFailedWebhooks load options [row] = .ok enqueued → e ∈ enqueued → RequeuedAs row e

theorem requeue_of_requeuedAs {row : WebhookDeliveryAttempt} {e : Enqueued}
    (h : RequeuedAs row e) : row.requeue = some e := by
  have hmember : ∀ rows : List WebhookDeliveryAttempt, (∀ row' ∈ rows, row' = row) →
      e ∈ rows.filterMap WebhookDeliveryAttempt.requeue → row.requeue = some e := by
    intro rows hrows he
    obtain ⟨row', hrow', hrequeue⟩ := List.mem_filterMap.mp he
    rwa [hrows row' hrow'] at hrequeue
  cases h with
  | action he =>
    rw [(requeueSelected_spec [row]).1] at he
    exact hmember [row] (by simp) he
  | @command load options enqueued hfile henqueued he =>
    rw [redeliverFailedWebhooks_spec load (valid_of_ok henqueued) hfile] at henqueued
    split at henqueued
    · obtain rfl := Except.ok.inj henqueued
      cases he
    split at henqueued
    · obtain rfl := Except.ok.inj henqueued
      refine hmember _ (fun row' hrow' => ?_) he
      rw [matchingAttempts, List.mem_reverse] at hrow'
      exact List.mem_singleton.mp (List.mem_filter.mp hrow').1
    · cases henqueued

/-- The delivery is what a worker runs for what was enqueued. -/
structure Enqueued.Runs (e : Enqueued) (job : Job) : Prop where
  event : job.event = e.event
  correlationId : job.correlationId = e.correlationId
  rawPayload : obj (job.rawPayload 0).members = e.rawPayload

theorem Payload.eq_of_members {payload payload' : Payload}
    (h : payload.members = payload'.members) : payload = payload' := by
  obtain ⟨ms, hms⟩ := payload
  obtain ⟨ms', hms'⟩ := payload'
  cases h
  rfl

/-- What shaping a payload reads of the endpoint is unchanged. -/
structure Unedited (endpoint endpoint' : WebhookEndpoint) : Prop where
  piiAllowlist : endpoint'.piiAllowlist = endpoint.piiAllowlist
  piiDenylist : endpoint'.piiDenylist = endpoint.piiDenylist
  onlyOnPassing : endpoint'.onlyOnPassing = endpoint.onlyOnPassing

theorem Unedited.shapeAndCheck_eq {endpoint endpoint' : WebhookEndpoint}
    (h : Unedited endpoint endpoint') (payload : Payload) :
    shapeAndCheck payload endpoint' = shapeAndCheck payload endpoint := by
  rw [shapeAndCheck, shapeAndCheck, h.piiAllowlist, h.piiDenylist, h.onlyOnPassing]

/-- The first attempt of a delivery is not filtered out and shapes its payload to the given one,
so its rows have the fingerprint of the given row and its requests the bytes of the given
ones. -/
structure Reproduces (lib : Primitives) (settings : Settings) (endpoint : WebhookEndpoint)
    (job : Job) (shaped : Payload) (row : WebhookDeliveryAttempt) (requests : List Request) :
    Prop where
  shaped : ∃ again, shapeAndCheck (job.rawPayload 0) endpoint = .ok (again, true) ∧
    (obj again.members).Same (obj shaped.members)
  rows : ∀ outside s, s.endpoint = endpoint →
    ∀ row' ∈ rowsOf ((deliverWebhook lib settings job 0).exec database outside s).events,
      row'.status ≠ .skipped ∧ row'.payloadFingerprint = row.payloadFingerprint
  requests : ∀ outside s, s.endpoint = endpoint →
    ∀ request' ∈ requestsOf ((deliverWebhook lib settings job 0).exec database outside s).events,
      ∀ request ∈ requests, request'.data = request.data

/-- However the row of the attempt is requeued from its snapshot, the new delivery reproduces
the attempt. -/
def RedeliveryReproduces (lib : Primitives) (settings : Settings) (job : Job) (k : Nat)
    (outside : Outside) (s : Store) (row : WebhookDeliveryAttempt) : Prop :=
  ∃ shaped, shapeAndCheck (job.rawPayload k) s.endpoint = .ok (shaped, true) ∧
    ∀ e, RequeuedAs row e → ∀ job', e.Runs job' → ∀ endpoint', Unedited s.endpoint endpoint' →
      ∀ settings', Reproduces lib settings' endpoint' job' shaped row
        (requestsOf ((deliverWebhook lib settings job k).exec database outside s).events)

/-- The strings of a stored list. -/
def pathsOf (list : Json) : List String := (paths list).getD []

/-- Every attempt of a delivery is handed a payload that is as reproducible as the first. -/
theorem handed_reproducible {endpoint : WebhookEndpoint} {job : Job} (h : Handed endpoint job)
    {allow deny : List String} (hallow : paths endpoint.piiAllowlist = some allow)
    (hdeny : paths endpoint.piiDenylist = some deny) {dataKey : String}
    (hne : dataKey ≠ "event_metadata")
    (hkeys : ∀ key ∈ keys (job.rawPayload 0).members, key = dataKey ∨ key = "event_metadata")
    (onlyOnPassing : Bool) (k : Nat) :
    (∀ key ∈ keys (job.rawPayload k).members, key = dataKey ∨ key = "event_metadata") ∧
      (Reproducible (job.rawPayload k).members allow deny onlyOnPassing ↔
        Reproducible (job.rawPayload 0).members allow deny onlyOnPassing) := by
  induction k with
  | zero => exact ⟨hkeys, .rfl⟩
  | succ k ih =>
    obtain ⟨hone, hiff⟩ := ih
    rw [rawPayload_succ h hallow hdeny]
    exact ⟨keys_left_of_one hone allow deny, (reproducible_left hne hone allow deny _).trans hiff⟩

/-- A redelivery from the snapshot reproduces the exhausted attempt exactly if the raw payload of
the delivery is reproducible. -/
theorem redelivery_reproduces_iff (lib : Primitives) (settings : Settings) {job : Job} {s : Store}
    (hhanded : Handed s.endpoint job) (hretain : s.endpoint.retainPayloadSnapshot)
    {dataKey : String} (hne : dataKey ≠ "event_metadata")
    (hkeys : ∀ key ∈ keys (job.rawPayload 0).members, key = dataKey ∨ key = "event_metadata")
    (k : Nat) (outside : Outside) {row : WebhookDeliveryAttempt}
    (hrow : row ∈ rowsOf ((deliverWebhook lib settings job k).exec database outside s).events)
    (hstatus : row.status = .exhausted) :
    RedeliveryReproduces lib settings job k outside s row ↔
      Reproducible (job.rawPayload 0).members (pathsOf s.endpoint.piiAllowlist)
        (pathsOf s.endpoint.piiDenylist) s.endpoint.onlyOnPassing := by
  obtain ⟨shaped, shouldSend, hshape⟩ := shapes_of_row hrow
  obtain ⟨haccurate, hdata⟩ := attempt_accurate lib settings outside hshape
  obtain ⟨hfingerprint, hskipped, hsnapshot⟩ := haccurate row hrow
  obtain rfl : shouldSend = true := by
    rw [← Bool.not_eq_false, ← hskipped, hstatus]
    exact nofun
  have hrequeue : row.requeue = some (row.enqueue (obj shaped.members)) :=
    requeue_of_snapshot hstatus (by rw [hsnapshot hstatus, if_pos hretain])
  -- the loops over the lists ran through
  have hraises : ¬ (paths s.endpoint.piiAllowlist = none ∨ paths s.endpoint.piiDenylist = none) :=
    fun h => by
      obtain ⟨e, hraises⟩ := shapeAndCheck_raises h
      cases (hraises _).symm.trans hshape
  obtain ⟨hallow, hdeny⟩ := not_or.mp hraises
  obtain ⟨allow, hallow⟩ := Option.ne_none_iff_exists'.mp hallow
  obtain ⟨deny, hdeny⟩ := Option.ne_none_iff_exists'.mp hdeny
  obtain ⟨hone, hreproducible⟩ :=
    handed_reproducible hhanded hallow hdeny hne hkeys s.endpoint.onlyOnPassing k
  have hshape' := shapeAndCheck_paths (job.rawPayload k) hallow hdeny ▸ hshape
  have hiff := reshaped_iff (show (s.endpoint.withLists allow deny).piiAllowlist = _ from rfl)
    (show (s.endpoint.withLists allow deny).piiDenylist = _ from rfl) hne hone hshape'
  rw [← shapeAndCheck_paths shaped hallow hdeny] at hiff
  rw [pathsOf, pathsOf, hallow, hdeny, Option.getD_some, Option.getD_some, ← hreproducible]
  refine Iff.trans ⟨?_, ?_⟩ hiff
  · rintro ⟨shaped', hshaped', h⟩
    obtain rfl : shaped' = shaped := by
      rw [hshape] at hshaped'
      exact (Prod.mk.inj (Except.ok.inj hshaped')).1.symm
    have haction : RequeuedAs row (row.enqueue (obj shaped'.members)) :=
      .action (by rw [(requeueSelected_spec [row]).1, List.filterMap_cons_some hrequeue]; simp)
    have hruns : (row.enqueue (obj shaped'.members)).Runs
        { event := row.event
          correlationId := row.correlationId
          rawPayload := fun _ => shaped' } := ⟨rfl, rfl, rfl⟩
    exact (h _ haction _ hruns s.endpoint ⟨rfl, rfl, rfl⟩ settings).shaped
  · rintro ⟨again, hagain, hsame⟩
    refine ⟨shaped, hshape, fun e he job' hruns endpoint' hunedited settings' => ?_⟩
    obtain rfl := Option.some.inj (hrequeue.symm.trans (requeue_of_requeuedAs he))
    have hraw : job'.rawPayload 0 = shaped :=
      Payload.eq_of_members (Json.obj.inj hruns.rawPayload)
    have hagain' : shapeAndCheck (job'.rawPayload 0) endpoint' = .ok (again, true) := by
      rw [hunedited.shapeAndCheck_eq, hraw, hagain]
    have hbytes : serializePayload lib again = serializePayload lib shaped :=
      hsame.dumps_eq lib.floatRepr
    refine ⟨⟨again, hagain', hsame⟩, fun outside' s' hs' row' hrow' => ?_,
      fun outside' s' hs' request' hrequest' request hrequest => ?_⟩
    · subst hs'
      obtain ⟨hfingerprint', hskipped', -⟩ :=
        (attempt_accurate lib settings' outside' hagain').1 row' hrow'
      refine ⟨fun hskip => absurd (hskipped'.mp hskip) nofun, ?_⟩
      rw [hfingerprint', hfingerprint, payloadFingerprint, payloadFingerprint, hbytes]
    · subst hs'
      rw [(attempt_accurate lib settings' outside' hagain').2 request' hrequest', hbytes,
        hdata request hrequest]

/-- An endpoint that asks for the address and the metadata, must not have the address, and keeps
what it refuses. -/
def contraryEndpoint : WebhookEndpoint :=
  { newEndpoint with
    piiAllowlist := pathList ["data.user.email", "event_metadata"]
    piiDenylist := pathList ["data.user.email"]
    onlyOnPassing := false
    retainPayloadSnapshot := true }

/-- The learner is kept for the address, and the address is gone. -/
def hollowSnapshot : Payload where
  members := [("openedx_events.learning.data.CourseEnrollmentData", .obj [("user", .obj [])]),
    ("event_metadata", .obj [])]
  wellFormed := by
    have hempty : (obj []).WellFormed := .obj (by simp [keys]) (by simp)
    have hdata : (obj [("user", obj [])]).WellFormed :=
      .obj (by simp [keys]) (by simpa using hempty)
    refine .obj (by simp [keys]) ?_
    simpa using ⟨hdata, hempty⟩

/-- The row that the enrolment leaves when it is refused. -/
def refusedEnrolment : WebhookDeliveryAttempt where
  endpointId := 1
  event := emptyJob.event
  correlationId := emptyJob.correlationId
  attemptNumber := 1
  status := .exhausted
  httpStatusCode := some 400
  durationMs := some 0
  errorMessage := ""
  payloadFingerprint := "44136fa355b3678a"
  payloadSnapshot := some hollowSnapshot

theorem shapeAndCheck_enrolled :
    shapeAndCheck ((enrolledJob "ada@example.com").rawPayload 0) contraryEndpoint =
      .ok (hollowSnapshot, true) := rfl

/-- What its delivery records and sends. -/
theorem refused_enrolment :
    let run := (deliverWebhook emptyLib {} (enrolledJob "ada@example.com") 0).exec database
      { outcome := .response 400 "" } { endpoint := contraryEndpoint }
    rowsOf run.events = [refusedEnrolment] ∧
      (requestsOf run.events).map (fun request => request.data) =
        [serializePayload emptyLib hollowSnapshot] := by
  have hload : database { outcome := .response 400 "" } .getEnabled
      { endpoint := contraryEndpoint } =
        (.ok (some contraryEndpoint), { endpoint := contraryEndpoint }) := rfl
  have hcall : deliverWebhook emptyLib {} (enrolledJob "ada@example.com") 0 =
    .call .getEnabled _ := rfl
  rw [hcall, exec_call, hload]
  dsimp only [Program.bind]
  rw [shapeAndCheck_enrolled]
  exact ⟨rfl, rfl⟩

/-- The condition tells whether the redelivery sends what was refused. -/
theorem redelivery_reproduces_iff_enrolled :
    RedeliveryReproduces emptyLib {} (enrolledJob "ada@example.com") 0
        { outcome := .response 400 "" } { endpoint := contraryEndpoint } refusedEnrolment ↔
      Reproducible (enrolled "ada@example.com").members
        (pathsOf contraryEndpoint.piiAllowlist) (pathsOf contraryEndpoint.piiDenylist) false := by
  have hallow : contraryEndpoint.piiAllowlist =
    pathList ["data.user.email", "event_metadata"] := rfl
  have hdeny : contraryEndpoint.piiDenylist = pathList ["data.user.email"] := rfl
  have hrow : refusedEnrolment ∈ rowsOf
      ((deliverWebhook emptyLib {} (enrolledJob "ada@example.com") 0).exec database
        { outcome := .response 400 "" } { endpoint := contraryEndpoint }).events := by
    rw [refused_enrolment.1]
    exact List.mem_singleton.mpr rfl
  exact redelivery_reproduces_iff emptyLib {} (handed_enrolledJob hallow hdeny rfl) rfl
    (show "openedx_events.learning.data.CourseEnrollmentData" ≠ _ by decide) (by decide) 0 _ hrow
    rfl

/-- The snapshot is requeued, and the delivery sends only the metadata. -/
theorem hollow_snapshot_not_reproduced :
    let run := (deliverWebhook emptyLib {} (enrolledJob "ada@example.com") 0).exec database
      { outcome := .response 400 "" } { endpoint := contraryEndpoint }
    rowsOf run.events = [refusedEnrolment] ∧
      (requestsOf run.events).map (fun request => request.data) =
        ["\x7b\"event_metadata\":\x7b\x7d," ++
          "\"openedx_events.learning.data.CourseEnrollmentData\":\x7b\"user\":\x7b\x7d\x7d" ++
          "\x7d"] ∧
      (shapeAndCheck hollowSnapshot contraryEndpoint).map
          (fun result => (serializePayload emptyLib result.1, result.2)) =
        .ok ("\x7b\"event_metadata\":\x7b\x7d\x7d", true) ∧
      ¬ RedeliveryReproduces emptyLib {} (enrolledJob "ada@example.com") 0
        { outcome := .response 400 "" } { endpoint := contraryEndpoint } refusedEnrolment := by
  intro run
  refine ⟨refused_enrolment.1, refused_enrolment.2.trans (by decide +kernel),
    by decide +kernel, ?_⟩
  rintro ⟨shaped, hshape, h⟩
  have hshaped : shaped = hollowSnapshot :=
    (Prod.mk.inj (Except.ok.inj (hshape.symm.trans shapeAndCheck_enrolled))).1
  subst hshaped
  have hrequeued :
      RequeuedAs refusedEnrolment (refusedEnrolment.enqueue refusedEnrolment.snapshot) :=
    .action (List.mem_singleton.mpr rfl)
  have hruns : (refusedEnrolment.enqueue refusedEnrolment.snapshot).Runs
      { enrolledJob "ada@example.com" with rawPayload := fun _ => hollowSnapshot } :=
    ⟨rfl, rfl, rfl⟩
  obtain ⟨again, hagain, hsame⟩ :=
    (h _ hrequeued _ hruns contraryEndpoint ⟨rfl, rfl, rfl⟩ {}).shaped
  have hmembers : again.members = [("event_metadata", .obj [])] :=
    (Except.ok.inj (congrArg (fun result => result.map fun r => r.1.members) hagain)).symm
  have hrel := hsame.at? again.wellFormed hollowSnapshot.wellFormed
    ["openedx_events.learning.data.CourseEnrollmentData"]
  rw [hmembers] at hrel
  cases hrel

end WebhookRelay
