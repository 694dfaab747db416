import WebhookRelay.Delivery.Attempt
import WebhookRelay.Library.Lockstep

/-!
# Two attempts in lockstep

Apart from the rows it writes, an attempt depends on its raw payload only through the bytes of
the shaped one and the decision of the filter. So two attempts whose payloads are shaped to the
same bytes, with the same decision, perform the same operations, and their rows differ at most
in the snapshot, provided that both snapshots can be written or neither can.

## Main results

* `lockstep_deliverWebhook` — attempts that shape their payloads alike are in lockstep.
-/

namespace WebhookRelay

open Interleaving Program

/-- The operations that load no row, write none and send nothing. -/
def Op.quiet : Op → Bool
  | .getEnabled | .createAttempt _ | .post _ => false
  | _ => true

/-- The rule of a program that only performs such operations. -/
abbrev quietly : Discipline relay Unit := only fun op : Op => op.quiet

/-- Operations go together with themselves, rows with related rows. Both sides load the same
row, one that fits, and every request has a property. -/
inductive Coupled (fits : WebhookEndpoint → Prop)
    (rows : WebhookDeliveryAttempt → WebhookDeliveryAttempt → Prop)
    (requests : Request → Prop) : Coupling relay relay where
  | load : Coupled fits rows requests .getEnabled .getEnabled fun a b =>
      a = b ∧ ∀ endpoint, a = .ok (some endpoint) → fits endpoint
  | row {row row' : WebhookDeliveryAttempt} : rows row row' →
      Coupled fits rows requests (.createAttempt row) (.createAttempt row') fun _ _ => True
  | request {request : Request} : requests request →
      Coupled fits rows requests (.post request) (.post request) Eq
  | quiet {op : Op} : op.quiet → Coupled fits rows requests op op Eq

/-- The rows of attempts with these shaped payloads are related, and fail to be written alike;
those of an attempt that the filter holds back are skipped, and no others are. -/
structure RowsOf (rows : WebhookDeliveryAttempt → WebhookDeliveryAttempt → Prop)
    (fingerprint : String) (retain shouldSend : Bool) (payload payload' : Payload) : Prop where
  plain : ∀ (ctx : AttemptContext) status details, ctx.fingerprint = fingerprint →
    status ≠ .exhausted → (status = .skipped ↔ shouldSend = false) →
    rows (attemptRow ctx status details) (attemptRow ctx status details)
  exhausted : ∀ (ctx : AttemptContext) (details : AttemptDetails),
    ctx.fingerprint = fingerprint → ctx.endpoint.retainPayloadSnapshot = retain → shouldSend →
    rows (attemptRow ctx .exhausted { details with payload := some payload })
      (attemptRow ctx .exhausted { details with payload := some payload' })
  failure : payload'.writeError? = payload.writeError?

section Lockstep

variable {fits : WebhookEndpoint → Prop}
  {rows : WebhookDeliveryAttempt → WebhookDeliveryAttempt → Prop} {requests : Request → Prop}
  {settings : Settings} {fingerprint : String} {retain : Bool} {payload payload' : Payload}

/-! ## Quiet parts -/

theorem lockstep_quiet {α : Type} {p : Delivery α}
    (h : p.Follows quietly (fun _ _ => True) ()) :
    Lockstep (Coupled fits rows requests) Eq p p :=
  .of_follows (fun _ => .quiet) h

theorem quiet_recordCircuitFailure (endpoint : WebhookEndpoint) :
    endpoint.recordCircuitFailure.Follows quietly (fun _ _ => True) () := by
  refine ⟨rfl, fun _ => ⟨rfl, fun (failures : Nat) => ?_⟩⟩
  change Follows _ _ (if _ then _ else _) ()
  split
  · exact ⟨rfl, fun _ => ⟨rfl, fun _ => trivial⟩⟩
  · trivial

theorem quiet_effectiveSecret (settings : Settings) (endpoint : WebhookEndpoint) :
    (endpoint.effectiveSecret settings).Follows quietly
      (fun _ _ => True) () := by
  have hbackend : ∀ backend : SecretBackend, (backend.getSecret settings endpoint).Follows
      quietly (fun _ _ => True) () := by
    intro backend
    cases backend with
    | database => trivial
    | awsSecretsManager =>
      rw [SecretBackend.getSecret, awsGetSecret]
      split
      · trivial
      · split
        · trivial
        · refine ⟨rfl, fun answer => ?_⟩
          cases answer <;> trivial
  rw [WebhookEndpoint.effectiveSecret]
  split
  · trivial
  · next backend _ =>
    refine (hbackend backend).bind fun _ result _ => ?_
    cases result with
    | error e => trivial
    | ok secret =>
      dsimp only
      split <;> trivial

/-- The copy that the breaker check returns has the configuration of the row. -/
theorem lockstep_gate (endpoint : WebhookEndpoint) (attemptNumber : Nat) :
    Lockstep (Coupled fits rows requests) (fun a b => a = b ∧
        a.2.retainPayloadSnapshot = endpoint.retainPayloadSnapshot)
      (gate endpoint attemptNumber) (gate endpoint attemptNumber) := by
  unfold gate
  split
  · rw [← Program.bind_ret (WebhookEndpoint.tryAcquireDeliverySlot endpoint),
      WebhookEndpoint.tryAcquireDeliverySlot_bind]
    repeat' split
    · exact .ret ⟨rfl, rfl⟩
    · exact .ret ⟨rfl, rfl⟩
    · exact .ret ⟨rfl, rfl⟩
    · refine .call (.quiet rfl) fun time _ htime => ?_
      subst htime
      split
      · exact .ret ⟨rfl, rfl⟩
      · refine .call (.quiet rfl) fun won _ hwon => ?_
        subst hwon
        cases won <;> exact .ret ⟨rfl, rfl⟩
  · exact .ret ⟨rfl, rfl⟩

/-! ## Rows -/

/-- Related rows that fail to be written alike, with the same programs after them. -/
theorem lockstep_recordThen {ctx : AttemptContext} {status : AttemptStatus}
    {details details' : AttemptDetails} {rest : Delivery TaskEnd}
    (hrow : rows (attemptRow ctx status details) (attemptRow ctx status details'))
    (hfailure : (attemptRow ctx status details').writeError? =
      (attemptRow ctx status details).writeError?)
    (hcode : details'.httpStatusCode = details.httpStatusCode)
    (hrest : rest.Follows quietly (fun _ _ => True) ()) :
    Lockstep (Coupled fits rows requests) Eq (recordThen settings ctx status details rest)
      (recordThen settings ctx status details' rest) := by
  cases hwrite : (attemptRow ctx status details).writeError? with
  | some e =>
    rw [recordThen_raises hwrite, recordThen_raises (hfailure.trans hwrite)]
    exact .ret rfl
  | none =>
    rw [recordThen_eq hwrite, recordThen_eq (hfailure.trans hwrite), metricOf, metricOf, hcode]
    refine .call (.row hrow) fun _ _ _ => .call (.quiet rfl) fun _ _ _ => ?_
    split
    · exact .call (.quiet rfl) fun _ _ _ => lockstep_quiet hrest
    · exact lockstep_quiet hrest

/-- The same row, one without a snapshot. -/
theorem lockstep_plain {ctx : AttemptContext} {status : AttemptStatus}
    {details : AttemptDetails} {rest : Delivery TaskEnd}
    (hrow : rows (attemptRow ctx status details) (attemptRow ctx status details))
    (hrest : rest.Follows quietly (fun _ _ => True) ()) :
    Lockstep (Coupled fits rows requests) Eq (recordThen settings ctx status details rest)
      (recordThen settings ctx status details rest) :=
  lockstep_recordThen hrow rfl rfl hrest

section Rows

variable (hrows : RowsOf rows fingerprint retain true payload payload') (ctx : AttemptContext)
  (hfingerprint : ctx.fingerprint = fingerprint)
  (hretain : ctx.endpoint.retainPayloadSnapshot = retain)
include hrows hfingerprint hretain

theorem lockstep_exhausted (details : AttemptDetails) :
    Lockstep (Coupled fits rows requests) Eq
      (recordThen settings ctx .exhausted { details with payload := some payload }
        (ctx.endpoint.recordCircuitFailure >>= fun _ => .ret .returned))
      (recordThen settings ctx .exhausted { details with payload := some payload' }
        (ctx.endpoint.recordCircuitFailure >>= fun _ => .ret .returned)) := by
  refine lockstep_recordThen (hrows.exhausted ctx details hfingerprint hretain rfl) ?_ rfl
    ((quiet_recordCircuitFailure ctx.endpoint).bind fun _ _ _ => trivial)
  rw [writeError?_exhausted _ rfl, writeError?_exhausted _ rfl, exhaustionError, exhaustionError,
    hrows.failure]

theorem lockstep_failOrRetry (retries : Nat) (exc : PyError) (details : AttemptDetails) :
    Lockstep (Coupled fits rows requests) Eq
      (failOrRetry settings ctx retries exc { details with payload := some payload })
      (failOrRetry settings ctx retries exc { details with payload := some payload' }) := by
  unfold failOrRetry
  split
  · exact lockstep_plain (hrows.plain ctx .retrying _ hfingerprint nofun (by simp)) trivial
  · exact lockstep_exhausted hrows ctx hfingerprint hretain details

theorem lockstep_conclude (retries : Nat) (start : Time) (outcome : PostOutcome) :
    Lockstep (Coupled fits rows requests) Eq
      (conclude settings ctx retries payload start outcome)
      (conclude settings ctx retries payload' start outcome) := by
  have hfail : ∀ exc (details : AttemptDetails), Lockstep (Coupled fits rows requests) Eq
      (failOrRetry settings ctx retries exc { details with payload := some payload })
      (failOrRetry settings ctx retries exc { details with payload := some payload' }) :=
    lockstep_failOrRetry hrows ctx hfingerprint hretain retries
  cases outcome with
  | otherException message => exact .ret rfl
  | connectionError message | timeout message =>
    refine .call (.quiet rfl) fun stop _ hstop => ?_
    subst hstop
    exact hfail _ ⟨none, some _, message, none⟩
  | response statusCode text =>
    refine .call (.quiet rfl) fun stop _ hstop => ?_
    subst hstop
    dsimp only [Program.bind]
    split
    · exact hfail _ ⟨some statusCode, some _, slice 2000 text, none⟩
    split
    · exact lockstep_exhausted hrows ctx hfingerprint hretain
        ⟨some statusCode, some _, slice 2000 text, none⟩
    · exact lockstep_plain (hrows.plain ctx .succeeded _ hfingerprint nofun (by simp))
        ⟨rfl, fun _ => trivial⟩

end Rows

/-! ## Whole attempts -/

/-- A request is built from the bytes of the shaped payload. -/
theorem lockstep_buildRequest (lib : Primitives) (endpoint : WebhookEndpoint)
    (correlationId : String)
    (hbytes : serializePayload lib payload' = serializePayload lib payload) :
    Lockstep (Coupled fits rows requests)
      (fun a b => a = b ∧ ∀ request, a = .ok request → request.data = serializePayload lib payload)
      (buildRequest lib settings endpoint correlationId payload)
      (buildRequest lib settings endpoint correlationId payload') := by
  rw [buildRequest, buildRequest, hbytes]
  split
  · exact .ret ⟨rfl, by rintro _ ⟨⟩⟩
  · refine (lockstep_quiet (quiet_effectiveSecret settings endpoint)).bind ?_
    intro result _ hresult
    subst hresult
    cases result with
    | error e => exact .ret ⟨rfl, by rintro _ ⟨⟩⟩
    | ok secret =>
      refine .ret ⟨rfl, ?_⟩
      rintro request ⟨⟩
      rfl

theorem lockstep_sendAttempt (lib : Primitives)
    (hrows : RowsOf rows fingerprint retain true payload payload')
    (hbytes : serializePayload lib payload' = serializePayload lib payload)
    (hrequests : ∀ request : Request, request.data = serializePayload lib payload →
      requests request)
    (ctx : AttemptContext) (hfingerprint : ctx.fingerprint = fingerprint)
    (hretain : ctx.endpoint.retainPayloadSnapshot = retain) (retries : Nat) :
    Lockstep (Coupled fits rows requests) Eq (sendAttempt lib settings ctx retries payload)
      (sendAttempt lib settings ctx retries payload') := by
  unfold sendAttempt
  refine (lockstep_buildRequest lib ctx.endpoint ctx.correlationId hbytes).bind ?_
  rintro result _ ⟨rfl, hdata⟩
  cases result with
  | error e => exact .ret rfl
  | ok request =>
    refine .call (.quiet rfl) fun start _ hstart => ?_
    subst hstart
    refine .call (.request (hrequests request (hdata request rfl))) fun outcome _ houtcome => ?_
    subst houtcome
    exact lockstep_conclude hrows ctx hfingerprint hretain retries start outcome

/-- Two payloads are shaped for an endpoint to the same bytes, with the same decision and related
rows, or both raise the same exception. -/
inductive ShapedAlike (lib : Primitives)
    (rows : WebhookDeliveryAttempt → WebhookDeliveryAttempt → Prop) (requests : Request → Prop)
    (endpoint : WebhookEndpoint) (raw raw' : Payload) : Prop where
  | raised {e : PyError} : shapeAndCheck raw endpoint = .error e →
      shapeAndCheck raw' endpoint = .error e → ShapedAlike lib rows requests endpoint raw raw'
  | shaped {payload payload' : Payload} {shouldSend : Bool} :
      shapeAndCheck raw endpoint = .ok (payload, shouldSend) →
      shapeAndCheck raw' endpoint = .ok (payload', shouldSend) →
      serializePayload lib payload' = serializePayload lib payload →
      RowsOf rows (payloadFingerprint lib payload) endpoint.retainPayloadSnapshot shouldSend
        payload payload' →
      (∀ request : Request, request.data = serializePayload lib payload → requests request) →
      ShapedAlike lib rows requests endpoint raw raw'

/-- Attempts that shape their payloads alike are in lockstep. -/
theorem lockstep_deliverWebhook (lib : Primitives) (settings : Settings) {job job' : Job}
    (hevent : job'.event = job.event) (hcorrelation : job'.correlationId = job.correlationId)
    (retries : Nat) (h : ∀ endpoint, fits endpoint →
      ShapedAlike lib rows requests endpoint (job.rawPayload retries) (job'.rawPayload retries)) :
    Lockstep (Coupled fits rows requests) Eq (deliverWebhook lib settings job retries)
      (deliverWebhook lib settings job' retries) := by
  unfold deliverWebhook
  refine .call .load ?_
  rintro found _ ⟨rfl, hfits⟩
  rcases found with e | _ | endpoint
  · exact .ret rfl
  · exact .ret rfl
  · dsimp only [Program.bind]
    cases h endpoint (hfits endpoint rfl) with
    | raised hraised hraised' =>
      rw [hraised, hraised']
      exact .ret rfl
    | @shaped payload payload' shouldSend hshape hshape' hbytes hrows hrequests =>
      have hfingerprint : payloadFingerprint lib payload' = payloadFingerprint lib payload := by
        rw [payloadFingerprint, payloadFingerprint, hbytes]
      rw [hshape, hshape']
      dsimp only
      rw [hevent, hcorrelation, hfingerprint]
      cases shouldSend with
      | false =>
        exact lockstep_plain (hrows.plain _ .skipped _ rfl nofun (by simp)) trivial
      | true =>
        refine (lockstep_gate endpoint (retries + 1)).bind ?_
        rintro ⟨acquired, copy⟩ _ ⟨rfl, hretain⟩
        cases acquired with
        | false =>
          exact lockstep_plain (hrows.plain _ .circuitOpen _ rfl nofun (by simp)) trivial
        | true => exact lockstep_sendAttempt lib hrows hbytes hrequests _ rfl hretain retries

end Lockstep

end WebhookRelay
