import WebhookRelay.Delivery.Chain
import WebhookRelay.Delivery.Lockstep

/-!
# The request and the rows of an attempt

An attempt makes its request from the row it has loaded: the payload is shaped with the lists of
the row, the headers are those of the row, and the secrets are the ones in effect for it. All
its rows carry its correlation id.

## Main results

* `attempt_request` — what the request of an attempt is made of.
* `attempt_correlation` — the rows of an attempt carry its correlation id.
-/

namespace WebhookRelay

open Interleaving Program

/-- The request with both signatures. -/
def signedRequest (lib : Primitives) (settings : Settings) (endpoint : WebhookEndpoint)
    (payload : Payload) (headers : Members) (secret : String) : Request :=
  let payloadBytes := serializePayload lib payload
  { url := endpoint.webhookUrl
    data := payloadBytes
    headers := addSignature lib
      (addSignature lib headers settings.signatureHeader payloadBytes secret)
      (settings.signatureHeader ++ "-Previous") payloadBytes endpoint.effectivePreviousSecret
    timeout := endpoint.timeoutSeconds }

theorem buildRequest_eq (lib : Primitives) (settings : Settings) (endpoint : WebhookEndpoint)
    (correlationId : String) (payload : Payload) :
    buildRequest lib settings endpoint correlationId payload =
      match baseHeaders endpoint correlationId with
      | .error e => .ret (.error e)
      | .ok headers => (endpoint.effectiveSecret settings).bind fun secret =>
        .ret (secret.map (signedRequest lib settings endpoint payload headers)) := by
  rw [buildRequest]
  cases baseHeaders endpoint correlationId with
  | error e => rfl
  | ok headers =>
    refine congrArg (Program.bind (endpoint.effectiveSecret settings)) (funext fun secret => ?_)
    cases secret <;> rfl

/-! ## Rows and requests of the parts of an attempt -/

/-- The rule of a program whose rows and requests have these properties, and that loads no
endpoint. -/
abbrev leaving (rows : WebhookDeliveryAttempt → Prop) (requests : Request → Prop) :
    Discipline relay Unit :=
  only fun
    | .getEnabled => False
    | .createAttempt row => rows row
    | .post request => requests request
    | _ => True

section Leaving

variable {rows : WebhookDeliveryAttempt → Prop} {requests : Request → Prop}
  {settings : Settings}

/-- A quiet program has neither rows nor requests. -/
theorem leaving_quiet {α : Type} {p : Delivery α}
    (h : p.Follows quietly (fun _ _ => True) ()) :
    p.Follows (leaving rows requests) (fun _ _ => True) () := by
  refine h.mono_only fun op hop => ?_
  cases op with
  | getEnabled => cases hop
  | createAttempt row => cases hop
  | post request => cases hop
  | _ => trivial

theorem leaving_recordThen {ctx : AttemptContext} {status : AttemptStatus}
    {details : AttemptDetails} {rest : Delivery TaskEnd}
    (hrow : rows (attemptRow ctx status details))
    (hrest : rest.Follows (leaving rows requests) (fun _ _ => True) ()) :
    (recordThen settings ctx status details rest).Follows (leaving rows requests)
      (fun _ _ => True) () := by
  cases hwrite : (attemptRow ctx status details).writeError? with
  | some e =>
    rw [recordThen_raises hwrite]
    trivial
  | none =>
    rw [recordThen_eq hwrite]
    refine ⟨hrow, fun _ => ⟨trivial, fun _ => ?_⟩⟩
    beta_reduce
    split
    · exact ⟨trivial, fun _ => hrest⟩
    · exact hrest

/-- After its request an attempt makes no other. -/
theorem leaving_conclude {ctx : AttemptContext}
    (hrows : ∀ status details, rows (attemptRow ctx status details)) (retries : Nat)
    (payload : Payload) (start : Time) (outcome : PostOutcome) :
    (conclude settings ctx retries payload start outcome).Follows (leaving rows requests)
      (fun _ _ => True) () := by
  have hfailure : (ctx.endpoint.recordCircuitFailure >>= fun _ => .ret TaskEnd.returned).Follows
      (leaving rows requests) (fun _ _ => True) () :=
    (leaving_quiet (quiet_recordCircuitFailure ctx.endpoint)).bind fun _ _ _ => trivial
  have hretry : ∀ exc details, (failOrRetry settings ctx retries exc details).Follows
      (leaving rows requests) (fun _ _ => True) () := by
    intro exc details
    unfold failOrRetry
    split
    · exact leaving_recordThen (hrows _ _) trivial
    · exact leaving_recordThen (hrows _ _) hfailure
  cases hhandled : outcome.handled with
  | false =>
    cases outcome with
    | otherException message => trivial
    | _ => cases hhandled
  | true =>
    obtain ⟨exc, details, -, htree⟩ := conclude_handled settings ctx retries payload start hhandled
    rw [htree]
    refine ⟨trivial, fun (stop : Time) => ?_⟩
    beta_reduce
    split
    · exact hretry exc (details stop)
    split
    · exact leaving_recordThen (hrows _ _) ⟨trivial, fun _ => trivial⟩
    · exact leaving_recordThen (hrows _ _) hfailure

/-- The breaker check has neither rows nor requests, and only the state of the breaker can
differ in the copy that it returns. -/
theorem leaving_gate (endpoint : WebhookEndpoint) (attemptNumber : Nat) :
    (gate endpoint attemptNumber).Follows (leaving rows requests)
      (fun _ result => result.2 = endpoint ∨ result.2 = endpoint.halfOpened) () := by
  unfold gate
  split
  · rw [← Program.bind_ret (WebhookEndpoint.tryAcquireDeliverySlot endpoint),
      WebhookEndpoint.tryAcquireDeliverySlot_bind]
    repeat' split
    · exact .inl rfl
    · exact .inl rfl
    · exact .inl rfl
    · refine ⟨trivial, fun time => ?_⟩
      beta_reduce
      split
      · exact .inl rfl
      · refine ⟨trivial, fun won => ?_⟩
        cases won with
        | false => exact .inl rfl
        | true => exact .inr rfl
  · exact .inl rfl

theorem leaving_buildRequest (lib : Primitives) (endpoint : WebhookEndpoint)
    (correlationId : String) (payload : Payload) :
    (buildRequest lib settings endpoint correlationId payload).Follows (leaving rows requests)
      (fun _ _ => True) () := by
  rw [buildRequest_eq]
  split
  · trivial
  · exact (leaving_quiet (quiet_effectiveSecret settings endpoint)).bind fun _ _ _ => trivial

/-- What an attempt leaves once it has asked for the endpoint: rows with its correlation id, and a
request that is built from the copy it has got. -/
theorem attempt_leaves (lib : Primitives) (settings : Settings) (job : Job)
    (rows : WebhookDeliveryAttempt → Prop)
    (requests : Except PyError (Option WebhookEndpoint) → Request → Prop)
    (hrows : ∀ ctx : AttemptContext, ctx.correlationId = job.correlationId → ∀ status details,
      rows (attemptRow ctx status details))
    (hbuilt : ∀ endpoint copy payload, copy = endpoint ∨ copy = endpoint.halfOpened →
      (buildRequest lib settings copy job.correlationId payload).Follows
        (leaving rows (requests (.ok (some endpoint))))
        (fun _ built => ∀ request, built = .ok request → requests (.ok (some endpoint)) request) ())
    (retries : Nat) : ∃ rest, deliverWebhook lib settings job retries = .call .getEnabled rest ∧
      ∀ found, (rest found).Follows (leaving rows (requests found)) (fun _ _ => True) () := by
  refine ⟨_, rfl, fun found => ?_⟩
  rcases found with e | _ | endpoint
  · trivial
  · trivial
  · dsimp only [Program.bind]
    cases hshape : shapeAndCheck (job.rawPayload retries) endpoint with
    | error e => trivial
    | ok shaped =>
      obtain ⟨payload, shouldSend⟩ := shaped
      cases shouldSend with
      | false => exact leaving_recordThen (hrows _ rfl _ _) trivial
      | true =>
        refine (leaving_gate endpoint (retries + 1)).bind fun _ gated hcopy => ?_
        obtain ⟨acquired, copy⟩ := gated
        cases acquired with
        | false => exact leaving_recordThen (hrows _ rfl _ _) trivial
        | true =>
          refine (hbuilt endpoint copy payload hcopy).bind fun _ built hrequest => ?_
          cases built with
          | error e => trivial
          | ok request =>
            exact ⟨trivial, fun start => ⟨hrequest request rfl, fun outcome =>
              leaving_conclude (fun _ _ => hrows _ rfl _ _) retries payload start outcome⟩⟩

end Leaving

/-! ## Rows and requests of a run -/

section Runs

variable {lib : Primitives} {settings : Settings} {outside : Outside} {α : Type}

theorem mem_events_of_bind {p : Delivery α} {f : α → Delivery TaskEnd} {s : Store}
    {ev : Event relay} (h : ev ∈ ((p >>= f).exec database outside s).events) :
    ev ∈ (p.exec database outside s).events ∨
      ev ∈ ((f (p.exec database outside s).value).exec database outside
        (p.exec database outside s).store).events := by
  have hbind := exec_bind database outside p f s
  rw [show (p >>= f) = p.bind f from rfl, hbind] at h
  exact List.mem_append.mp h

/-- A program that makes no requests. -/
theorem no_request {p : Delivery α} {Q : α → Prop} {s : Store} {request : Request}
    (h : p.Follows (leaving (fun _ => True) fun _ => False) (fun _ => Q) ()) {ev : Event relay}
    (hev : ev ∈ (p.exec database outside s).events) : ev.op ≠ .post request := by
  intro hop
  have := (h.exec_only database outside s).2 ev hev
  rw [hop] at this
  exact this

/-- The secret in effect does not depend on the stored row. -/
theorem effectiveSecret_value (endpoint : WebhookEndpoint) (s s' : Store) :
    ((endpoint.effectiveSecret settings).exec database outside s').value =
      ((endpoint.effectiveSecret settings).exec database outside s).value := by
  cases hbackend : getSecretBackend settings with
  | error e =>
    have hret : endpoint.effectiveSecret settings = .ret (.error e) := by
      rw [WebhookEndpoint.effectiveSecret, hbackend]
      rfl
    rw [hret]
    rfl
  | ok backend =>
    have hasks := effectiveSecret_asks hbackend endpoint
    generalize endpoint.effectiveSecret settings = p at hasks ⊢
    cases hasks <;> rfl

theorem buildRequest_value {endpoint : WebhookEndpoint} {correlationId : String}
    {payload : Payload} {s : Store} {request : Request}
    (h : ((buildRequest lib settings endpoint correlationId payload).exec database outside
      s).value = .ok request) :
    ∃ headers secret, baseHeaders endpoint correlationId = .ok headers ∧
      ((endpoint.effectiveSecret settings).exec database outside s).value = .ok secret ∧
      request = signedRequest lib settings endpoint payload headers secret := by
  rw [buildRequest_eq] at h
  cases hheaders : baseHeaders endpoint correlationId with
  | error e =>
    rw [hheaders] at h
    cases h
  | ok headers =>
    rw [hheaders] at h
    dsimp only at h
    rw [exec_bind] at h
    cases hsecret : ((endpoint.effectiveSecret settings).exec database outside s).value with
    | error e =>
      rw [hsecret] at h
      cases h
    | ok secret =>
      rw [hsecret] at h
      exact ⟨headers, secret, rfl, rfl, (Except.ok.inj h).symm⟩

/-- The request of an attempt that the breaker has let through. -/
theorem sendAttempt_request {ctx : AttemptContext} {retries : Nat} {payload : Payload}
    {s : Store} {ev : Event relay}
    (hev : ev ∈ ((sendAttempt lib settings ctx retries payload).exec database outside s).events)
    {request : Request} (hop : ev.op = .post request) :
    ∃ headers secret, baseHeaders ctx.endpoint ctx.correlationId = .ok headers ∧
      ((ctx.endpoint.effectiveSecret settings).exec database outside s).value = .ok secret ∧
      request = signedRequest lib settings ctx.endpoint payload headers secret := by
  rcases mem_events_of_bind hev with hev | hev
  · exact absurd hop (no_request (leaving_buildRequest lib ctx.endpoint _ payload) hev)
  · cases hvalue : ((buildRequest lib settings ctx.endpoint ctx.correlationId payload).exec database
      outside s).value with
    | error e =>
      rw [hvalue] at hev
      cases hev
    | ok sent =>
      obtain ⟨headers, secret, hheaders, hsecret, rfl⟩ := buildRequest_value hvalue
      rw [hvalue] at hev
      rcases List.mem_cons.mp hev with rfl | hev
      · cases hop
      rcases List.mem_cons.mp hev with rfl | hev
      · obtain rfl := Op.post.inj hop
        exact ⟨headers, secret, hheaders, hsecret, rfl⟩
      · exact absurd hop
          (no_request (leaving_conclude (fun _ _ => trivial) retries payload _ _) hev)

/-- The request of an attempt is made from the row it has loaded. -/
theorem attempt_request {job : Job} {retries : Nat} {s : Store} {request : Request}
    (h : request ∈ requestsOf
      ((deliverWebhook lib settings job retries).exec database outside s).events) :
    s.endpoint.enabled = true ∧ ∃ payload headers secret,
      shapeAndCheck (job.rawPayload retries) s.endpoint = .ok (payload, true) ∧
      baseHeaders s.endpoint job.correlationId = .ok headers ∧
      ((s.endpoint.effectiveSecret settings).exec database outside s).value = .ok secret ∧
      request = signedRequest lib settings s.endpoint payload headers secret := by
  obtain ⟨ev, hev, hop⟩ := mem_requestsOf h
  rcases List.mem_cons.mp hev with rfl | hev
  · cases hop
  have hanswer : database outside .getEnabled s =
      (if s.endpoint.enabled then outside.load s.endpoint else .ok none, s) := rfl
  rw [hanswer] at hev
  dsimp only at hev
  split at hev
  swap
  · cases hev
  next henabled =>
  refine ⟨henabled, ?_⟩
  cases hload : outside.load s.endpoint with
  | error e =>
    rw [hload] at hev
    cases hev
  | ok found =>
  obtain rfl := Outside.load_ok hload
  rw [hload] at hev
  dsimp only [Program.bind] at hev
  cases hshape : shapeAndCheck (job.rawPayload retries) s.endpoint with
  | error e =>
    rw [hshape] at hev
    cases hev
  | ok shaped =>
    obtain ⟨payload, shouldSend⟩ := shaped
    rw [hshape] at hev
    have hrecord : ∀ ctx status, (recordThen settings ctx status {} (.ret .returned)).Follows
        (leaving (fun _ => True) fun _ => False) (fun _ _ => True) () := fun ctx status =>
      leaving_recordThen trivial trivial
    cases shouldSend with
    | false => exact absurd hop (no_request (hrecord _ _) hev)
    | true =>
      rcases mem_events_of_bind hev with hev | hev
      · exact absurd hop (no_request (leaving_gate s.endpoint (retries + 1)) hev)
      · have hgate : (gate s.endpoint (retries + 1)).Follows (leaving (fun _ => True) fun _ => True)
            (fun _ result => result.2 = s.endpoint ∨ result.2 = s.endpoint.halfOpened) () :=
          leaving_gate s.endpoint (retries + 1)
        obtain ⟨hcopy, -⟩ := hgate.exec_only database outside s
        generalize (gate s.endpoint (retries + 1)).exec database outside s = gated at hev hcopy
        obtain ⟨⟨acquired, copy⟩, found, events⟩ := gated
        cases acquired with
        | false => exact absurd hop (no_request (hrecord _ _) hev)
        | true =>
          obtain ⟨headers, secret, hheaders, hsecret, rfl⟩ := sendAttempt_request hev hop
          refine ⟨payload, headers, secret, rfl, ?_⟩
          dsimp only at hcopy
          rcases hcopy with rfl | rfl
          · exact ⟨hheaders, effectiveSecret_value _ found s ▸ hsecret, rfl⟩
          · exact ⟨hheaders, effectiveSecret_value _ found s ▸ hsecret, rfl⟩

/-- The rows of an attempt carry its correlation id. -/
theorem attempt_correlation {job : Job} {retries : Nat} {s : Store} {row : WebhookDeliveryAttempt}
    (h : row ∈ rowsOf ((deliverWebhook lib settings job retries).exec database outside s).events) :
    row.correlationId = job.correlationId := by
  obtain ⟨rest, htree, hrest⟩ := attempt_leaves lib settings job
    (fun row => row.correlationId = job.correlationId) (fun _ _ => True)
    (fun ctx hctx _ _ => hctx) (fun endpoint copy payload _ =>
      (leaving_buildRequest lib copy job.correlationId payload).mono fun _ _ _ _ _ => trivial)
    retries
  obtain ⟨ev, hev, hop⟩ := mem_rowsOf h
  rw [htree] at hev
  rcases List.mem_cons.mp hev with rfl | hev
  · cases hop
  · have hrow := (Follows.exec_only (Q := fun _ => True) (hrest _) database outside _).2 ev hev
    rw [hop] at hrow
    exact hrow

end Runs

end WebhookRelay
