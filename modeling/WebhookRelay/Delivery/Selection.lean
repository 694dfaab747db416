import Mathlib.Data.List.Nodup
import WebhookRelay.Model.Redelivery
import WebhookRelay.Payload.Same

/-!
# What the command redelivers

`redeliver_failed_webhooks --requeue` goes through the exhausted attempts that match its options.
Each should be redelivered with its own snapshot, a payload file standing in for the attempts
that have none, and only the most recent attempt of a correlation id and endpoint should be
redelivered. The command gives the file to every attempt, and redelivers all of them.

## Main results

* `own_payload_iff` — when every attempt is redelivered with its own payload.
* `one_per_pair_iff` — when there is one delivery for each correlation id and endpoint.
-/

namespace WebhookRelay

/-! ## A run with `--requeue` -/

section Run

variable {load : String → Except RedeliverError (Option Json)} {options : RedeliverOptions}
  {attempts : List WebhookDeliveryAttempt}

/-- The payload of the file, if one is given. -/
def explicitPayload (load : String → Except RedeliverError (Option Json))
    (options : RedeliverOptions) : Except RedeliverError (Option Json) :=
  if options.payloadFile ≠ "" then load options.payloadFile else .ok none

/-- The part of the command after the payload file: it fails if an attempt has no payload, and
enqueues all of them otherwise. -/
def enqueueAll (payload : Option Json) (qs : List WebhookDeliveryAttempt) :
    Except RedeliverError (List Enqueued) :=
  if payload = none ∧ ∃ a ∈ qs, a.payloadSnapshot = none then
    .error (.commandError (missingPayloadMessage
      (qs.countP fun a => a.payloadSnapshot.isNone)))
  else .ok (qs.map fun a => a.enqueue (payload.getD a.snapshot))

theorem enqueueAll_nil (payload : Option Json) : enqueueAll payload [] = .ok [] := by
  simp [enqueueAll]

theorem enqueueAll_eq (payload : Option Json) (qs : List WebhookDeliveryAttempt) :
    enqueueAll payload qs =
      if !(qs.filter fun a => a.payloadSnapshot.isNone && payload.isNone).isEmpty then
        .error (.commandError (missingPayloadMessage
          (qs.filter fun a => a.payloadSnapshot.isNone && payload.isNone).length))
      else .ok (qs.map fun a => a.enqueue (payload.getD a.snapshot)) := by
  rw [enqueueAll, List.countP_eq_length_filter]
  cases payload with
  | some payload => simp
  | none =>
    by_cases hmissing : ∃ a ∈ qs, a.payloadSnapshot = none
    · simp [hmissing]
    · simp [hmissing]

/-- A correlation id that is not a UUID is neither a `CommandError` nor one that matches nothing. -/
theorem redeliver_invalid (hvalid : options.valid = false) :
    redeliverFailedWebhooks load options attempts =
      .error (.validationError ("“" ++ options.correlationId ++ "” is not a valid UUID.")) := by
  simp only [redeliverFailedWebhooks, hvalid, Bool.not_false, if_true]
  rfl

/-- Without `--requeue` nothing is enqueued. -/
theorem redeliver_dry_run (hvalid : options.valid = true) (hrequeue : options.requeue = false) :
    redeliverFailedWebhooks load options attempts = .ok [] := by
  simp only [redeliverFailedWebhooks, hvalid, hrequeue, Bool.not_true, Bool.not_false,
    Bool.false_eq_true, if_true, if_false]
  split <;> rfl

theorem redeliver_requeue (hvalid : options.valid = true) (hrequeue : options.requeue = true) :
    redeliverFailedWebhooks load options attempts =
      if (matchingAttempts options attempts).isEmpty then .ok []
      else explicitPayload load options >>= fun payload =>
        enqueueAll payload (matchingAttempts options attempts) := by
  rw [redeliverFailedWebhooks, explicitPayload]
  simp only [hvalid, hrequeue, Bool.not_true, Bool.false_eq_true, if_false, enqueueAll_eq]
  by_cases hfile : options.payloadFile = ""
  · simp only [hfile, ne_eq, not_true, if_false]
    rfl
  · simp only [hfile, ne_eq, not_false_iff, if_true]
    rfl

theorem redeliver_of_payload (hvalid : options.valid = true) (hrequeue : options.requeue = true)
    {payload : Option Json} (hpayload : explicitPayload load options = .ok payload) :
    redeliverFailedWebhooks load options attempts =
      enqueueAll payload (matchingAttempts options attempts) := by
  rw [redeliver_requeue hvalid hrequeue, hpayload]
  split
  · next hempty => rw [List.isEmpty_iff.mp hempty, enqueueAll_nil]
  · rfl

theorem valid_of_ok {enqueued : List Enqueued}
    (hok : redeliverFailedWebhooks load options attempts = .ok enqueued) :
    options.valid = true := by
  by_contra hinvalid
  rw [redeliver_invalid (Bool.not_eq_true _ ▸ hinvalid)] at hok
  cases hok

end Run

/-! ## Its own payload for every attempt -/

section OwnPayload

/-- The payload that an attempt should be redelivered with. -/
def WebhookDeliveryAttempt.ownPayload (attempt : WebhookDeliveryAttempt) (file : Option Members) :
    Json :=
  match attempt.payloadSnapshot, file with
  | some payload, _ => .obj payload.members
  | none, some members => .obj members
  | none, none => .null

/-- The delivery is started for the attempt with this payload, key order aside. -/
structure RedeliveredWith (payload : Json) (attempt : WebhookDeliveryAttempt)
    (delivery : Enqueued) : Prop where
  attempt : delivery = attempt.enqueue delivery.rawPayload
  payload : delivery.rawPayload.Same payload

/-- The run fails with a `CommandError` if there is no payload for an attempt; otherwise every
matching attempt is redelivered, with its snapshot if it has one and with the file's payload if
not. -/
def OwnPayloads (load : String → Except RedeliverError (Option Json)) (options : RedeliverOptions)
    (attempts : List WebhookDeliveryAttempt) (file : Option Members) : Prop :=
  if file = none ∧ ∃ a ∈ matchingAttempts options attempts, a.payloadSnapshot = none then
    ∃ message, redeliverFailedWebhooks load options attempts = .error (.commandError message)
  else ∃ enqueued, redeliverFailedWebhooks load options attempts = .ok enqueued ∧
    List.Forall₂ (fun a => RedeliveredWith (a.ownPayload file) a)
      (matchingAttempts options attempts) enqueued

theorem redeliveredWith_enqueue {attempt : WebhookDeliveryAttempt} {own payload : Json} :
    RedeliveredWith own attempt (attempt.enqueue payload) ↔ payload.Same own :=
  ⟨RedeliveredWith.payload, fun h => ⟨rfl, h⟩⟩

/-- Every attempt is redelivered with its own payload exactly if the correlation id to filter by,
if any, is a UUID, and the payload of the file, if any, is that of every matching attempt that has
a snapshot, key order aside. -/
theorem own_payload_iff (load : String → Except RedeliverError (Option Json))
    (options : RedeliverOptions) (hrequeue : options.requeue = true)
    (attempts : List WebhookDeliveryAttempt) (file : Option Members)
    (hfile : explicitPayload load options = .ok (file.map .obj)) :
    OwnPayloads load options attempts file ↔
      options.valid ∧ ∀ members ∈ file, ∀ a ∈ matchingAttempts options attempts,
        ∀ payload ∈ a.payloadSnapshot, (Json.obj members).Same (.obj payload.members) := by
  cases hvalid : options.valid with
  | false =>
    refine iff_of_false ?_ (by simp)
    rw [OwnPayloads, redeliver_invalid hvalid]
    split <;> simp
  | true =>
    rw [OwnPayloads, redeliver_of_payload hvalid hrequeue hfile, enqueueAll]
    generalize matchingAttempts options attempts = qs
    cases file with
    | none =>
      refine iff_of_true ?_ (by simp)
      by_cases hmissing : ∃ a ∈ qs, a.payloadSnapshot = none
      · simp [hmissing]
      · simp only [Option.map_none, true_and, if_neg hmissing, Option.getD_none]
        refine ⟨_, rfl, List.forall₂_map_right_iff.mpr (List.forall₂_same.mpr fun a _ => ?_)⟩
        rw [redeliveredWith_enqueue]
        cases hsnapshot : a.payloadSnapshot <;>
          simp [WebhookDeliveryAttempt.snapshot, WebhookDeliveryAttempt.ownPayload, hsnapshot,
            Json.Same.refl]
    | some members =>
      simp only [Option.map_some, reduceCtorEq, false_and, if_false, Option.getD_some,
        Except.ok.injEq, exists_eq_left', List.forall₂_map_right_iff, List.forall₂_same,
        redeliveredWith_enqueue, Option.mem_def, Option.some.injEq, forall_eq', true_and]
      refine forall₂_congr fun a _ => ?_
      cases hsnapshot : a.payloadSnapshot with
      | none => simp [WebhookDeliveryAttempt.ownPayload, hsnapshot, Json.Same.refl]
      | some payload => simp [WebhookDeliveryAttempt.ownPayload, hsnapshot]

/-- An exhausted attempt to deliver to an endpoint. -/
def exhaustedAttempt (endpointId : Nat) (correlationId : String) (payload : Option Payload) :
    WebhookDeliveryAttempt where
  endpointId := endpointId
  event := "org.openedx.learning.course.passing.status.updated.v1"
  correlationId := correlationId
  attemptNumber := 6
  status := .exhausted
  httpStatusCode := some 503
  durationMs := some 0
  errorMessage := ""
  payloadFingerprint := "44136fa355b3678a"
  payloadSnapshot := payload

/-- A payload that names a learner. -/
def learnerPayload (name : String) : Payload where
  members := [("name", .str name), ("grade", .int 85)]
  wellFormed := .obj (by simp [Dictionary.keys]) (by simp [Json.WellFormed.str, Json.WellFormed.int])

/-- `--requeue` with a payload file. -/
def fileRedelivery : RedeliverOptions := { requeue := true, payloadFile := "payload.json" }

/-- The correlation id of Bob's deliveries; Ada's is that of the other examples. -/
def bobId : String := "c9f0f895-fb98-4b91-99f5-1fd0297e236d"

/-- Ada's attempt has a snapshot, Bob's has none. -/
def mixedAttempts : List WebhookDeliveryAttempt :=
  [exhaustedAttempt 1 exampleId (some (learnerPayload "Ada")),
    exhaustedAttempt 1 bobId none]

/-- The members of a payload file with the keys in another order than in the snapshot. -/
def fileFor (name : String) : Option Members := some [("grade", .int 85), ("name", .str name)]

/-- Ada's attempts to two endpoints, one without a snapshot, are redelivered with the file that
holds her snapshot; Bob's is not selected. -/
theorem own_payload_iff_ada :
    OwnPayloads (fun _ => .ok ((fileFor "Ada").map .obj))
      { fileRedelivery with correlationId := "8F14E45FCEEA467FA4CF3F3B1F6B3B1C" }
      (exhaustedAttempt 2 exampleId none ::
        exhaustedAttempt 1 bobId (some (learnerPayload "Bob")) :: mixedAttempts)
      (fileFor "Ada") := by
  refine (own_payload_iff (fun _ => .ok ((fileFor "Ada").map .obj)) _ rfl _ _ rfl).mpr
    ⟨rfl, fun members hmembers a ha payload hpayload => ?_⟩
  obtain rfl := Option.some.inj hmembers
  have hmatching : matchingAttempts
      { fileRedelivery with correlationId := "8F14E45FCEEA467FA4CF3F3B1F6B3B1C" }
      (exhaustedAttempt 2 exampleId none ::
        exhaustedAttempt 1 bobId (some (learnerPayload "Bob")) :: mixedAttempts) =
      [exhaustedAttempt 1 exampleId (some (learnerPayload "Ada")),
        exhaustedAttempt 2 exampleId none] := rfl
  rw [hmatching] at ha
  rcases List.mem_cons.mp ha with rfl | ha
  · obtain rfl := Option.some.inj hpayload
    rfl
  · obtain rfl := List.mem_singleton.mp ha
    cases hpayload

/-- The file is for Bob, and Ada's attempt is redelivered with his payload, too. -/
theorem mixed_attempts_share_payload :
    redeliverFailedWebhooks (fun _ => .ok ((fileFor "Bob").map .obj)) fileRedelivery
        mixedAttempts =
        .ok ([exhaustedAttempt 1 bobId none,
          exhaustedAttempt 1 exampleId (some (learnerPayload "Ada"))].map fun a =>
            a.enqueue (.obj [("grade", .int 85), ("name", .str "Bob")])) ∧
      ¬ OwnPayloads (fun _ => .ok ((fileFor "Bob").map .obj)) fileRedelivery mixedAttempts
        (fileFor "Bob") := by
  have hrun : redeliverFailedWebhooks (fun _ => .ok ((fileFor "Bob").map .obj)) fileRedelivery
      mixedAttempts = .ok ([exhaustedAttempt 1 bobId none,
        exhaustedAttempt 1 exampleId (some (learnerPayload "Ada"))].map fun a =>
          a.enqueue (.obj [("grade", .int 85), ("name", .str "Bob")])) := rfl
  refine ⟨hrun, ?_⟩
  rw [OwnPayloads, if_neg (by simp [fileFor]), hrun]
  rintro ⟨enqueued, henqueued, hown⟩
  obtain rfl := Except.ok.inj henqueued
  have hmatching : matchingAttempts fileRedelivery mixedAttempts =
      [exhaustedAttempt 1 bobId none,
        exhaustedAttempt 1 exampleId (some (learnerPayload "Ada"))] := rfl
  rw [hmatching] at hown
  obtain ⟨-, hown⟩ := List.forall₂_cons.mp hown
  obtain ⟨hada, -⟩ := List.forall₂_cons.mp hown
  have hname := congrArg (fun v : Json => (v.descend ["name"]).dumps fun _ => "") hada.payload
  cases hname

end OwnPayload

/-! ## One delivery for each correlation id and endpoint -/

section OnePerPair

/-- What a delivery is known by. -/
def WebhookDeliveryAttempt.pair (attempt : WebhookDeliveryAttempt) : String × Nat :=
  (attempt.correlationId, attempt.endpointId)

def Enqueued.pair (delivery : Enqueued) : String × Nat :=
  (delivery.correlationId, delivery.endpointId)

/-- The delivery is the one that the run builds from the attempt. -/
def BuiltFrom (load : String → Except RedeliverError (Option Json)) (options : RedeliverOptions)
    (attempt : WebhookDeliveryAttempt) (delivery : Enqueued) : Prop :=
  ∃ payload, explicitPayload load options = .ok payload ∧
    delivery = attempt.enqueue (payload.getD attempt.snapshot)

/-- There is one delivery for each pair that an attempt matches, built from the newest. -/
def OnePerPair (load : String → Except RedeliverError (Option Json)) (options : RedeliverOptions)
    (attempts : List WebhookDeliveryAttempt) (enqueued : List Enqueued) : Prop :=
  ∀ pair, List.Forall₂ (BuiltFrom load options)
    ((matchingAttempts options attempts).find? fun a => a.pair = pair).toList
    (enqueued.filter fun d => d.pair = pair)

/-- If no two attempts share their pair, those with a pair are at most the newest of them. -/
theorem filter_pair_eq {qs : List WebhookDeliveryAttempt}
    (hnodup : (qs.map WebhookDeliveryAttempt.pair).Nodup) (pair : String × Nat) :
    qs.filter (fun a => a.pair = pair) = (qs.find? fun a => a.pair = pair).toList := by
  induction qs with
  | nil => rfl
  | cons a qs ih =>
    rw [List.map_cons, List.nodup_cons] at hnodup
    by_cases hpair : a.pair = pair
    · have hothers : qs.filter (fun b => b.pair = pair) = [] := by
        rw [List.filter_eq_nil_iff]
        intro b hb heq
        exact hnodup.1 (hpair ▸ of_decide_eq_true heq ▸ List.mem_map_of_mem hb)
      simp [hpair, hothers]
    · simpa [hpair] using ih hnodup.2

theorem filter_built (build : WebhookDeliveryAttempt → Enqueued)
    (hbuild : ∀ a, (build a).pair = a.pair) (qs : List WebhookDeliveryAttempt)
    (pair : String × Nat) :
    (qs.map build).filter (fun d => d.pair = pair) =
      (qs.filter fun a => a.pair = pair).map build := by
  rw [List.filter_map]
  simp [Function.comp_def, hbuild]

variable {load : String → Except RedeliverError (Option Json)} {options : RedeliverOptions}
  {attempts : List WebhookDeliveryAttempt} {enqueued : List Enqueued}

/-- What a run that succeeds has enqueued. -/
theorem redeliver_ok (hrequeue : options.requeue = true)
    (hok : redeliverFailedWebhooks load options attempts = .ok enqueued) :
    ∃ build : WebhookDeliveryAttempt → Enqueued, (∀ a, (build a).pair = a.pair) ∧
      (∀ a ∈ matchingAttempts options attempts, BuiltFrom load options a (build a)) ∧
        enqueued = (matchingAttempts options attempts).map build := by
  rw [redeliver_requeue (valid_of_ok hok) hrequeue] at hok
  split at hok
  · next hempty =>
    rw [List.isEmpty_iff.mp hempty, ← Except.ok.inj hok]
    exact ⟨fun a => a.enqueue a.snapshot, fun _ => rfl, by simp, rfl⟩
  · cases hpayload : explicitPayload load options with
    | error e =>
      rw [hpayload] at hok
      cases hok
    | ok payload =>
      rw [hpayload] at hok
      change enqueueAll payload (matchingAttempts options attempts) = .ok enqueued at hok
      rw [enqueueAll] at hok
      split at hok
      · cases hok
      · exact ⟨fun a => a.enqueue (payload.getD a.snapshot), fun _ => rfl,
          fun a _ => ⟨payload, hpayload, rfl⟩, (Except.ok.inj hok).symm⟩

/-- A successful run enqueues one delivery for each pair, built from its newest attempt, exactly
if no two of the matching attempts share their correlation id and endpoint. -/
theorem one_per_pair_iff (load : String → Except RedeliverError (Option Json))
    (options : RedeliverOptions) (hrequeue : options.requeue = true)
    (attempts : List WebhookDeliveryAttempt) (enqueued : List Enqueued)
    (hok : redeliverFailedWebhooks load options attempts = .ok enqueued) :
    OnePerPair load options attempts enqueued ↔
      ((matchingAttempts options attempts).map WebhookDeliveryAttempt.pair).Nodup := by
  obtain ⟨build, hpair, hbuilt, rfl⟩ := redeliver_ok hrequeue hok
  simp only [OnePerPair, filter_built build hpair]
  constructor
  · intro hone
    rw [List.nodup_iff_count_le_one]
    intro pair
    have hlength := (hone pair).length_eq
    rw [List.length_map] at hlength
    have hpairs : (fun other => other == pair) ∘ WebhookDeliveryAttempt.pair =
        fun a => decide (a.pair = pair) := by
      funext a
      simp [beq_eq_decide]
    rw [List.count_eq_countP, List.countP_map, List.countP_eq_length_filter, hpairs, ← hlength]
    cases (matchingAttempts options attempts).find? fun a => a.pair = pair <;> simp
  · intro hnodup pair
    rw [filter_pair_eq hnodup]
    cases hfind : (matchingAttempts options attempts).find? fun a => a.pair = pair with
    | none => exact .nil
    | some a => exact .cons (hbuilt a (List.mem_of_find?_eq_some hfind)) .nil

/-- Ada's deliveries to two endpoints and Bob's, each requeued once; a delivery that is still
retried is not matched. -/
theorem one_per_pair_iff_two :
    ∃ enqueued, redeliverFailedWebhooks (fun _ => .error .payloadFile) { requeue := true }
        [exhaustedAttempt 1 exampleId (some (learnerPayload "Ada")),
          { exhaustedAttempt 1 exampleId none with status := .retrying },
          exhaustedAttempt 2 exampleId (some (learnerPayload "Ada")),
          exhaustedAttempt 1 bobId (some (learnerPayload "Bob"))] = .ok enqueued ∧
      enqueued.length = 3 ∧
      OnePerPair (fun _ => .error .payloadFile) { requeue := true }
        [exhaustedAttempt 1 exampleId (some (learnerPayload "Ada")),
          { exhaustedAttempt 1 exampleId none with status := .retrying },
          exhaustedAttempt 2 exampleId (some (learnerPayload "Ada")),
          exhaustedAttempt 1 bobId (some (learnerPayload "Bob"))] enqueued :=
  ⟨_, rfl, rfl, (one_per_pair_iff _ _ rfl _ _ rfl).mpr (by decide)⟩

/-- A delivery and its redelivery have exhausted under one correlation id: both are redelivered,
also if they are asked for by the correlation id in capitals. -/
theorem repeated_redelivery_duplicates :
    ∃ enqueued, redeliverFailedWebhooks (fun _ => .error .payloadFile)
          { requeue := true, correlationId := "8F14E45F-CEEA-467F-A4CF-3F3B1F6B3B1C" }
          (List.replicate 2 (exhaustedAttempt 1 exampleId (some (learnerPayload "Ada")))) =
        .ok enqueued ∧ enqueued.length = 2 ∧
      ¬ OnePerPair (fun _ => .error .payloadFile)
          { requeue := true, correlationId := "8F14E45F-CEEA-467F-A4CF-3F3B1F6B3B1C" }
          (List.replicate 2 (exhaustedAttempt 1 exampleId (some (learnerPayload "Ada"))))
          enqueued := by
  refine ⟨_, rfl, rfl, ?_⟩
  intro hone
  have hlength := (hone (exampleId, 1)).length_eq
  cases hlength

end OnePerPair

end WebhookRelay
