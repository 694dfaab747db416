import Mathlib.Tactic.MkIffOfInductiveProp
import WebhookRelay.Delivery.Request
import WebhookRelay.Library.Folding

/-!
# Headers as they are sent

The task builds its headers as a dictionary with exact names, and sends them with their names
folded to lower case. A custom header with another spelling of the name of a protocol header is
a member of its own, and it is sent if it comes later.

## Main results

* `custom_headers_harmless_iff` — when the custom headers leave the protocol headers alone.
-/

namespace WebhookRelay

open Interleaving Program Dictionary

/-- The names of the headers that the task sets itself. -/
def protocolHeaders (settings : Settings) : List String :=
  ["Content-Type", "Accept", "X-OpenEdX-Webhook-Correlation-Id", settings.signatureHeader,
    settings.signatureHeader ++ "-Previous"]

/-- The header of a request as it is sent. -/
def Request.sent (lower : String → String) (request : Request) (name : String) : Option Json :=
  (folded lower request.headers).lookup (lower name)

/-- The signature of a body, if there is a secret to sign it with. -/
def signatureOf (lib : Primitives) (payloadBytes secret : String) : Option Json :=
  if secret ≠ "" then some (.str (signPayload lib payloadBytes secret)) else none

/-- The protocol headers of a request are sent as the task has set them. -/
@[mk_iff]
structure Request.Protected (lib : Primitives) (lower : String → String) (settings : Settings)
    (correlationId secret previous : String) (request : Request) : Prop where
  current : request.sent lower settings.signatureHeader = signatureOf lib request.data secret
  previous : request.sent lower (settings.signatureHeader ++ "-Previous") =
    signatureOf lib request.data previous
  correlation : request.sent lower "X-OpenEdX-Webhook-Correlation-Id" = some (.str correlationId)

/-! ## Custom headers that do no harm -/

/-- A signature is not shadowed: without one, no custom header has a spelling of its name. With
one, the last spelling is the exact one, or has the same value, if the exact one is there. -/
def Unshadowed (lower : String → String) (custom : Members) (name : String) :
    Option Json → Prop
  | none => spellings lower custom (lower name) = []
  | some signature => name ∈ keys custom →
    ∀ e ∈ (spellings lower custom (lower name)).getLast?, e.1 = name ∨ e.2 = signature

/-- What the custom headers put in the place of a header: the last other spelling of its name,
or else the exact one. -/
def replacement (lower : String → String) (custom : Members) (name : String) : Option Json :=
  ((erase (spellings lower custom (lower name)) name).getLast?.map Prod.snd).or
    (custom.lookup name)

/-- The custom headers replace none of the protocol headers by another value. -/
@[mk_iff]
structure Untampered (lib : Primitives) (lower : String → String) (settings : Settings)
    (custom : Members) (correlationId payloadBytes secret previous : String) : Prop where
  current : Unshadowed lower custom settings.signatureHeader (signatureOf lib payloadBytes secret)
  previous : Unshadowed lower custom (settings.signatureHeader ++ "-Previous")
    (signatureOf lib payloadBytes previous)
  correlation : ∀ value ∈ replacement lower custom "X-OpenEdX-Webhook-Correlation-Id",
    value = .str correlationId

/-! ## Reading the sent headers -/

section Sent

variable {lib : Primitives} {lower : String → String} {settings : Settings}

/-- The headers that every request has. -/
def fixedHeaders (correlationId : String) : Members :=
  [("Content-Type", .str "application/json"), ("Accept", .str "application/json"),
    ("X-OpenEdX-Webhook-Correlation-Id", .str correlationId)]

/-- The headers before signing are the fixed ones, updated with the custom ones. -/
theorem baseHeaders_obj {endpoint : WebhookEndpoint} {custom : Members}
    (hcustom : endpoint.customHeaders = .obj custom) (correlationId : String) :
    baseHeaders endpoint correlationId = .ok (update (fixedHeaders correlationId) custom) := by
  rw [baseHeaders, hcustom]
  cases custom with
  | nil => rfl
  | cons e custom => rfl

/-- Custom headers that are no dictionary raise, or are as good as none. -/
theorem baseHeaders_inv {endpoint : WebhookEndpoint} {correlationId : String} {headers : Members}
    (h : baseHeaders endpoint correlationId = .ok headers) :
    headers = update (fixedHeaders correlationId) endpoint.customHeaders.members := by
  cases hcustom : endpoint.customHeaders with
  | obj custom =>
    rw [baseHeaders_obj hcustom] at h
    exact (Except.ok.inj h).symm
  | _ =>
    rw [baseHeaders, hcustom] at h
    split at h
    · cases h
    · exact (Except.ok.inj h).symm

/-- Signing under another name leaves a header alone. -/
theorem spellings_addSignature {headers : Members} {name payloadBytes secret y : String}
    (h : lower name ≠ y) :
    spellings lower (addSignature lib headers name payloadBytes secret) y =
      spellings lower headers y := by
  rw [addSignature]
  split
  · rw [spellings_set, if_neg h]
  · rfl

/-- A signature is sent if it is not shadowed by one of the headers before it. -/
theorem sent_addSignature {headers : Members} (h : (keys headers).Nodup)
    (name payloadBytes secret : String) :
    (folded lower (addSignature lib headers name payloadBytes secret)).lookup (lower name) =
        signatureOf lib payloadBytes secret ↔
      Unshadowed lower headers name (signatureOf lib payloadBytes secret) := by
  rw [addSignature, signatureOf]
  split
  · exact lookup_folded_set h name _
  · rw [lookup_folded, Unshadowed, Option.map_eq_none_iff, List.getLast?_eq_none_iff]

/-- Only the spellings of a name matter. -/
theorem unshadowed_congr {headers custom : Members} {name : String}
    (h : spellings lower headers (lower name) = spellings lower custom (lower name))
    (signature : Option Json) :
    Unshadowed lower headers name signature ↔ Unshadowed lower custom name signature := by
  have hkeys : ∀ d : Members, name ∈ keys (spellings lower d (lower name)) ↔ name ∈ keys d :=
    fun d => mem_keys_spellings
  cases signature with
  | none => rw [Unshadowed, Unshadowed, h]
  | some signature => rw [Unshadowed, Unshadowed, h, ← hkeys headers, h, hkeys custom]

/-- The name of a fixed header is read from the custom headers if it is replaced there. -/
theorem sent_correlation {headers custom : Members} (h : (keys custom).Nodup) {name : String}
    {value : Json} (hspellings : spellings lower headers (lower name) =
      update [(name, value)] (spellings lower custom (lower name))) :
    (folded lower headers).lookup (lower name) = some value ↔
      ∀ value' ∈ replacement lower custom name, value' = value := by
  rw [lookup_folded, hspellings, getLast?_update_singleton (nodup_spellings h), lookup_spellings,
    replacement]
  cases ((erase (spellings lower custom (lower name)) name).getLast?.map Prod.snd) with
  | some last => simp
  | none => cases custom.lookup name <;> simp

theorem nodup_baseHeaders (correlationId : String) (custom : Members) :
    (keys (update (fixedHeaders correlationId) custom)).Nodup :=
  nodup_keys_update (by simp [keys, fixedHeaders]) custom

end Sent

/-! ## The signatures as they are sent -/

section Signatures

variable (lib : Primitives) {lower : String → String} {settings : Settings}
  (hapart : lower settings.signatureHeader ≠ lower (settings.signatureHeader ++ "-Previous"))
  {headers : Members} (hheaders : (keys headers).Nodup) (endpoint : WebhookEndpoint)
  (payload : Payload) (secret : String)
include hapart hheaders

/-- The signature is sent exactly if no header before it shadows it. -/
theorem sent_current_iff :
    (signedRequest lib settings endpoint payload headers secret).sent lower
        settings.signatureHeader = signatureOf lib (serializePayload lib payload) secret ↔
      Unshadowed lower headers settings.signatureHeader
        (signatureOf lib (serializePayload lib payload) secret) := by
  rw [Request.sent, lookup_folded, signedRequest, spellings_addSignature hapart.symm,
    ← lookup_folded, sent_addSignature hheaders]

/-- So is the one under the previous secret. -/
theorem sent_previous_iff :
    (signedRequest lib settings endpoint payload headers secret).sent lower
        (settings.signatureHeader ++ "-Previous") =
        signatureOf lib (serializePayload lib payload) endpoint.effectivePreviousSecret ↔
      Unshadowed lower headers (settings.signatureHeader ++ "-Previous")
        (signatureOf lib (serializePayload lib payload) endpoint.effectivePreviousSecret) := by
  have hsigned : (keys (addSignature lib headers settings.signatureHeader
      (serializePayload lib payload) secret)).Nodup := by
    rw [addSignature]
    split
    · exact nodup_keys_set hheaders _ _
    · exact hheaders
  rw [Request.sent, signedRequest, sent_addSignature hsigned]
  exact unshadowed_congr (spellings_addSignature hapart) _

end Signatures

/-! ## When the custom headers are harmless -/

section Signed

variable (lib : Primitives) {lower : String → String} {settings : Settings}
  (hlower : ((protocolHeaders settings).map lower).Nodup) (endpoint : WebhookEndpoint)
  (payload : Payload) (correlationId secret : String) {custom : Members}
  (hcustom : (keys custom).Nodup)
include hlower

/-- The names of the two signatures are folded to different names, and no fixed header has one of
them. -/
theorem signature_names_apart :
    lower settings.signatureHeader ≠ lower (settings.signatureHeader ++ "-Previous") ∧
      ∀ name ∈ [settings.signatureHeader, settings.signatureHeader ++ "-Previous"],
        ∀ e ∈ fixedHeaders correlationId, lower e.1 ≠ lower name := by
  obtain ⟨⟨-, -, hcN, hcP⟩, ⟨-, haN, haP⟩, ⟨hKN, hKP⟩, hNP⟩ :
      (lower "Content-Type" ≠ lower "Accept" ∧
        lower "Content-Type" ≠ lower "X-OpenEdX-Webhook-Correlation-Id" ∧
        lower "Content-Type" ≠ lower settings.signatureHeader ∧
        lower "Content-Type" ≠ lower (settings.signatureHeader ++ "-Previous")) ∧
      (lower "Accept" ≠ lower "X-OpenEdX-Webhook-Correlation-Id" ∧
        lower "Accept" ≠ lower settings.signatureHeader ∧
        lower "Accept" ≠ lower (settings.signatureHeader ++ "-Previous")) ∧
      (lower "X-OpenEdX-Webhook-Correlation-Id" ≠ lower settings.signatureHeader ∧
        lower "X-OpenEdX-Webhook-Correlation-Id" ≠
          lower (settings.signatureHeader ++ "-Previous")) ∧
      lower settings.signatureHeader ≠ lower (settings.signatureHeader ++ "-Previous") := by
    simpa [protocolHeaders] using hlower
  refine ⟨hNP, ?_⟩
  simp [fixedHeaders, hcN, hcP, haN, haP, hKN, hKP]

/-- The two names that the fixed headers begin with are not folded to that of the third. -/
theorem correlation_apart :
    lower "Content-Type" ≠ lower "X-OpenEdX-Webhook-Correlation-Id" ∧
      lower "Accept" ≠ lower "X-OpenEdX-Webhook-Correlation-Id" := by
  simp only [protocolHeaders, List.map_cons, List.nodup_cons, List.mem_cons, not_or] at hlower
  exact ⟨hlower.1.2.1, hlower.2.1.1⟩

include hcustom

/-- The signature of a request is sent exactly if no custom header shadows it. -/
theorem signedRequest_current_iff :
    (signedRequest lib settings endpoint payload (update (fixedHeaders correlationId) custom)
        secret).sent lower settings.signatureHeader =
        signatureOf lib (serializePayload lib payload) secret ↔
      Unshadowed lower custom settings.signatureHeader
        (signatureOf lib (serializePayload lib payload) secret) := by
  obtain ⟨hapart, hfixed⟩ := signature_names_apart hlower correlationId
  exact (sent_current_iff lib hapart (nodup_baseHeaders correlationId custom) endpoint payload
    secret).trans
      (unshadowed_congr (spellings_update_of_ne hcustom (hfixed _ (by simp))) _)

/-- So is the signature under the previous secret. -/
theorem signedRequest_previous_iff :
    (signedRequest lib settings endpoint payload (update (fixedHeaders correlationId) custom)
        secret).sent lower (settings.signatureHeader ++ "-Previous") =
        signatureOf lib (serializePayload lib payload) endpoint.effectivePreviousSecret ↔
      Unshadowed lower custom (settings.signatureHeader ++ "-Previous")
        (signatureOf lib (serializePayload lib payload) endpoint.effectivePreviousSecret) := by
  obtain ⟨hapart, hfixed⟩ := signature_names_apart hlower correlationId
  exact (sent_previous_iff lib hapart (nodup_baseHeaders correlationId custom) endpoint payload
    secret).trans
      (unshadowed_congr (spellings_update_of_ne hcustom (hfixed _ (by simp))) _)

/-- The request is protected exactly if the custom headers are harmless. -/
theorem signedRequest_protected_iff :
    (signedRequest lib settings endpoint payload (update (fixedHeaders correlationId) custom)
        secret).Protected lib lower settings correlationId secret
          endpoint.effectivePreviousSecret ↔
      Untampered lib lower settings custom correlationId (serializePayload lib payload) secret
        endpoint.effectivePreviousSecret := by
  obtain ⟨-, hfixed⟩ := signature_names_apart hlower correlationId
  obtain ⟨hcontent, haccept⟩ := correlation_apart hlower
  have hcorrelation : spellings lower (update (fixedHeaders correlationId) custom)
      (lower "X-OpenEdX-Webhook-Correlation-Id") =
        update [("X-OpenEdX-Webhook-Correlation-Id", .str correlationId)]
          (spellings lower custom (lower "X-OpenEdX-Webhook-Correlation-Id")) := by
    rw [spellings_update]
    simp [spellings, fixedHeaders, hcontent, haccept]
  have hname : ∀ name ∈ [settings.signatureHeader, settings.signatureHeader ++ "-Previous"],
      lower name ≠ lower "X-OpenEdX-Webhook-Correlation-Id" := fun name hname =>
    (hfixed name hname
      ("X-OpenEdX-Webhook-Correlation-Id", .str correlationId) (by simp [fixedHeaders])).symm
  rw [Request.protected_iff, untampered_iff]
  refine and_congr ?_ (and_congr ?_ ?_)
  · exact signedRequest_current_iff lib hlower endpoint payload correlationId secret hcustom
  · exact signedRequest_previous_iff lib hlower endpoint payload correlationId secret hcustom
  · exact sent_correlation hcustom ((spellings_addSignature (hname _ (by simp))).trans
      ((spellings_addSignature (hname _ (by simp))).trans hcorrelation))

end Signed

/-- The protocol headers of the request of an attempt are sent as the task has set them exactly
if the custom headers of the endpoint are harmless. -/
theorem custom_headers_harmless_iff (lib : Primitives) (lower : String → String)
    (settings : Settings) (hlower : ((protocolHeaders settings).map lower).Nodup) (job : Job)
    (retries : Nat) (outside : Outside) (s : Store) (custom : Payload)
    (hcustom : s.endpoint.customHeaders = .obj custom.members) :
    (∀ row ∈ rowsOf ((deliverWebhook lib settings job retries).exec database outside s).events,
        row.correlationId = job.correlationId) ∧
      ∀ request ∈ requestsOf
          ((deliverWebhook lib settings job retries).exec database outside s).events,
        ∃ payload secret,
          shapeAndCheck (job.rawPayload retries) s.endpoint = .ok (payload, true) ∧
          ((s.endpoint.effectiveSecret settings).exec database outside s).value = .ok secret ∧
          request.data = serializePayload lib payload ∧
          (request.Protected lib lower settings job.correlationId secret
              s.endpoint.effectivePreviousSecret ↔
            Untampered lib lower settings custom.members job.correlationId
              (serializePayload lib payload) secret s.endpoint.effectivePreviousSecret) := by
  refine ⟨fun row hrow => attempt_correlation hrow, fun request hrequest => ?_⟩
  obtain ⟨-, payload, headers, secret, hshape, hheaders, hsecret, rfl⟩ := attempt_request hrequest
  refine ⟨payload, secret, hshape, hsecret, rfl, ?_⟩
  obtain rfl := Except.ok.inj ((baseHeaders_obj hcustom job.correlationId).symm.trans hheaders)
  exact signedRequest_protected_iff lib hlower s.endpoint payload job.correlationId secret
    custom.wellFormed.keys_nodup

/-! ## A signature in another spelling -/

/-- `str.lower` of a name that is ASCII. -/
def asciiLower (name : String) : String := String.ofList (name.toList.map Char.toLower)

theorem asciiLower_ne (name : String) : asciiLower name ≠ asciiLower (name ++ "-Previous") := by
  intro h
  have hlength := congrArg String.length h
  simp [asciiLower] at hlength

/-- Custom headers that have the name of the signature twice. -/
def forgedHeaders : Payload where
  members := [("X-OpenEdX-Webhook-Signature", .str ""),
    ("x-openedx-webhook-signature", .str "forged")]
  wellFormed := .obj (by decide) (by simp [Json.WellFormed.str])

/-- An endpoint with a secret and these headers. -/
def forgedEndpoint : Store where
  endpoint := { newEndpoint with
    signingSecret := "hunter2"
    customHeaders := .obj forgedHeaders.members }

/-- What the libraries compute for an empty payload and this secret. -/
def forgedLib : Primitives :=
  { emptyLib with
    hmacSha256Hexdigest _ _ := "603176255680307a81ec5b984e3a7b4143d0aef1fd1576987618e55c50868ad7" }

/-- The signature is set in place, and the later spelling is sent instead of it. -/
theorem forged_signature_sent :
    ∃ request, requestsOf ((deliverWebhook forgedLib {} emptyJob 0).exec database
        acceptance forgedEndpoint).events = [request] ∧
      request.sent asciiLower "X-OpenEdX-Webhook-Signature" = some (.str "forged") ∧
      ¬ request.Protected forgedLib asciiLower {} emptyJob.correlationId "hunter2" "" := by
  refine ⟨_, rfl, ?_⟩
  have hsent : (signedRequest forgedLib {} forgedEndpoint.endpoint .empty
      (update (fixedHeaders emptyJob.correlationId) forgedHeaders.members) "hunter2").sent
        asciiLower "X-OpenEdX-Webhook-Signature" = some (.str "forged") := by
    rfl
  refine ⟨hsent, fun hprotected => ?_⟩
  have hsigned := hsent.symm.trans hprotected.current
  rw [signatureOf, if_pos (by decide)] at hsigned
  exact absurd (Json.str.inj (Option.some.inj hsigned)) (by decide)

theorem custom_headers_harmless_iff_forged :
    (∀ row ∈ rowsOf ((deliverWebhook forgedLib {} emptyJob 0).exec database acceptance
        forgedEndpoint).events, row.correlationId = exampleId) ∧
      ∀ request ∈ requestsOf ((deliverWebhook forgedLib {} emptyJob 0).exec database acceptance
          forgedEndpoint).events,
        ∃ payload secret,
          shapeAndCheck .empty forgedEndpoint.endpoint = .ok (payload, true) ∧
          ((forgedEndpoint.endpoint.effectiveSecret {}).exec database acceptance
            forgedEndpoint).value = .ok secret ∧
          request.data = serializePayload forgedLib payload ∧
          (request.Protected forgedLib asciiLower {} exampleId secret "" ↔
            Untampered forgedLib asciiLower {} forgedHeaders.members exampleId
              (serializePayload forgedLib payload) secret "") :=
  custom_headers_harmless_iff forgedLib asciiLower {} (by decide +kernel) emptyJob 0 acceptance
    forgedEndpoint forgedHeaders rfl

end WebhookRelay
