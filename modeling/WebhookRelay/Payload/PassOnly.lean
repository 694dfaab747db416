import WebhookRelay.Delivery.Chain
import WebhookRelay.Payload.Shape

/-!
# The pass-only filter after the lists

The filter reads the first `is_passing` that is not `None`, in the order of the top-level
keys, and it reads it in the shaped payload. Whether the lists change its decision can be
told from the raw payload and the lists.

## Main results

* `filter_agrees_iff` — the lists have no say in the decision exactly if the flag is off or
  the first `is_passing` that survives, in the order of the kept keys, agrees with the raw one.
-/

namespace WebhookRelay

open Dictionary Json

/-! ## The decision on a payload -/

/-- The `is_passing` of the dictionary at a top-level key, unless it is `None`. -/
def isPassing (payload : Members) (key : String) : Option Json :=
  ((obj payload).at? [key, "is_passing"]).filter fun v => !v.isNull

theorem firstPassing_cons (v : Json) (values : List Json) :
    firstPassing (v :: values) =
      match (v.at? ["is_passing"]).filter fun w => !w.isNull with
      | some w => w.truthy
      | none => firstPassing values := by
  cases v with
  | obj ms =>
    rw [firstPassing]
    cases h : ms.lookup "is_passing" with
    | none => simp [h]
    | some w => cases w <;> simp [h, isNull, Option.filter_some]
  | _ => rfl

theorem findSome?_congr {α β : Type} {f g : α → Option β} {l : List α}
    (h : ∀ a ∈ l, f a = g a) : l.findSome? f = l.findSome? g := by
  induction l with
  | nil => rfl
  | cons a l ih =>
    rw [List.findSome?_cons, List.findSome?_cons, h a List.mem_cons_self,
      ih fun b hb => h b (List.mem_cons_of_mem a hb)]

/-- The filter looks for the first `is_passing`. -/
theorem firstPassing_eq {payload : Members} (h : (keys payload).Nodup) :
    firstPassing (payload.map Prod.snd) =
      (((keys payload).findSome? (isPassing payload)).map truthy).getD true := by
  induction payload with
  | nil => rfl
  | cons e payload ih =>
    obtain ⟨hnot, htail⟩ := List.nodup_cons.mp h
    have hhead : isPassing (e :: payload) e.1 =
        (e.2.at? ["is_passing"]).filter fun w => !w.isNull := by
      simp [isPassing, lookup_cons_ite]
    have hrest : (keys payload).findSome? (isPassing (e :: payload)) =
        (keys payload).findSome? (isPassing payload) := by
      refine findSome?_congr fun key hkey => ?_
      have hne : e.1 ≠ key := by
        rintro rfl
        exact hnot hkey
      simp [isPassing, lookup_cons_ite, hne]
    rw [List.map_cons, firstPassing_cons, keys, List.map_cons, List.findSome?_cons, hhead]
    cases (e.2.at? ["is_passing"]).filter fun w => !w.isNull with
    | some w => rfl
    | none =>
      rw [ih htail, ← hrest]
      rfl

/-! ## The decision on the shaped payload -/

section Shaped

variable {payload shaped : Members} {allowlist denylist : List String}

/-- The truth value of the `is_passing` at a top-level key if it survives both lists; what
survives of a dictionary is true if a member does. -/
def survivingPassing (payload : Members) (allowlist denylist : List String) (key : String) :
    Option Bool :=
  (isPassing payload key).bind fun v =>
    if survives payload allowlist denylist [key, "is_passing"] then
      some (match v with
        | .obj ms => (keys ms).any fun member =>
          survives payload allowlist denylist [key, "is_passing", member]
        | v => v.truthy)
    else none

/-- A dictionary is true if it has a member. -/
theorem truthy_obj (ms : Members) : (obj ms).truthy ↔ ∃ key, (obj ms).has [key] := by
  cases ms with
  | nil => simp [truthy, has]
  | cons e ms => simpa [truthy] using ⟨e.1, by simp [has, lookup_cons_ite]⟩

/-- What survives below a location survives in the value that does. -/
theorem survives_below (h : Shaped payload allowlist denylist shaped) {loc : List String}
    {v : Json} (hv : (obj shaped).at? loc = some v) (key : String) :
    survives payload allowlist denylist (loc ++ [key]) = v.has [key] := by
  rw [← h.has _ (by simp), has, at?_append, hv]
  rfl

/-- What survives of a dictionary is a dictionary, true if a member survives. -/
theorem truthy_shaped (h : Shaped payload allowlist denylist shaped) {loc : List String}
    {ms ms' : Members} (hv : (obj shaped).at? loc = some (obj ms'))
    (hw : (obj payload).at? loc = some (obj ms)) :
    (obj ms').truthy =
      (keys ms).any fun member => survives payload allowlist denylist (loc ++ [member]) := by
  rw [Bool.eq_iff_iff, truthy_obj, List.any_eq_true]
  constructor
  · rintro ⟨key, hkey⟩
    rw [← survives_below h hv, ← h.has _ (by simp)] at hkey
    obtain ⟨v, hv'⟩ := Option.isSome_iff_exists.mp hkey
    obtain ⟨w, hw', -⟩ := h.drawn _ v (by simp) hv'
    have hmember : key ∈ keys ms := by
      rw [at?_append, hw] at hw'
      exact has_key.mp (Option.isSome_of_eq_some hw')
    exact ⟨key, hmember, by rwa [h.has _ (by simp)] at hkey⟩
  · rintro ⟨key, -, hkey⟩
    exact ⟨key, survives_below h hv key ▸ hkey⟩

theorem isPassing_shaped (h : Shaped payload allowlist denylist shaped) (key : String) :
    (isPassing shaped key).map truthy = survivingPassing payload allowlist denylist key := by
  have hsurvives := h.has [key, "is_passing"] (by simp)
  rw [isPassing, survivingPassing, ← hsurvives]
  cases hv : (obj shaped).at? [key, "is_passing"] with
  | none => simp [has, hv]
  | some v =>
    obtain ⟨w, hw, hlike | ⟨-, hlength⟩⟩ := h.drawn _ v (by simp) hv
    · rw [isPassing, hw, has, hv]
      rcases hlike with rfl | ⟨hdict, hdict'⟩
      · cases v with
        | obj ms => simpa [Option.filter_some, isNull] using truthy_shaped h hv hw
        | _ => simp [Option.filter_some, isNull]
      · cases v with
        | obj ms' =>
          cases w with
          | obj ms => simpa [Option.filter_some, isNull] using truthy_shaped h hv hw
          | _ => cases hdict'
        | _ => cases hdict
    · cases hlength

/-- The first `is_passing` of the shaped payload is the first that survives. -/
theorem first_survivingPassing (h : Shaped payload allowlist denylist shaped) :
    ((keys shaped).findSome? (isPassing shaped)).map truthy =
      (keptKeys payload allowlist).findSome? (survivingPassing payload allowlist denylist) := by
  have hpointwise : Option.map truthy ∘ isPassing shaped =
      survivingPassing payload allowlist denylist := funext (isPassing_shaped h)
  rw [List.map_findSome?, hpointwise, h.keys]
  induction keptKeys payload allowlist with
  | nil => rfl
  | cons key topKeys ih =>
    cases hkey : survives payload allowlist denylist [key] with
    | true => rw [List.filter_cons, if_pos hkey, List.findSome?_cons, List.findSome?_cons, ih]
    | false =>
      have hgone : shaped.lookup key = none := by
        rw [← h.has _ (by simp)] at hkey
        simpa [has] using hkey
      have hnone : survivingPassing payload allowlist denylist key = none := by
        rw [← isPassing_shaped h]
        simp [isPassing, hgone]
      rw [List.filter_cons, if_neg (by simp [hkey]), ih, List.findSome?_cons, hnone]

end Shaped

/-! ## The two decisions compared -/

/-- An attempt whose payload the filter holds back sends nothing and leaves one row. -/
theorem skipped_recorded (lib : Primitives) {settings : Settings} {job : Job} {retries : Nat}
    {outside : Outside} {s : Store} (hload : outside.keyError = none)
    (henabled : s.endpoint.enabled) {payload : Payload}
    (hshape : shapeAndCheck (job.rawPayload retries) s.endpoint = .ok (payload, false)) :
    let run := (deliverWebhook lib settings job retries).exec database outside s
    run.store.sent = s.sent ∧ ∃ row, run.store.attempts = s.attempts ++ [row] ∧
      row.correlationId = job.correlationId ∧ row.status = .skipped := by
  intro run
  have hcourse := (course_moment outside s (deliverWebhook lib settings job retries)).symm.trans
    (skipped lib (m := s.moment) hload henabled hshape)
  have hacts : acts run.events = [.row job.correlationId (retries + 1) .skipped] :=
    congrArg Course.acts hcourse
  obtain ⟨hrows, hsent⟩ := exec_audit outside s (deliverWebhook lib settings job retries)
  have hnone : requestsOf run.events = [] := by
    rw [← List.length_eq_zero_iff, ← count_request_acts, hacts]
    rfl
  have hwritten := written_acts run.events
  rw [hacts] at hwritten
  obtain ⟨row, hrow, hfields⟩ : ∃ row, rowsOf run.events = [row] ∧
      (row.correlationId, row.attemptNumber, row.status) =
        (job.correlationId, retries + 1, .skipped) :=
    List.map_eq_singleton_iff.mp hwritten.symm
  refine ⟨hsent.trans (hnone ▸ List.append_nil _), row, hrows.trans (hrow ▸ rfl), ?_, ?_⟩
  · exact congrArg Prod.fst hfields
  · exact congrArg (fun fields => fields.2.2) hfields

/-- The lists have no say in what the filter decides: the decision is that on the raw payload,
and an event it holds back there is recorded as skipped and sent to nobody. -/
structure FilterAgrees (payload : Payload) (endpoint : WebhookEndpoint) : Prop where
  decision : ∃ shaped, shapeAndCheck payload endpoint =
    .ok (shaped, shouldSendPassingEvent payload.members endpoint.onlyOnPassing)
  heldBack : shouldSendPassingEvent payload.members endpoint.onlyOnPassing = false →
    ∀ (lib : Primitives) (settings : Settings) (job : Job) (retries : Nat) (outside : Outside)
      (s : Store), job.rawPayload retries = payload → s.endpoint = endpoint → endpoint.enabled →
      outside.keyError = none →
      let run := (deliverWebhook lib settings job retries).exec database outside s
      run.store.sent = s.sent ∧ ∃ row, run.store.attempts = s.attempts ++ [row] ∧
        row.correlationId = job.correlationId ∧ row.status = .skipped

/-- What becomes of an event follows from the decision. -/
theorem filterAgrees_iff_decision {payload : Payload} {endpoint : WebhookEndpoint} :
    FilterAgrees payload endpoint ↔ ∃ shaped, shapeAndCheck payload endpoint =
      .ok (shaped, shouldSendPassingEvent payload.members endpoint.onlyOnPassing) := by
  refine ⟨FilterAgrees.decision, fun h => ⟨h, ?_⟩⟩
  rintro hheld lib settings job retries outside s rfl rfl henabled hload
  obtain ⟨shaped, hshape⟩ := h
  rw [hheld] at hshape
  exact skipped_recorded lib hload henabled hshape

/-- The lists have no say exactly if the filter is off or the first `is_passing` that
survives, in the order of the kept keys, agrees with the raw one; where there is none, the
event is sent. -/
theorem filter_agrees_iff (payload : Payload) (endpoint : WebhookEndpoint)
    (allowlist denylist : List String) :
    FilterAgrees payload
        { endpoint with piiAllowlist := pathList allowlist, piiDenylist := pathList denylist } ↔
      endpoint.onlyOnPassing = false ∨
        ((keptKeys payload.members allowlist).findSome?
            (survivingPassing payload.members allowlist denylist)).getD true =
          (((keys payload.members).findSome? (isPassing payload.members)).map truthy).getD true := by
  rw [filterAgrees_iff_decision]
  obtain ⟨shaped, hshape, hshaped⟩ := shapeAndCheck_shaped payload
    { endpoint with piiAllowlist := pathList allowlist, piiDenylist := pathList denylist } rfl rfl
  rw [hshape, ← first_survivingPassing hshaped, ← firstPassing_eq payload.wellFormed.keys_nodup,
    ← firstPassing_eq shaped.wellFormed.keys_nodup]
  cases endpoint.onlyOnPassing <;> simp [shouldSendPassingEvent]

/-- A course that was not passed, as the receivers build its payload. -/
def failedCourse : Payload where
  members := [("openedx_events.learning.data.CoursePassingStatusData",
      .obj [("is_passing", .bool false)]), ("event_metadata", .obj [])]
  wellFormed := by
    refine .obj (by decide) ?_
    simp only [List.forall_mem_cons]
    refine ⟨.obj (by decide) ?_, .obj (by decide) (by simp), by simp⟩
    simpa using WellFormed.bool false

/-- An endpoint for passed courses that must not see the field itself. -/
def discreetEndpoint : WebhookEndpoint :=
  { newEndpoint with piiDenylist := pathList ["data.is_passing"] }

/-- It is sent the courses that were not passed. -/
theorem failed_course_sent :
    ¬ FilterAgrees failedCourse discreetEndpoint ∧
      shouldSendPassingEvent failedCourse.members discreetEndpoint.onlyOnPassing = false ∧
      (shapeAndCheck failedCourse discreetEndpoint).map Prod.snd = .ok true ∧
      (runChain (deliverWebhook emptyLib {} { emptyJob with rawPayload _ := failedCourse })
        (fun _ => { outside := { outcome := .response 200 "" } }) 1 0
        { endpoint := discreetEndpoint }).map (fun r => r.store.sent.length) = some 1 := by
  have hsent : (shapeAndCheck failedCourse discreetEndpoint).map Prod.snd = .ok true := rfl
  refine ⟨fun h => ?_, rfl, hsent, rfl⟩
  obtain ⟨shaped, hshape⟩ := h.decision
  rw [hshape] at hsent
  cases hsent

end WebhookRelay
