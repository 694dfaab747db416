import WebhookRelay.Model.Editing
import WebhookRelay.Model.Raising
import WebhookRelay.Payload.Paths
import WebhookRelay.Payload.Reshaping

/-!
# What validation has to rule out

`clean` asks of the two stored lists that they are arrays, and `_shape_and_check` iterates over
them as arrays of strings. What the loops write never meets a value that is no dictionary, so the
elements of the lists are all there is to go wrong.

## Main results

* `shapeAndCheckOrRaise_eq` — no write of the loops raises, whatever the payload and the lists are.
* `shapes_iff_onlyStrings` — an endpoint that `clean` accepts is shaped without an exception
  exactly if its lists hold only strings.
-/

namespace WebhookRelay

open Dictionary Json

/-! ## The writes of the loops -/

theorem setNestedValueOrRaise_eq {root : Json} {sub : String} (h : sub ≠ "" → root.isDict)
    (value : Json) :
    setNestedValueOrRaise root sub value = .ok (setNestedValue root sub value) := by
  unfold setNestedValueOrRaise setNestedValue
  by_cases hsub : sub = ""
  · rw [if_pos hsub, if_pos hsub]
  · rw [if_neg hsub, if_neg hsub]
    have hdict := h hsub
    cases root with
    | obj ms => rfl
    | _ => cases hdict

section Writes

variable {payload result : Members}

/-- A value that is copied lies below a dictionary, so there is one in the result as well. -/
theorem keepNestedOrRaise_eq (h : Drawn payload result) (key sub : String) :
    keepNestedOrRaise payload result key sub = .ok (keepNested payload result key sub) := by
  have hroot : getNestedValue (valueAt payload key) sub ≠ .null → sub ≠ "" →
      ((result.lookup key).getD (.obj [])).isDict := by
    intro hvalue hsub
    rw [getNestedValue_eq payload key hsub] at hvalue
    cases hat : (obj payload).at? (key :: segments sub) with
    | none => exact absurd (by rw [hat]; rfl) hvalue
    | some value => exact h.root_isDict (segments_ne_nil sub) hat
  unfold keepNestedOrRaise keepNested
  generalize getNestedValue (valueAt payload key) sub = value at hroot
  cases value with
  | null => rfl
  | _ =>
    simp only [setNestedValueOrRaise_eq (hroot nofun)]
    rfl

theorem allowPathOrRaise_eq (h : Drawn payload result) (dataKey : Option String)
    (path : String) : allowPathOrRaise payload dataKey result path =
      .ok (allowPath payload dataKey result path) := by
  unfold allowPathOrRaise allowPath
  simp only [keepNestedOrRaise_eq h]
  by_cases hmeta : path = "event_metadata"
  · simp only [if_pos hmeta]
    cases payload.lookup "event_metadata" <;> rfl
  simp only [if_neg hmeta]
  cases subPath "event_metadata" path with
  | some sub => rfl
  | none =>
  by_cases hdata : path = "data"
  · simp only [if_pos hdata]
    cases truthyKey dataKey <;> rfl
  simp only [if_neg hdata]
  cases subPath "data" path with
  | some sub => cases truthyKey dataKey <;> rfl
  | none =>
  cases payload.lookup path with
  | some value => rfl
  | none => cases firstPrefix path (keys payload) <;> rfl

theorem drawn_allowPath (h : Drawn payload result) (path : String) :
    Drawn payload (allowPath payload (eventDataKey payload) result path) := by
  rw [allowPath_eq]
  cases resolvePath (eventDataKey payload) (keys payload) path with
  | none => exact h
  | some t => exact Target.drawn_copy h t

end Writes

/-! ## The loops -/

/-- A loop that maps to another one round by round. -/
theorem forEachPath_map {σ τ : Type} {body : σ → String → σ} {body' : τ → String → τ} {f : σ → τ}
    (h : ∀ state path, body' (f state) path = f (body state path)) (list : Json) (start : σ) :
    forEachPath body' list (f start) = (forEachPath body list start).map f := by
  unfold forEachPath
  cases iterate list with
  | error e => rfl
  | ok items =>
    change items.foldlM (pathRound body') (f start) =
      (items.foldlM (pathRound body) start).map f
    induction items generalizing start with
    | nil => rfl
    | cons v items ih =>
      cases v with
      | str path =>
        rw [List.foldlM_cons, List.foldlM_cons]
        change items.foldlM _ (body' (f start) path) = _
        rw [h]
        exact ih (body start path)
      | _ => rfl

/-- The rounds of the allowlist copy what the payload has, so none of them raises. -/
theorem forEachPathOrRaise_eq (payload : Payload) (list : Json) (start : Payload)
    (h : Drawn payload.members start.members) :
    forEachPathOrRaise (allowPathOrRaise payload.members (eventDataKey payload.members)) list
        start.members =
      forEachPath (allowPath payload.members (eventDataKey payload.members)) list
        start.members := by
  unfold forEachPathOrRaise forEachPath
  cases iterate list with
  | error e => rfl
  | ok items =>
    generalize start.members = result at h
    change items.foldlM (pathRoundOrRaise _) result = items.foldlM (pathRound _) result
    induction items generalizing result with
    | nil => rfl
    | cons v items ih =>
      cases v with
      | str path =>
        rw [List.foldlM_cons, List.foldlM_cons, pathRoundOrRaise, allowPathOrRaise_eq h]
        exact ih _ (drawn_allowPath h path)
      | _ => rfl

theorem applyAllowlistOrRaise_eq (payload : Payload) (allowlist : Json) :
    applyAllowlistOrRaise payload.members allowlist =
      (applyAllowlist payload allowlist).map Payload.members := by
  unfold applyAllowlistOrRaise applyAllowlist
  split
  · exact (forEachPathOrRaise_eq payload allowlist .empty drawn_nil).trans
      (forEachPath_map (f := Payload.members) (fun _ _ => rfl) allowlist .empty)
  · rfl

theorem applyDenylistOrRaise_eq (payload : Payload) (denylist : Json) :
    applyDenylistOrRaise payload.members denylist =
      (applyDenylist payload denylist).map Payload.members :=
  forEachPath_map (f := Payload.members) (fun _ _ => rfl) denylist payload

/-- `_shape_and_check` step by step. -/
theorem shapeAndCheckOrRaise_steps (payload : Members) (endpoint : WebhookEndpoint) :
    shapeAndCheckOrRaise payload endpoint =
      (if endpoint.piiAllowlist.truthy then applyAllowlistOrRaise payload endpoint.piiAllowlist
        else .ok payload).bind fun result =>
        (if endpoint.piiDenylist.truthy then applyDenylistOrRaise result endpoint.piiDenylist
          else .ok result).bind fun shaped =>
          .ok (shaped, shouldSendPassingEvent shaped endpoint.onlyOnPassing) := by
  unfold shapeAndCheckOrRaise
  cases endpoint.piiAllowlist.truthy <;> cases endpoint.piiDenylist.truthy <;> rfl

/-- No write of the loops raises: with the exceptions of its writes `_shape_and_check` is what it
is without them. -/
theorem shapeAndCheckOrRaise_eq (payload : Payload) (endpoint : WebhookEndpoint) :
    shapeAndCheckOrRaise payload.members endpoint =
      (shapeAndCheck payload endpoint).map fun shaped => (shaped.1.members, shaped.2) := by
  have hallowed : (if endpoint.piiAllowlist.truthy
        then applyAllowlistOrRaise payload.members endpoint.piiAllowlist else .ok payload.members) =
      (if endpoint.piiAllowlist.truthy
        then applyAllowlist payload endpoint.piiAllowlist else .ok payload).map
          Payload.members := by
    split
    · exact applyAllowlistOrRaise_eq payload _
    · rfl
  have hdenied : ∀ result : Payload, (if endpoint.piiDenylist.truthy
        then applyDenylistOrRaise result.members endpoint.piiDenylist else .ok result.members) =
      (if endpoint.piiDenylist.truthy
        then applyDenylist result endpoint.piiDenylist else .ok result).map Payload.members := by
    intro result
    split
    · exact applyDenylistOrRaise_eq result _
    · rfl
  rw [shapeAndCheck_eq, shapeAndCheckOrRaise_steps, hallowed]
  cases (if endpoint.piiAllowlist.truthy then applyAllowlist payload endpoint.piiAllowlist
    else .ok payload) with
  | error e => rfl
  | ok result =>
    simp only [Except.map, Except.bind, hdenied]
    cases (if endpoint.piiDenylist.truthy then applyDenylist result endpoint.piiDenylist
      else .ok result) <;> rfl

/-! ## Lists that validation accepts -/

/-- The elements of a stored list. -/
def elements : Json → List Json
  | .arr items => items
  | _ => []

/-- Every element of the list is a string. -/
def onlyStrings (list : Json) : Bool := (elements list).all fun v => (asString v).isSome

/-- `clean` lets arrays through, and `None`. -/
theorem lists_of_clean {endpoint : WebhookEndpoint} (h : endpoint.clean = .ok ()) :
    (endpoint.piiAllowlist = .null ∨ ∃ items, endpoint.piiAllowlist = .arr items) ∧
      (endpoint.piiDenylist = .null ∨ ∃ items, endpoint.piiDenylist = .arr items) := by
  unfold WebhookEndpoint.clean at h
  repeat' split at h
  all_goals cases h
  all_goals simp [*]

theorem mapM_asString_isSome (items : List Json) :
    (items.mapM asString).isSome = items.all fun v => (asString v).isSome := by
  induction items with
  | nil => rfl
  | cons v items ih =>
    rw [List.mapM_cons, List.all_cons, ← ih]
    cases asString v with
    | none => rfl
    | some s => cases items.mapM asString <;> rfl

/-- The loop over such a list runs through exactly if there are only strings in it. -/
theorem paths_isSome_iff {list : Json} (h : list = .null ∨ ∃ items, list = .arr items) :
    (paths list).isSome ↔ onlyStrings list := by
  rcases h with rfl | ⟨items, rfl⟩
  · exact iff_of_true rfl rfl
  · cases items with
    | nil => exact iff_of_true rfl rfl
    | cons v items =>
      change ((v :: items).mapM asString).isSome ↔ _
      rw [mapM_asString_isSome]
      rfl

/-- An endpoint that `clean` accepts is shaped without an exception exactly if its lists hold only
strings. -/
theorem shapes_iff_onlyStrings {endpoint : WebhookEndpoint} (h : endpoint.clean = .ok ())
    (payload : Payload) :
    (∃ shaped shouldSend,
        shapeAndCheckOrRaise payload.members endpoint = .ok (shaped, shouldSend)) ↔
      onlyStrings endpoint.piiAllowlist ∧ onlyStrings endpoint.piiDenylist := by
  obtain ⟨hallow, hdeny⟩ := lists_of_clean h
  rw [← paths_isSome_iff hallow, ← paths_isSome_iff hdeny, shapeAndCheckOrRaise_eq]
  constructor
  · rintro ⟨shaped, shouldSend, hshape⟩
    by_contra hraises
    rw [← Option.ne_none_iff_isSome, ← Option.ne_none_iff_isSome, not_and_or, not_not,
      not_not] at hraises
    obtain ⟨e, he⟩ := shapeAndCheck_raises hraises
    rw [he] at hshape
    cases hshape
  · rintro ⟨hallow, hdeny⟩
    obtain ⟨allowlist, hallow⟩ := Option.isSome_iff_exists.mp hallow
    obtain ⟨denylist, hdeny⟩ := Option.isSome_iff_exists.mp hdeny
    obtain ⟨shaped, hshape, -⟩ :=
      shapeAndCheck_shaped payload (endpoint.withLists allowlist denylist) rfl rfl
    refine ⟨shaped.members, shouldSendPassingEvent shaped.members endpoint.onlyOnPassing, ?_⟩
    rw [shapeAndCheck_paths payload hallow hdeny, hshape]
    rfl

/-- An endpoint that sends the data without the course key and nothing else. -/
def reticentEndpoint : WebhookEndpoint :=
  { newEndpoint with
    piiAllowlist := pathList ["data"], piiDenylist := pathList ["data.course_key"] }

theorem shapes_iff_onlyStrings_reticent : ∃ shaped shouldSend,
    shapeAndCheckOrRaise (enrolled "ada@example.com").members reticentEndpoint =
      .ok (shaped, shouldSend) :=
  (shapes_iff_onlyStrings
    (by simp [WebhookEndpoint.clean, reticentEndpoint, newEndpoint, pathList])
    (enrolled "ada@example.com")).mpr ⟨rfl, rfl⟩

/-- An endpoint whose allowlist holds a number. -/
def numberedEndpoint : WebhookEndpoint := { newEndpoint with piiAllowlist := .arr [.int 1] }

/-- It is accepted, every attempt for it ends in an exception, and nothing is recorded. -/
theorem numberedEndpoint_raises : numberedEndpoint.clean = .ok () ∧
    shapeAndCheckOrRaise [] numberedEndpoint = .error .attributeError ∧
      let run := (deliverWebhook emptyLib {} emptyJob 0).exec database acceptance
        { endpoint := numberedEndpoint }
      run.value = .raised .attributeError ∧ run.store.attempts = [] := by
  refine ⟨?_, rfl, rfl, rfl⟩
  simp [WebhookEndpoint.clean, numberedEndpoint, newEndpoint]

end WebhookRelay
