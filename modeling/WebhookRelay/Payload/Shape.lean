import WebhookRelay.Model.Tasks
import WebhookRelay.Payload.Resolution

/-!
# The shaped payload

What is left of a payload after both lists is known without running the loops: at which
locations there is something, and in which order the top-level keys are. The allowlist keeps
what one of its targets keeps. Of that the denylist leaves what none of its targets removes,
and these are resolved against the kept keys, not against the keys of the raw payload.

## Main results

* `shapeAndCheck_shaped` — on lists of strings `_shape_and_check` raises nothing and gives
  the payload that survives both lists.
-/

namespace WebhookRelay

open Dictionary Json

/-- A list of paths as the endpoint stores it. -/
def pathList (paths : List String) : Json := .arr (paths.map .str)

/-! ## What the allowlist keeps -/

def allowTargets (payload : Members) (allowlist : List String) : List Target :=
  allowlist.filterMap (resolvePath (eventDataKey payload) (keys payload))

/-- Only the top-level keys decide where the paths lead. -/
theorem allowTargets_congr {payload payload' : Members} (h : keys payload' = keys payload)
    (allowlist : List String) :
    allowTargets payload' allowlist = allowTargets payload allowlist := by
  rw [allowTargets, allowTargets, eventDataKey, eventDataKey, h]

/-- The top-level keys that the allowlist keeps, in the order in which it does. -/
def keptKeys (payload : Members) (allowlist : List String) : List String :=
  if allowlist = [] then keys payload
  else (allowTargets payload allowlist).foldl (Target.addTo payload) []

/-- The allowlist keeps something at the location. -/
def kept (payload : Members) (allowlist : List String) (loc : List String) : Bool :=
  if allowlist = [] then (obj payload).has loc
  else (allowTargets payload allowlist).any fun t => t.keeps payload loc

/-! ## What the denylist leaves of it -/

/-- The first key that is not the metadata. -/
def dataKeyOf (topKeys : List String) : Option String :=
  topKeys.find? fun key => key ≠ "event_metadata"

/-- The targets of the denylist, each resolved against the keys that those before leave. -/
def denyTargets (dataKey : Option String) : List String → List String → List Target
  | _, [] => []
  | topKeys, path :: paths => match resolvePath dataKey topKeys path with
    | none => denyTargets dataKey topKeys paths
    | some t => t :: denyTargets dataKey (t.removeFrom topKeys) paths

/-- The targets of the denylist in the payload that the allowlist leaves. -/
def deniedTargets (payload : Members) (allowlist denylist : List String) : List Target :=
  denyTargets (dataKeyOf (keptKeys payload allowlist)) (keptKeys payload allowlist) denylist

/-- The location survives both lists. -/
def survives (payload : Members) (allowlist denylist : List String) (loc : List String) : Bool :=
  kept payload allowlist loc &&
    (deniedTargets payload allowlist denylist).all fun t => !t.removes loc

/-- The payload `shaped` is what survives of `payload`. -/
structure Shaped (payload : Members) (allowlist denylist : List String) (shaped : Members) :
    Prop where
  keys : keys shaped =
    (keptKeys payload allowlist).filter fun key => survives payload allowlist denylist [key]
  has : ∀ loc, loc ≠ [] → (obj shaped).has loc = survives payload allowlist denylist loc
  drawn : Drawn payload shaped

/-! ## The loops -/

theorem has_key {payload : Members} {key : String} :
    (obj payload).has [key] ↔ key ∈ keys payload := by
  rw [mem_keys]
  cases h : payload.lookup key <;> simp [has, h]

theorem drawn_nil {payload : Members} : Drawn payload [] := by
  intro loc v hloc hv
  obtain ⟨x, rest, rfl⟩ := List.exists_cons_of_ne_nil hloc
  cases hv

/-- Copying targets keeps what one of them keeps. -/
theorem copies_spec (payload : Members) (targets : List Target) :
    ∀ result, Drawn payload result →
      Drawn payload (targets.foldl (Target.copy payload) result) ∧
      keys (targets.foldl (Target.copy payload) result) =
        targets.foldl (Target.addTo payload) (keys result) ∧
      ∀ loc, loc ≠ [] → (obj (targets.foldl (Target.copy payload) result)).has loc =
        ((obj result).has loc || targets.any fun t => t.keeps payload loc) := by
  induction targets with
  | nil => exact fun result h => ⟨h, rfl, fun loc _ => by simp⟩
  | cons t targets ih =>
    intro result h
    obtain ⟨hdrawn, hkeys, hhas⟩ := ih _ (Target.drawn_copy h t)
    refine ⟨hdrawn, ?_, fun loc hloc => ?_⟩
    · rw [List.foldl_cons, hkeys, Target.keys_copy h, List.foldl_cons]
    · rw [List.foldl_cons, hhas loc hloc, Target.has_copy h t hloc, List.any_cons, Bool.or_assoc]

theorem Target.removeFrom_eq (topKeys : List String) (t : Target) :
    t.removeFrom topKeys = topKeys.filter fun key => !t.removes [key] := by
  obtain ⟨key, _ | sub⟩ := t
  · simp [removeFrom, removes, location, List.isPrefixOf, beq_eq_decide, eq_comm]
  · by_cases hsub : sub = ""
    · simp [removeFrom, removes, hsub]
    · obtain ⟨x, rest, hs⟩ := List.exists_cons_of_ne_nil (segments_ne_nil sub)
      simp [removeFrom, removes, location, List.isPrefixOf, hsub, hs]

theorem drawn_remove {payload result : Members} (h : Drawn payload result) (t : Target) :
    Drawn payload (t.remove result) := by
  intro loc v hloc hv
  have hremove := t.at?_remove result hloc
  rw [hv] at hremove
  split at hremove
  · cases hremove
  · cases hu : (obj result).at? loc with
    | none => rw [hu] at hremove; cases hremove
    | some u =>
      rw [hu] at hremove
      obtain ⟨w, hw, hlike⟩ := h loc u hloc hu
      cases hremove with
      | some hvu =>
        exact ⟨w, hw, hlike.imp hvu.trans fun hdict => ⟨hvu.isDict_eq.trans hdict.1, hdict.2⟩⟩

theorem has_remove (payload : Members) (t : Target) {loc : List String} (hloc : loc ≠ []) :
    (obj (t.remove payload)).has loc = ((obj payload).has loc && !t.removes loc) := by
  have hremove := t.at?_remove payload hloc
  split at hremove
  · next h => simp [has, hremove, h]
  · next h =>
    rw [has, has, isSome_eq_of_rel hremove, Bool.eq_false_iff.mpr h, Bool.not_false, Bool.and_true]

/-- The rounds of the denylist leave what none of its targets removes. -/
theorem denials_spec {payload : Members} (dataKey : Option String) (denylist : List String) :
    ∀ result, Drawn payload result →
      Drawn payload (denylist.foldl (denyPath dataKey) result) ∧
      keys (denylist.foldl (denyPath dataKey) result) = (keys result).filter (fun key =>
        (denyTargets dataKey (keys result) denylist).all fun t => !t.removes [key]) ∧
      ∀ loc, loc ≠ [] → (obj (denylist.foldl (denyPath dataKey) result)).has loc =
        ((obj result).has loc &&
          (denyTargets dataKey (keys result) denylist).all fun t => !t.removes loc) := by
  induction denylist with
  | nil => exact fun result h => ⟨h, by simp [denyTargets], fun loc _ => by simp [denyTargets]⟩
  | cons path denylist ih =>
    intro result h
    rw [List.foldl_cons, denyPath_eq, denyTargets]
    cases resolvePath dataKey (keys result) path with
    | none => exact ih result h
    | some t =>
      obtain ⟨hdrawn, hkeys, hhas⟩ := ih _ (drawn_remove h t)
      rw [Target.keys_remove] at hkeys hhas
      refine ⟨hdrawn, ?_, fun loc hloc => ?_⟩
      · simp only [Option.map_some, Option.getD_some, hkeys]
        rw [Target.removeFrom_eq, List.filter_filter]
        simp [Bool.and_comm]
      · simp only [Option.map_some, Option.getD_some, hhas loc hloc, has_remove result t hloc]
        simp [Bool.and_assoc]

/-! ## The whole of it -/

theorem pathList_truthy (paths : List String) : (pathList paths).truthy = !decide (paths = []) := by
  cases paths <;> rfl

/-- The loop of the allowlist copies its targets. -/
theorem applyAllowlist_pathList (payload : Payload) {allowlist : List String}
    (h : allowlist ≠ []) :
    ∃ result : Payload, applyAllowlist payload (pathList allowlist) = .ok result ∧
      result.members = (allowTargets payload.members allowlist).foldl
        (Target.copy payload.members) [] := by
  rw [applyAllowlist, pathList_truthy, if_pos (by simpa using h)]
  refine ⟨_, forEachPath_strings _ _ _, ?_⟩
  have hrounds : allowlist.foldl (allowPath payload.members (eventDataKey payload.members)) [] =
      (allowTargets payload.members allowlist).foldl (Target.copy payload.members) [] := by
    rw [allowTargets, List.foldl_filterMap]
    congr 1
    funext result path
    rw [allowPath_eq]
    cases resolvePath (eventDataKey payload.members) (keys payload.members) path <;> rfl
  exact (List.foldl_hom Payload.members fun _ _ => rfl).symm.trans hrounds

/-- The loop of the denylist runs its rounds. -/
theorem applyDenylist_pathList (payload : Payload) (denylist : List String) :
    ∃ result : Payload, applyDenylist payload (pathList denylist) = .ok result ∧
      result.members =
        denylist.foldl (denyPath (dataKeyOf (keys payload.members))) payload.members :=
  ⟨_, forEachPath_strings _ _ _, (List.foldl_hom Payload.members fun _ _ => rfl).symm⟩

/-- `_shape_and_check` step by step. -/
theorem shapeAndCheck_eq (payload : Payload) (endpoint : WebhookEndpoint) :
    shapeAndCheck payload endpoint =
      (if endpoint.piiAllowlist.truthy then applyAllowlist payload endpoint.piiAllowlist
        else .ok payload).bind fun result =>
        (if endpoint.piiDenylist.truthy then applyDenylist result endpoint.piiDenylist
          else .ok result).bind fun shaped =>
          .ok (shaped, shouldSendPassingEvent shaped.members endpoint.onlyOnPassing) := by
  unfold shapeAndCheck
  cases endpoint.piiAllowlist.truthy <;> cases endpoint.piiDenylist.truthy <;> rfl

/-- The allowlist's step of `_shape_and_check`. -/
theorem allowed_spec (payload : Payload) (allowlist : List String) :
    ∃ result : Payload,
      (if (pathList allowlist).truthy then applyAllowlist payload (pathList allowlist)
        else .ok payload) = .ok result ∧
      Drawn payload.members result.members ∧
      keys result.members = keptKeys payload.members allowlist ∧
      ∀ loc, loc ≠ [] → (obj result.members).has loc = kept payload.members allowlist loc := by
  rw [pathList_truthy]
  by_cases h : allowlist = []
  · exact ⟨payload, by simp [h], fun loc v _ hv => ⟨v, hv, .inl (.refl v)⟩, by simp [keptKeys, h],
      fun loc _ => by simp [kept, h]⟩
  · obtain ⟨result, hresult, hmembers⟩ := applyAllowlist_pathList payload h
    obtain ⟨hdrawn, hkeys, hhas⟩ := copies_spec payload.members
      (allowTargets payload.members allowlist) [] drawn_nil
    rw [← hmembers] at hdrawn hkeys hhas
    refine ⟨result, by simp [h, hresult], hdrawn, ?_, fun loc hloc => ?_⟩
    · rw [hkeys, keptKeys, if_neg h]
      rfl
    · rw [hhas loc hloc, kept, if_neg h]
      obtain ⟨x, rest, rfl⟩ := List.exists_cons_of_ne_nil hloc
      simp [has]

/-- The denylist's step of `_shape_and_check`. -/
theorem denied_spec (payload : Payload) (denylist : List String) :
    ∃ result : Payload,
      (if (pathList denylist).truthy then applyDenylist payload (pathList denylist)
        else .ok payload) = .ok result ∧
      result.members =
        denylist.foldl (denyPath (dataKeyOf (keys payload.members))) payload.members := by
  cases denylist with
  | nil => exact ⟨payload, rfl, rfl⟩
  | cons path paths => exact applyDenylist_pathList payload (path :: paths)

/-- On lists of strings the payload that survives both lists is shaped, and the filter looks
at that payload. -/
theorem shapeAndCheck_shaped (payload : Payload) (endpoint : WebhookEndpoint)
    {allowlist denylist : List String} (hallow : endpoint.piiAllowlist = pathList allowlist)
    (hdeny : endpoint.piiDenylist = pathList denylist) :
    ∃ shaped : Payload, shapeAndCheck payload endpoint =
        .ok (shaped, shouldSendPassingEvent shaped.members endpoint.onlyOnPassing) ∧
      Shaped payload.members allowlist denylist shaped.members := by
  obtain ⟨result, hresult, hdrawn, hkeys, hhas⟩ := allowed_spec payload allowlist
  obtain ⟨shaped, hshaped, hmembers⟩ := denied_spec result denylist
  obtain ⟨hdrawn', hkeys', hhas'⟩ := denials_spec (dataKeyOf (keys result.members)) denylist
    result.members hdrawn
  rw [← hmembers] at hdrawn' hkeys' hhas'
  rw [hkeys] at hkeys' hhas'
  refine ⟨shaped, ?_, ?_, fun loc hloc => ?_, hdrawn'⟩
  · rw [shapeAndCheck_eq, hallow, hdeny, hresult, Except.bind, hshaped]
    rfl
  · rw [hkeys']
    refine List.filter_congr fun key hkey => ?_
    have hkept : kept payload.members allowlist [key] := by
      rw [← hhas [key] (by simp), has_key, hkeys]
      exact hkey
    simp [survives, hkept, deniedTargets]
  · rw [hhas' loc hloc, hhas loc hloc, survives, deniedTargets]

end WebhookRelay
