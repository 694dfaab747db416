import WebhookRelay.Model.Tasks

/-!
# Shaping with the exceptions of its writes

`_shape_and_check` once more. In `WebhookRelay.Model.Security` a write below a value that is no
dictionary changes nothing; here `_set_nested_value` raises, as the source does. The other
helpers look before they step, and `data_key` is a key of the payload, so nothing else in a round
can raise once the path is a string.
-/

namespace WebhookRelay

open Dictionary

/-- `_set_nested_value`. -/
def setNestedValueOrRaise (root : Json) (dottedPath : String) (value : Json) :
    Except PyError Json :=
  if dottedPath = "" then .ok root else
    match root with
    | .obj ms => .ok (.obj (Json.assign ms (segments dottedPath) value))
    | _ => .error .typeError

/-- Copy the value at `key` and `sub` into the result, unless it is missing or `None`. -/
def keepNestedOrRaise (payload result : Members) (key sub : String) : Except PyError Members :=
  match getNestedValue (valueAt payload key) sub with
  | .null => .ok result
  | value =>
    (setNestedValueOrRaise ((result.lookup key).getD (.obj [])) sub value).map (set result key)

/-- One round of the loop of `apply_allowlist`. -/
def allowPathOrRaise (payload : Members) (dataKey : Option String) (result : Members)
    (path : String) : Except PyError Members :=
  if path = "event_metadata" then
    match payload.lookup "event_metadata" with
    | some value => .ok (set result "event_metadata" value)
    | none => .ok result
  else match subPath "event_metadata" path with
  | some sub => keepNestedOrRaise payload result "event_metadata" sub
  | none =>
    if path = "data" then
      match truthyKey dataKey with
      | some key => .ok (set result key (valueAt payload key))
      | none => .ok result
    else match subPath "data" path with
    | some sub => match truthyKey dataKey with
      | some key => keepNestedOrRaise payload result key sub
      | none => .ok result
    | none => match payload.lookup path with
      | some value => .ok (set result path value)
      | none => match firstPrefix path (keys payload) with
        | some (key, sub) => keepNestedOrRaise payload result key sub
        | none => .ok result

/-- A round of a loop whose body starts by using the path as a string, and may raise itself. -/
def pathRoundOrRaise {σ : Type} (body : σ → String → Except PyError σ) (state : σ) :
    Json → Except PyError σ
  | .str path => body state path
  | _ => .error .attributeError

def forEachPathOrRaise {σ : Type} (body : σ → String → Except PyError σ) (paths : Json)
    (start : σ) : Except PyError σ :=
  match iterate paths with
  | .error e => .error e
  | .ok items => items.foldlM (pathRoundOrRaise body) start

/-- `apply_allowlist`. -/
def applyAllowlistOrRaise (payload : Members) (allowlist : Json) : Except PyError Members :=
  if allowlist.truthy then
    forEachPathOrRaise (allowPathOrRaise payload (eventDataKey payload)) allowlist []
  else .ok payload

/-- `apply_denylist`. -/
def applyDenylistOrRaise (payload : Members) (denylist : Json) : Except PyError Members :=
  forEachPath (denyPath (eventDataKey payload)) denylist payload

/-- `_shape_and_check`. -/
def shapeAndCheckOrRaise (rawPayload : Members) (endpoint : WebhookEndpoint) :
    Except PyError (Members × Bool) := do
  let payload ← if endpoint.piiAllowlist.truthy
    then applyAllowlistOrRaise rawPayload endpoint.piiAllowlist else .ok rawPayload
  let payload ← if endpoint.piiDenylist.truthy
    then applyDenylistOrRaise payload endpoint.piiDenylist else .ok payload
  return (payload, shouldSendPassingEvent payload endpoint.onlyOnPassing)

end WebhookRelay
