import WebhookRelay.Model.Json

/-!
# Signing and payload filtering

The functions of `security.py`. Functions that mutate a dictionary in place return the
dictionary they leave. `None` is `Json.null`, so `payload.get(key)` is `valueAt`.

The lists of paths are the JSON values stored on the endpoint. Iterating over one is
`iterate`; a path that is no string raises at its first string method.
-/

namespace WebhookRelay

open Dictionary

/-- The exceptions a delivery can end with, by what raised them. -/
inductive PyError where
  | attributeError
  | typeError
  | improperlyConfigured (message : String)
  | secretsManagerError
  | requestException (message : String)
  | retryableDeliveryError (message : String) (httpStatusCode : Nat)
  | dataError
  deriving DecidableEq

/-- What the code takes from `hashlib`, `hmac` and `float.__repr__`. -/
structure Primitives where
  floatRepr : UInt64 → String
  sha256Hexdigest : String → String
  hmacSha256Hexdigest : String → String → String

/-! ## Signing and hashing -/

/-- `sign_payload`: the digest under the secret, with its algorithm as prefix. -/
def signPayload (lib : Primitives) (payloadBytes secret : String) : String :=
  "sha256=" ++ lib.hmacSha256Hexdigest secret payloadBytes

/-- `serialize_payload`: the bytes are ASCII, so they are given as text. -/
def serializePayload (lib : Primitives) (payload : Payload) : String :=
  (Json.obj payload.members).dumps lib.floatRepr

/-- `payload_fingerprint`: the first sixteen digits of the hash of the bytes. -/
def payloadFingerprint (lib : Primitives) (payload : Payload) : String :=
  String.ofList ((lib.sha256Hexdigest (serializePayload lib payload)).toList.take 16)

/-! ## Dotted paths -/

/-- `dotted_path.split(".")`. -/
def segments (dottedPath : String) : List String :=
  (dottedPath.toList.splitOn '.').map String.ofList

/-- The rest of `path` after `key` and a dot, if `path.startswith(f"{key}.")`. -/
def subPath (key path : String) : Option String :=
  (path.toList.dropPrefix? (key.toList ++ ['.'])).map String.ofList

/-- `payload.get(key)`. -/
def valueAt (payload : Members) (key : String) : Json := (payload.lookup key).getD .null

/-- `_event_data_key`: the first top-level key that is not the metadata. -/
def eventDataKey (payload : Members) : Option String :=
  (keys payload).find? fun key => key ≠ "event_metadata"

/-- `_get_nested_value`. -/
def getNestedValue (root : Json) (dottedPath : String) : Json :=
  if dottedPath = "" then root else root.descend (segments dottedPath)

/-- `_set_nested_value`; a root that is no dictionary is never given a path. -/
def setNestedValue (root : Json) (dottedPath : String) (value : Json) : Json :=
  if dottedPath = "" then root else
    match root with
    | .obj ms => .obj (Json.assign ms (segments dottedPath) value)
    | v => v

/-- `_delete_nested_path`. -/
def deleteNestedPath (root : Json) (dottedPath : String) : Json :=
  if dottedPath = "" then root else root.prune (segments dottedPath)

/-- The key that `if data_key:` lets through: the empty key is falsy. -/
def truthyKey (dataKey : Option String) : Option String := dataKey.filter fun key => key ≠ ""

/-- The first key that is a dotted prefix of the path, with the rest of the path. -/
def firstPrefix (path : String) : List String → Option (String × String)
  | [] => none
  | key :: rest => match subPath key path with
    | some sub => some (key, sub)
    | none => firstPrefix path rest

/-! ## Allowlist -/

/-- Copy the value at `key` and `sub` into the result, unless it is missing or `None`. -/
def keepNested (payload result : Members) (key sub : String) : Members :=
  match getNestedValue (valueAt payload key) sub with
  | .null => result
  | value => set result key
      (setNestedValue ((result.lookup key).getD (.obj [])) sub value)

/-- One round of the loop of `apply_allowlist`. -/
def allowPath (payload : Members) (dataKey : Option String) (result : Members)
    (path : String) : Members :=
  if path = "event_metadata" then
    match payload.lookup "event_metadata" with
    | some value => set result "event_metadata" value
    | none => result
  else match subPath "event_metadata" path with
  | some sub => keepNested payload result "event_metadata" sub
  | none =>
    if path = "data" then
      match truthyKey dataKey with
      | some key => set result key (valueAt payload key)
      | none => result
    else match subPath "data" path with
    | some sub => match truthyKey dataKey with
      | some key => keepNested payload result key sub
      | none => result
    | none => match payload.lookup path with
      | some value => set result path value
      | none => match firstPrefix path (keys payload) with
        | some (key, sub) => keepNested payload result key sub
        | none => result

/-! ## Denylist -/

/-- One round of the loop of `apply_denylist`. -/
def denyPath (dataKey : Option String) (payload : Members) (path : String) : Members :=
  if path = "event_metadata" then erase payload "event_metadata"
  else match subPath "event_metadata" path with
  | some sub => modify payload "event_metadata" fun v => deleteNestedPath v sub
  | none =>
    if path = "data" then
      match truthyKey dataKey with
      | some key => erase payload key
      | none => payload
    else match subPath "data" path with
    | some sub => match truthyKey dataKey with
      | some key => modify payload key fun v => deleteNestedPath v sub
      | none => payload
    | none =>
      if path ∈ keys payload then erase payload path
      else match firstPrefix path (keys payload) with
      | some (key, sub) => modify payload key fun v => deleteNestedPath v sub
      | none => payload

/-! ## The rounds keep payloads well formed -/

theorem valueAt_wellFormed {ms : Members} (h : Json.WellFormed (.obj ms)) (key : String) :
    (valueAt ms key).WellFormed := by
  unfold valueAt
  cases hk : ms.lookup key with
  | none => exact .null
  | some v => exact h.lookup hk

theorem getNestedValue_wellFormed {root : Json} (h : root.WellFormed) (path : String) :
    (getNestedValue root path).WellFormed := by
  unfold getNestedValue
  split
  · exact h
  · exact h.descend _

theorem setNestedValue_wellFormed {root value : Json} (hr : root.WellFormed)
    (hv : value.WellFormed) (path : String) : (setNestedValue root path value).WellFormed := by
  unfold setNestedValue
  split
  · exact hr
  · split
    · exact hr.assign _ hv
    · exact hr

theorem deleteNestedPath_wellFormed {root : Json} (h : root.WellFormed) (path : String) :
    (deleteNestedPath root path).WellFormed := by
  unfold deleteNestedPath
  split
  · exact h
  · exact h.prune _

section WellFormed

variable {payload result : Members} (hp : Json.WellFormed (.obj payload))
include hp

theorem keepNested_wellFormed (hr : Json.WellFormed (.obj result)) (key sub : String) :
    Json.WellFormed (.obj (keepNested payload result key sub)) := by
  have hv := getNestedValue_wellFormed (valueAt_wellFormed hp key) sub
  have hroot : ((result.lookup key).getD (.obj [])).WellFormed := by
    cases hk : result.lookup key with
    | none => exact .obj (by simp [keys]) (by simp)
    | some v => exact hr.lookup hk
  unfold keepNested
  split
  · exact hr
  · exact hr.set key (setNestedValue_wellFormed hroot hv sub)

theorem allowPath_wellFormed (dataKey : Option String) (hr : Json.WellFormed (.obj result))
    (path : String) : Json.WellFormed (.obj (allowPath payload dataKey result path)) := by
  unfold allowPath
  repeat' split
  all_goals first
    | exact hr
    | exact keepNested_wellFormed hp hr _ _
    | exact hr.set _ (hp.lookup ‹_›)
    | exact hr.set _ (valueAt_wellFormed hp _)

theorem denyPath_wellFormed (dataKey : Option String) (path : String) :
    Json.WellFormed (.obj (denyPath dataKey payload path)) := by
  unfold denyPath
  repeat' split
  all_goals first
    | exact hp
    | exact hp.erase _
    | exact hp.modify _ fun v hv => deleteNestedPath_wellFormed hv _

end WellFormed

/-! ## Loops over the stored lists -/

/-- `for path in paths` on a JSON value: numbers, booleans and `None` do not iterate. -/
def iterate : Json → Except PyError (List Json)
  | .arr items => .ok items
  | .obj ms => .ok ((keys ms).map .str)
  | .str s => .ok (s.toList.map fun c => .str (String.singleton c))
  | _ => .error .typeError

/-- A round of a loop whose body starts by using the path as a string. -/
def pathRound {σ : Type} (body : σ → String → σ) (state : σ) : Json → Except PyError σ
  | .str path => .ok (body state path)
  | _ => .error .attributeError

def forEachPath {σ : Type} (body : σ → String → σ) (paths : Json) (start : σ) :
    Except PyError σ :=
  match iterate paths with
  | .error e => .error e
  | .ok items => items.foldlM (pathRound body) start

/-- On a list of strings the loop is a plain fold. -/
@[simp] theorem forEachPath_strings {σ : Type} (body : σ → String → σ) (paths : List String)
    (start : σ) :
    forEachPath body (.arr (paths.map .str)) start = .ok (paths.foldl body start) := by
  simp only [forEachPath, iterate]
  induction paths generalizing start with
  | nil => rfl
  | cons path paths ih => exact ih (body start path)

/-- `apply_allowlist`: the result is built from nothing, path by path. -/
def applyAllowlist (payload : Payload) (allowlist : Json) : Except PyError Payload :=
  if allowlist.truthy then
    forEachPath (fun result path =>
      ⟨allowPath payload.members (eventDataKey payload.members) result.members path,
        allowPath_wellFormed payload.wellFormed _ result.wellFormed path⟩) allowlist .empty
  else .ok payload

/-- `apply_denylist`: the data key is looked up once, before the first deletion. -/
def applyDenylist (payload : Payload) (denylist : Json) : Except PyError Payload :=
  forEachPath (fun remaining path =>
    ⟨denyPath (eventDataKey payload.members) remaining.members path,
      denyPath_wellFormed remaining.wellFormed _ path⟩) denylist payload

/-! ## The pass-only filter -/

/-- The loop of `should_send_passing_event` over the top-level values. -/
def firstPassing : List Json → Bool
  | [] => true
  | .obj ms :: rest => match ms.lookup "is_passing" with
    | none | some .null => firstPassing rest
    | some isPassing => isPassing.truthy
  | _ :: rest => firstPassing rest

/-- `should_send_passing_event`. -/
def shouldSendPassingEvent (payload : Members) (onlyOnPassing : Bool) : Bool :=
  if !onlyOnPassing then true else firstPassing (payload.map Prod.snd)

end WebhookRelay
