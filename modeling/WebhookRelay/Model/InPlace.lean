import WebhookRelay.Library.Objects
import WebhookRelay.Model.Tasks

/-!
# Payload filtering on objects

`apply_allowlist` and `apply_denylist` once more, this time on dictionaries with identity: the
allowlist puts dictionaries of the raw payload into its result, and the denylist deletes from
them in place. The functions take the addresses of the dictionaries and return the memory as
they leave it; values other than dictionaries are never changed and stay as they are.

`shapeObjects` loads a raw payload, runs `_shape_and_check` on it and reads back both the
payload and what has become of the raw one, which Celery hands to the next attempt.
-/

namespace WebhookRelay

open Objects Dictionary

/-- A dictionary by its address, or any other value. -/
abbrev Object := Value String Json

abbrev Memory := Heap String Json

/-- `payload.get(key)`. -/
def getItem (memory : Memory) (object : Address String) (key : String) : Object :=
  ((memory.cells object).lookup key).getD (.leaf .null)

/-- `object[key] = value`. -/
def setItem (memory : Memory) (object : Address String) (key : String) (value : Object) :
    Memory := memory.edit object fun d => set d key value

/-- `object.pop(key, None)`. -/
def popItem (memory : Memory) (object : Address String) (key : String) : Memory :=
  memory.edit object fun d => erase d key

/-- `object[key] = {}`. -/
def setEmpty (memory : Memory) (object : Address String) (key : String) : Memory :=
  setItem (memory.make []) object key (.ref (.made memory.next))

/-- `object.setdefault(key, {})`, with the value that is there afterwards. -/
def setDefault (memory : Memory) (object : Address String) (key : String) : Object × Memory :=
  match (memory.cells object).lookup key with
  | some value => (value, memory)
  | none => (.ref (.made memory.next), setEmpty memory object key)

/-! ## Dotted paths -/

/-- `_get_nested_value`. -/
def getNestedObject (memory : Memory) (root : Object) (dottedPath : String) : Object :=
  if dottedPath = "" then root else (memory.walk root (segments dottedPath)).getD (.leaf .null)

/-- The loop of `_set_nested_value`: dictionaries are made where there are none. -/
def setAlong (memory : Memory) (current : Address String) : List String → Object → Memory
  | [], _ => memory
  | [k], value => setItem memory current k value
  | k :: k' :: ks, value => match (memory.cells current).lookup k with
    | some (.ref child) => setAlong memory child (k' :: ks) value
    | _ => setAlong (setEmpty memory current k) (.made memory.next) (k' :: ks) value

/-- `_set_nested_value`; a root that is no dictionary is never given a path. -/
def setNestedObject (memory : Memory) (root : Object) (dottedPath : String) (value : Object) :
    Memory :=
  if dottedPath = "" then memory else match root with
    | .ref current => setAlong memory current (segments dottedPath) value
    | .leaf _ => memory

/-- The loop of `_delete_nested_path`. -/
def deleteAlong (memory : Memory) : Object → List String → Memory
  | .ref current, [k] => popItem memory current k
  | .ref current, k :: ks => match (memory.cells current).lookup k with
    | some child => deleteAlong memory child ks
    | none => memory
  | _, _ => memory

/-- `_delete_nested_path`. -/
def deleteNestedObject (memory : Memory) (root : Object) (dottedPath : String) : Memory :=
  if dottedPath = "" then memory else deleteAlong memory root (segments dottedPath)

/-! ## The two lists -/

/-- `_event_data_key`. -/
def eventDataKeyOf (memory : Memory) (payload : Address String) : Option String :=
  (keys (memory.cells payload)).find? fun key => key ≠ "event_metadata"

/-- Put the value at `key` and `sub` into the result, unless it is missing or `None`. -/
def keepNestedObject (memory : Memory) (payload result : Address String) (key sub : String) :
    Memory :=
  match getNestedObject memory (getItem memory payload key) sub with
  | .leaf .null => memory
  | value =>
    let (root, memory) := setDefault memory result key
    setNestedObject memory root sub value

/-- One round of the loop of `apply_allowlist`. -/
def allowPathObject (payload result : Address String) (dataKey : Option String)
    (memory : Memory) (path : String) : Memory :=
  if path = "event_metadata" then
    match (memory.cells payload).lookup "event_metadata" with
    | some value => setItem memory result "event_metadata" value
    | none => memory
  else match subPath "event_metadata" path with
  | some sub => keepNestedObject memory payload result "event_metadata" sub
  | none =>
    if path = "data" then
      match truthyKey dataKey with
      | some key => setItem memory result key (getItem memory payload key)
      | none => memory
    else match subPath "data" path with
    | some sub => match truthyKey dataKey with
      | some key => keepNestedObject memory payload result key sub
      | none => memory
    | none => match (memory.cells payload).lookup path with
      | some value => setItem memory result path value
      | none => match firstPrefix path (keys (memory.cells payload)) with
        | some (key, sub) => keepNestedObject memory payload result key sub
        | none => memory

/-- `apply_allowlist`: the address of the result, and the memory. -/
def applyAllowlistObject (memory : Memory) (payload : Address String) (allowlist : Json) :
    Except PyError (Address String × Memory) :=
  if allowlist.truthy then do
    let result := .made memory.next
    let dataKey := eventDataKeyOf memory payload
    let memory ← forEachPath (allowPathObject payload result dataKey) allowlist (memory.make [])
    return (result, memory)
  else .ok (payload, memory)

/-- One round of the loop of `apply_denylist`. -/
def denyPathObject (payload : Address String) (dataKey : Option String) (memory : Memory)
    (path : String) : Memory :=
  if path = "event_metadata" then popItem memory payload "event_metadata"
  else match subPath "event_metadata" path with
  | some sub => deleteNestedObject memory (getItem memory payload "event_metadata") sub
  | none =>
    if path = "data" then
      match truthyKey dataKey with
      | some key => popItem memory payload key
      | none => memory
    else match subPath "data" path with
    | some sub => match truthyKey dataKey with
      | some key => deleteNestedObject memory (getItem memory payload key) sub
      | none => memory
    | none =>
      if path ∈ keys (memory.cells payload) then popItem memory payload path
      else match firstPrefix path (keys (memory.cells payload)) with
      | some (key, sub) => deleteNestedObject memory (getItem memory payload key) sub
      | none => memory

/-- `apply_denylist`. -/
def applyDenylistObject (memory : Memory) (payload : Address String) (denylist : Json) :
    Except PyError Memory :=
  forEachPath (denyPathObject payload (eventDataKeyOf memory payload)) denylist memory

/-- `_shape_and_check` up to the filter: `raw_payload.copy()`, then the two lists. -/
def shapeObject (memory : Memory) (rawPayload : Address String) (endpoint : WebhookEndpoint) :
    Except PyError (Address String × Memory) := do
  let payload := .made memory.next
  let memory := memory.make (memory.cells rawPayload)
  let (payload, memory) ← if endpoint.piiAllowlist.truthy
    then applyAllowlistObject memory payload endpoint.piiAllowlist else .ok (payload, memory)
  let memory ← if endpoint.piiDenylist.truthy
    then applyDenylistObject memory payload endpoint.piiDenylist else .ok memory
  return (payload, memory)

/-! ## Loading and reading -/

/-- The object for a value that is loaded from a location. -/
def loadedAt (loc : List String) : Json → Object
  | .obj _ => .ref (.loaded loc)
  | v => .leaf v

/-- A payload as `json.loads` makes it: a dictionary of its own at every location. -/
def load (payload : Members) : Memory where
  cells
    | .loaded loc => ((Json.obj payload).descend loc).members.map fun e =>
      (e.1, loadedAt (loc ++ [e.1]) e.2)
    | .made _ => []

mutual

/-- How deep the dictionaries are nested. -/
def Json.depth : Json → Nat
  | .obj ms => depthMembers ms + 1
  | _ => 0

def Json.depthMembers : List (String × Json) → Nat
  | [] => 0
  | e :: ms => max e.2.depth (depthMembers ms)

end

/-- The value of an object, down to a depth. -/
def read (memory : Memory) : Nat → Object → Json
  | _, .leaf v => v
  | 0, .ref _ => .null
  | n + 1, .ref a => .obj ((memory.cells a).map fun e => (e.1, read memory n e.2))

/-- The lists of `_shape_and_check` run on a raw payload: the payload and the raw payload as
they are afterwards. -/
def shapeObjects (rawPayload : Members) (endpoint : WebhookEndpoint) :
    Except PyError (Json × Json) := do
  let (payload, memory) ← shapeObject (load rawPayload) (.loaded []) endpoint
  -- an empty dotted path makes an empty dictionary where there may be none
  let depth := (Json.obj rawPayload).depth + 1
  return (read memory depth (.ref payload), read memory depth (.ref (.loaded [])))

end WebhookRelay
