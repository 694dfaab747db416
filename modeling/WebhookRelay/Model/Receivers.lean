import WebhookRelay.Model.Deployment

/-!
# The event receivers

`_process_event` of `receivers.py` and the two receivers that call it. The data of an event and
its metadata are given as `asdict` serialises them.
-/

namespace WebhookRelay

open Interleaving Process Dictionary

/-- What a signal carries: the data with the name of its type, and the metadata if there is
any. -/
structure EventData where
  dataType : String
  data : Json
  metadata : Option Json
  data_wellFormed : data.WellFormed
  metadata_wellFormed : ∀ v ∈ metadata, v.WellFormed

/-- `{data_type: …, "event_metadata": …}`; without metadata `asdict` raises. -/
def EventData.rawPayload (event : EventData) : Option Payload :=
  match h : event.metadata with
  | none => none
  | some metadata => some {
      members := set [(event.dataType, event.data)] "event_metadata" metadata
      wellFormed := by
        have hdata : Json.WellFormed (.obj [(event.dataType, event.data)]) :=
          .obj (by simp [keys]) (by simpa using event.data_wellFormed)
        exact hdata.set _ (event.metadata_wellFormed metadata h) }

/-- Call `deliver_webhook.delay` for every message, one after the other. The exception of a
publication that fails is the caller's, and the rest is not published. -/
def publishEach : List Message → Process Unit
  | [] => .ret ()
  | message :: messages => .call (.publish message) fun
    | .confirmed => publishEach messages
    | _ => .ret ()

/-- `_process_event`. -/
def processEvent (eventName : String) (event : EventData) : Process Unit := do
  let pks ← endpointIds eventName
  if pks.isEmpty then return
  let correlationId ← uuid4
  match event.rawPayload with
  | none => return -- the exception is the sender's
  | some rawPayload =>
    publishEach (pks.map fun endpointId =>
      { endpointId, event := eventName, rawPayload, correlationId })

/-- The messages for the endpoints that were found. -/
def EventData.messages (event : EventData) (eventName : String) (pks : List Nat)
    (correlationId : String) : List Message :=
  match event.rawPayload with
  | none => []
  | some rawPayload => pks.map fun endpointId =>
    { endpointId, event := eventName, rawPayload, correlationId }

theorem EventData.mem_messages {event : EventData} {eventName correlationId : String}
    {pks : List Nat} {message : Message}
    (h : message ∈ event.messages eventName pks correlationId) :
    message.endpointId ∈ pks ∧ message.event = eventName ∧
      message.correlationId = correlationId ∧ message.retries = 0 ∧
      event.rawPayload = some message.rawPayload := by
  unfold messages at h
  split at h
  · cases h
  · next hraw =>
    obtain ⟨pk, hpk, rfl⟩ := List.mem_map.mp h
    exact ⟨hpk, rfl, rfl, rfl, hraw⟩

/-- Besides the metadata an event has the key of its data. -/
theorem EventData.keys_rawPayload {event : EventData} {raw : Payload}
    (h : event.rawPayload = some raw) :
    ∀ key ∈ keys raw.members, key = event.dataType ∨ key = "event_metadata" := by
  unfold rawPayload at h
  split at h
  · cases h
  · obtain rfl := Option.some.inj h
    intro key hkey
    obtain ⟨e, he, rfl⟩ := List.mem_map.mp hkey
    rcases mem_set he with rfl | he
    · exact .inr rfl
    · obtain rfl := List.mem_singleton.mp he
      exact .inl rfl

/-- `_process_event` as a tree of calls. -/
theorem processEvent_eq (eventName : String) (event : EventData) :
    processEvent eventName event = .call (.endpointIds eventName) fun pks =>
      if pks.isEmpty then .ret () else .call .uuid4 fun correlationId =>
        publishEach (event.messages eventName pks correlationId) := by
  simp only [processEvent, endpointIds, uuid4, Program.call_bind, Program.ret_bind]
  congr; funext pks
  split
  · rfl
  · congr; funext correlationId
    unfold EventData.messages
    cases event.rawPayload <;> rfl

/-- `course_passing_status_updated_receiver`. -/
def coursePassingStatusUpdatedReceiver (coursePassingStatus : EventData) : Process Unit :=
  processEvent "COURSE_PASSING_STATUS_UPDATED" coursePassingStatus

/-- `ccx_course_passing_status_updated_receiver`. -/
def ccxCoursePassingStatusUpdatedReceiver (coursePassingStatus : EventData) : Process Unit :=
  processEvent "CCX_COURSE_PASSING_STATUS_UPDATED" coursePassingStatus

end WebhookRelay
