import WebhookRelay.Library.Parts
import WebhookRelay.System.Attempts

/-!
# What every process does

The progress of a worker is computed from its operations: the message that it holds, how far the
attempt for it has come, and whether a retry was published. `Duty.conduct` says which operations
each process performs when. The books of the deployment are derived from this; nothing after it
looks into the programs again, except for what a query answers.
-/

namespace WebhookRelay

open Interleaving Program

/-- How far a worker has come with its message. -/
structure WorkerProgress where
  holding : Option (Nat × Message) := none
  attempt : AttemptProgress := {}
  /-- the publication of a retry was tried -/
  passedOn : Bool := false

/-- The message is the next one of the same delivery. -/
structure Message.Succeeds (next message : Message) : Prop where
  endpointId : next.endpointId = message.endpointId
  event : next.event = message.event
  correlationId : next.correlationId = message.correlationId
  retries : next.retries = message.retries + 1

theorem Message.again_succeeds (message : Message) (rawPayload : Payload) :
    (message.again (message.retries + 1) rawPayload).Succeeds message := ⟨rfl, rfl, rfl, rfl⟩

theorem Message.Succeeds.isFor {next message : Message} (h : next.Succeeds message)
    (endpointId : Nat) (correlationId : String) :
    next.isFor endpointId correlationId = message.isFor endpointId correlationId := by
  simp [Message.isFor, h.endpointId, h.correlationId]

namespace WorkerProgress

def track (progress : WorkerProgress) : Event deployment → WorkerProgress
  | ⟨.reserve, delivery⟩ => { holding := delivery }
  | ⟨.statement _ op, reply⟩ => match op.read reply with
    | .ok answer => { progress with attempt := progress.attempt.track ⟨op, answer⟩ }
    | .error _ => progress
  | ⟨.publish _, _⟩ => { progress with passedOn := true }
  | ⟨.acknowledge _ _ _, _⟩ => {}
  | _ => progress

/-- What the state that a worker reports says of the attempt. Only the exception about the count
of failures leaves a row behind. -/
def Reports (progress : WorkerProgress) : TaskState → Prop
  | .success => progress.passedOn = false ∧
      ∃ fate, progress.attempt.fate = some fate ∧ fate ≠ .recorded .retrying
  | .retry | .rejected =>
    progress.passedOn ∧ progress.attempt.fate = some (.recorded .retrying)
  | .failure (.inl .doesNotExist) => progress.passedOn = false ∧
      ∃ status, progress.attempt.fate = some (.recorded status) ∧ status ≠ .retrying
  | .failure _ => progress.passedOn = false ∧ progress.attempt.fate = none

/-- The operations of a worker. -/
def permits (lib : Primitives) (progress : WorkerProgress) : SystemOp → Prop
  | .reserve => progress = {}
  | .statement message op => (∃ tag, progress.holding = some (tag, message)) ∧
      progress.attempt.permits lib message op ∧ progress.passedOn = false
  | .publish next => ∃ tag message, progress.holding = some (tag, message) ∧
      next.Succeeds message ∧ progress.passedOn = false ∧
      progress.attempt.fate = some (.recorded .retrying) ∧ progress.attempt.unreported = none ∧
      ∃ endpoint, progress.attempt.loaded = some endpoint ∧
        next.rawPayload = message.rawPayload.leftBy endpoint
  | .acknowledge tag message state => progress.holding = some (tag, message) ∧
      progress.attempt.unreported = none ∧ progress.Reports state
  | _ => False

def course (lib : Primitives) : Discipline deployment WorkerProgress := ⟨track, permits lib⟩

end WorkerProgress

/-- The rule of a process that runs no attempts: what it publishes is a first attempt. -/
def bystanding : Discipline deployment WorkerProgress where
  track progress _ := progress
  permits _
    | .publish message => message.retries = 0
    | .reserve | .acknowledge _ _ _ | .statement _ _ => False
    | _ => True

def Duty.conduct (site : Site) : Duty → Discipline deployment WorkerProgress
  | .worker => WorkerProgress.course site.lib
  | _ => bystanding

/-- A process that has come to its end holds no message. -/
def Idle (progress : WorkerProgress) (_ : Unit) : Prop := progress = {}

/-! ## Workers -/

namespace WorkerProgress

variable {lib : Primitives} {message : Message} {progress : WorkerProgress} {tag : Nat}

/-- The worker runs an attempt for the message, which has come this far. -/
structure Attending (tag : Nat) (message : Message) (attempt : AttemptProgress)
    (progress : WorkerProgress) : Prop where
  holding : progress.holding = some (tag, message)
  attempt : progress.attempt = attempt
  passedOn : progress.passedOn = false

/-- What an attempt has made of the raw payload of its message. -/
def Leaves (message : Message) (attempt : AttemptProgress) (left : Payload) : Prop :=
  left = attempt.loaded.elim message.rawPayload message.rawPayload.leftBy

/-- What a worker knows when an attempt has ended. -/
def Concluded (tag : Nat) (message : Message) (progress : WorkerProgress) :
    Except DatabaseError (TaskEnd × Payload) → Prop
  | .error e => Attending tag message progress.attempt progress ∧
      progress.attempt.unreported = none ∧ progress.Reports (.failure (.inl e))
  | .ok (finish, left) => Attending tag message progress.attempt progress ∧
      progress.attempt.Ended message finish ∧ Leaves message progress.attempt left

/-- Every statement of an attempt keeps the worker's progress in step with the attempt's. -/
theorem follows_perform {attempt : AttemptProgress} {op : Op}
    (h : Attending tag message attempt progress) (hpermits : attempt.permits lib message op) :
    (perform (α := TaskEnd × Payload) message op).Follows (course lib)
      (fun progress => caught (Concluded tag message progress) fun answer =>
        Attending tag message (attempt.track ⟨op, answer⟩) progress) progress := by
  refine ⟨⟨⟨tag, h.holding⟩, h.attempt ▸ hpermits, h.passedOn⟩, fun reply => ?_⟩
  rw [follows_ret]
  change caught _ _ ((op.read reply).mapError _)
  cases hread : op.read reply with
  | ok answer =>
    have htrack : (course lib).track progress ⟨.statement message op, reply⟩ =
        { progress with attempt := attempt.track ⟨op, answer⟩ } := by
      simp [course, track, hread, h.attempt]
    rw [htrack]
    exact ⟨h.holding, rfl, h.passedOn⟩
  | error e =>
    have htrack : (course lib).track progress ⟨.statement message op, reply⟩ = progress := by
      simp [course, track, hread]
    rw [htrack]
    have hattending : Attending tag message progress.attempt progress :=
      ⟨h.holding, rfl, h.passedOn⟩
    cases op with
    | createAttempt row =>
      obtain ⟨hfate, hreported, -, -⟩ := hpermits
      cases reply with
      | true => cases hread
      | false =>
        cases hread
        exact ⟨hattending, h.attempt ▸ hreported, h.passedOn, h.attempt ▸ hfate⟩
    | refreshFailures =>
      obtain ⟨hreported, hfate⟩ := hpermits
      cases reply with
      | some failures => cases hread
      | none =>
        cases hread
        exact ⟨hattending, h.attempt ▸ hreported, h.passedOn, h.attempt ▸ hfate⟩
    | _ => cases hread

/-- Only the load of the endpoint changes the raw payload. -/
theorem leaves_track {attempt : AttemptProgress} {left : Payload} {op : Op} {answer : op.Answer}
    (h : Leaves message attempt left) (hpermits : attempt.permits lib message op) :
    Leaves message (attempt.track ⟨op, answer⟩) (leaveBehind left ⟨op, answer⟩) := by
  cases op with
  | getEnabled =>
    obtain rfl : attempt = {} := hpermits
    rcases answer with e | _ | endpoint
    · exact h
    · exact h
    · exact congrArg (Payload.leftBy · endpoint) h
  | _ => exact h

theorem follows_runAttempt (settings : Settings)
    (h : Attending tag message {} progress) :
    (runAttempt lib settings message).Follows (course lib) (Concluded tag message) progress := by
  have htracked := follows_tracked leaveBehind (R := Leaves message)
    (fun attempt left op answer h hpermits => leaves_track h hpermits) message.rawPayload
    (AttemptProgress.follows_deliverWebhook lib settings message) rfl
  refine follows_translate_of (R := fun attempt progress => Attending tag message attempt progress)
    (fun attempt progress op h hpermits => follows_perform h hpermits)
    (fun attempt progress result h hended => ?_) htracked h
  obtain rfl := h.attempt
  exact ⟨h, hended⟩

theorem follows_concludeTask {result : Except DatabaseError (TaskEnd × Payload)}
    (h : progress.Concluded tag message result) :
    (concludeTask tag message result).Follows (course lib) Idle progress := by
  match result with
  | .error e =>
    obtain ⟨hattending, hreported, hreports⟩ := h
    exact ⟨⟨hattending.holding, hreported, hreports⟩, fun _ => rfl⟩
  | .ok (.raised e, left) =>
    obtain ⟨hattending, hended, -⟩ := h
    exact ⟨⟨hattending.holding, hended.reported, hattending.passedOn, hended.raised e rfl⟩,
      fun _ => rfl⟩
  | .ok (.returned, left) =>
    obtain ⟨hattending, hended, -⟩ := h
    exact ⟨⟨hattending.holding, hended.reported, hattending.passedOn, hended.returned rfl⟩,
      fun _ => rfl⟩
  | .ok (.retry retries countdown, left) =>
    obtain ⟨hattending, hended, hleaves⟩ := h
    obtain ⟨hfate, rfl, hloaded⟩ := hended.retry retries countdown rfl
    obtain ⟨endpoint, hendpoint⟩ := Option.isSome_iff_exists.mp hloaded
    rw [Leaves, hendpoint] at hleaves
    refine ⟨⟨tag, message, hattending.holding, message.again_succeeds left, hattending.passedOn,
      hfate, hended.reported, endpoint, hendpoint, hleaves⟩, fun publication => ?_⟩
    cases publication with
    | confirmed => exact ⟨⟨hattending.holding, hended.reported, rfl, hfate⟩, fun _ => rfl⟩
    | _ => exact ⟨⟨hattending.holding, hended.reported, rfl, hfate⟩, fun _ => rfl⟩

theorem follows_work (lib : Primitives) (settings : Settings) :
    (work lib settings).Follows (course lib) Idle {} := by
  refine ⟨rfl, fun delivery => ?_⟩
  match delivery with
  | none => exact rfl
  | some (tag, message) =>
    exact (follows_runAttempt settings ⟨rfl, rfl, rfl⟩).bind fun progress result h =>
      follows_concludeTask h

end WorkerProgress

/-! ## The other processes -/

section Bystanding

variable {progress : WorkerProgress}

theorem bystanding_publishEach {messages : List Message} (h : ∀ m ∈ messages, m.retries = 0)
    (hidle : Idle progress ()) : (publishEach messages).Follows bystanding Idle progress := by
  induction messages with
  | nil => exact hidle
  | cons m messages ih =>
    refine ⟨h m List.mem_cons_self, fun publication => ?_⟩
    cases publication with
    | confirmed => exact ih fun m hm => h m (List.mem_cons_of_mem _ hm)
    | _ => exact hidle

theorem bystanding_processEvent (eventName : String) (event : EventData) :
    (processEvent eventName event).Follows bystanding Idle {} := by
  rw [processEvent_eq]
  refine ⟨trivial, fun (pks : List Nat) => ?_⟩
  beta_reduce
  split
  · exact rfl
  · exact ⟨trivial, fun correlationId =>
      bystanding_publishEach (fun m hm => (EventData.mem_messages hm).2.2.2.1) rfl⟩

theorem retries_of_message? {enqueued : List Enqueued} :
    ∀ m ∈ enqueued.filterMap Enqueued.message?, m.retries = 0 := by
  intro m hm
  obtain ⟨e, -, he⟩ := List.mem_filterMap.mp hm
  obtain ⟨payload, -, rfl⟩ := Option.map_eq_some_iff.mp he
  rfl

theorem bystanding_redeliver (options : RedeliverOptions) (file : Option Json) :
    (redeliver options file).Follows bystanding Idle {} := by
  rw [redeliver_eq]
  refine ⟨trivial, fun (attempts : List WebhookDeliveryAttempt) =>
    bystanding_publishEach (fun m hm => ?_) rfl⟩
  unfold redelivered at hm
  split at hm
  · cases hm
  · exact retries_of_message? m hm

theorem bystanding_purge (settings : RetentionSettings) (days : Option Int)
    (status : Option AttemptStatus) (dryRun : Bool) :
    (purgeOldDeliveryAttempts settings days status dryRun).Follows bystanding
      (fun progress _ => progress = {}) {} := by
  refine ⟨trivial, fun (time : Time) => ⟨trivial, fun (matched : Nat) => ?_⟩⟩
  change Follows _ _ (if dryRun || matched = 0 then _ else _) _
  split
  · exact rfl
  · exact ⟨trivial, fun _ => rfl⟩

end Bystanding

/-! ## Every process -/

theorem Duty.follows_program (site : Site) (duty : Duty) :
    (duty.program site).Follows (duty.conduct site) Idle {} := by
  cases duty with
  | receiver eventName event => exact bystanding_processEvent eventName event
  | worker => exact WorkerProgress.follows_work site.lib site.settings
  | visibilityTimeout => exact ⟨trivial, fun _ => rfl⟩
  | redeliver options file => exact bystanding_redeliver options file
  | requeue selects =>
    exact ⟨trivial, fun _ => bystanding_publishEach retries_of_message? rfl⟩
  | purgeCommand options =>
    exact (bystanding_purge site.retention _ _ _).bind fun _ _ h => h
  | purgeTask =>
    change Follows _ _ ((if !site.retention.autoPurgeEnabled then _ else _) >>= _) _
    split
    · exact rfl
    · have hsome : (purgeOldDeliveryAttempts site.retention none none false >>= fun result =>
          return some result).Follows bystanding (fun progress _ => progress = {}) {} :=
        (bystanding_purge site.retention _ _ _).bind fun _ _ h => h
      exact hsome.bind fun _ _ h => h

section Deployed

variable {ι : Type} [DecidableEq ι] {site : Site} {duties : ι → Duty} {s : Deployment}
  {G : Config deployment ι Deployment Unit → Label Circumstances Intervention ι → Prop}
  {c : Config deployment ι Deployment Unit}

/-- How far a process has come. -/
def progressIn (site : Site) (duties : ι → Duty) (i : ι) (log : List (ι × Event deployment)) :
    WorkerProgress :=
  System.ghost ((duties i).conduct site) {} i log

theorem progressIn_snoc (i j : ι) (log : List (ι × Event deployment)) (ev : Event deployment) :
    progressIn site duties i (log ++ [(j, ev)]) =
      if j = i then ((duties i).conduct site).track (progressIn site duties i log) ev
      else progressIn site duties i log :=
  System.ghost_snoc ..

omit [DecidableEq ι] in
theorem again_follows (i : ι) (progress : WorkerProgress) (value : Unit) (p : Process Unit)
    (h : Idle progress value) (hlaunch : (deployed site duties).relaunch i value = some p) :
    p.Follows ((duties i).conduct site) Idle progress := by
  simp only [deployed, Option.ite_none_right_eq_some, Option.some.injEq] at hlaunch
  obtain ⟨-, rfl⟩ := hlaunch
  rw [show progress = {} from h]
  exact (duties i).follows_program site

/-- In every interleaving every process keeps to its rule. -/
theorem conduct_follows (h : (deployed site duties).Reaches G (boot site duties s) c) (i : ι) :
    (c.program i).Follows ((duties i).conduct site) Idle (progressIn site duties i c.log) :=
  h.follows rfl (fun i => (duties i).follows_program site) again_follows i

/-- Every operation is performed by a process that its rule permits it. -/
theorem conduct_permitted (h : (deployed site duties).Reaches G (boot site duties s) c) {i : ι}
    {op : SystemOp} {rest : op.Answer → Process Unit} (hp : c.program i = .call op rest) :
    ((duties i).conduct site).permits (progressIn site duties i c.log) op := by
  have hfollows := conduct_follows h i
  rw [hp] at hfollows
  exact hfollows.1

end Deployed

end WebhookRelay
