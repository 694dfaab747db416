import WebhookRelay.System.Accounting

/-!
# No delivery gets lost unnoticed

A message leaves the broker only when its worker acknowledges or rejects it, and by then the
attempt for it has settled the delivery, or has published the next attempt or failed to. So of the
deliveries that were started as many are with the broker, settled or lost in that way, whatever
order the processes run in and wherever workers stop for good.

## Main results

* `delivery_not_lost` — the deliveries started are with the broker, are settled, or have lost
  their next attempt.
-/

namespace WebhookRelay

open Interleaving Program Messaging Books

section Deployed

variable {ι : Type} [DecidableEq ι] {site : Site} {duties : ι → Duty} {s : Deployment}
  {G : Config deployment ι Deployment Unit → Label Circumstances Intervention ι → Prop}
  {c : Config deployment ι Deployment Unit}

/-! ## The broker from step to step -/

theorem issued_serve {message : Message} {tag : Nat} (e : Circumstances) (op : SystemOp)
    (s : Deployment) (h : s.broker.Issued tag message) :
    (serve e op s).2.broker.Issued tag message := by
  cases op with
  | publish other =>
    rw [serve]
    split
    · exact h
    · exact h
  | reserve => exact h.reserve
  | redeliver => exact h.redeliver
  | acknowledge tag' other state => exact h.acknowledge tag'
  | statement other op => exact (execute_broker ..).symm ▸ h
  | _ => exact h

theorem intervene_broker (a : Intervention) (s : Deployment) :
    (intervene a s).broker = s.broker := by
  cases a <;> rfl

/-! ## What workers hold -/

theorem track_holding {progress : WorkerProgress} {op : SystemOp} {answer : op.Answer}
    {delivery : Nat × Message} (h : (progress.track ⟨op, answer⟩).holding = some delivery) :
    progress.holding = some delivery ∨
      (⟨op, answer⟩ : Event deployment) = ⟨.reserve, some delivery⟩ := by
  cases op with
  | reserve => exact .inr (congrArg (Event.mk (S := deployment) SystemOp.reserve) h)
  | statement message op =>
    refine .inl ?_
    rw [WorkerProgress.track] at h
    split at h <;> exact h
  | acknowledge tag message state => cases h
  | _ => exact .inl h

theorem holding_snoc {i j : ι} {log : List (ι × Event deployment)} {ev : Event deployment}
    {delivery : Nat × Message}
    (h : (progressIn site duties i (log ++ [(j, ev)])).holding = some delivery) :
    (progressIn site duties i log).holding = some delivery ∨ ev = ⟨.reserve, some delivery⟩ := by
  rw [progressIn_snoc] at h
  split at h
  · cases hduty : duties i with
    | worker =>
      rw [hduty] at h
      exact track_holding h
    | _ =>
      rw [hduty] at h
      exact .inl h
  · exact .inl h

/-- Only workers acknowledge messages. -/
theorem worker_of_acknowledge {duty : Duty} {progress : WorkerProgress} {tag : Nat}
    {message : Message} {state : TaskState}
    (h : (duty.conduct site).permits progress (.acknowledge tag message state)) :
    duty = .worker ∧ progress.permits site.lib (.acknowledge tag message state) := by
  cases duty with
  | worker => exact ⟨rfl, h⟩
  | _ => exact h.elim

/-- The tag under which a worker holds a message was given to it for this message. -/
theorem issued_holding (h : (deployed site duties).Reaches G (boot site duties s) c) :
    ∀ i tag message, (progressIn site duties i c.log).holding = some (tag, message) →
      c.store.broker.Issued tag message := by
  refine h.account (I := fun s log => ∀ i tag message,
    (progressIn site duties i log).holding = some (tag, message) →
      s.broker.Issued tag message) ?_ ?_ ?_
  · simp [boot, progressIn]
  · intro c j e op rest _ _ ih i tag message hholding
    rcases holding_snoc hholding with hbefore | hreserve
    · exact issued_serve e op c.store (ih i tag message hbefore)
    · obtain ⟨rfl, hanswer⟩ := Event.mk.inj hreserve
      exact Broker.issued_reserve (eq_of_heq hanswer)
  · intro s log a ih i tag message hholding
    change (intervene a s).broker.Issued tag message
    rw [intervene_broker]
    exact ih i tag message hholding

/-- A message for the task was published. -/
def Published (log : List (ι × Event deployment)) (message : Message) : Prop :=
  ∃ i publication, publication.arrives ∧ (i, ⟨.publish message, publication⟩) ∈ log

omit [DecidableEq ι] in
theorem Published.mono {log log' : List (ι × Event deployment)} {message : Message}
    (h : Published log message) (hsub : log ⊆ log') : Published log' message := by
  obtain ⟨i, publication, harrives, hmem⟩ := h
  exact ⟨i, publication, harrives, hsub hmem⟩

omit [DecidableEq ι] in
theorem Published.snoc {log : List (ι × Event deployment)} {message : Message}
    (h : Published log message) (entry : ι × Event deployment) :
    Published (log ++ [entry]) message := h.mono (List.subset_append_left ..)

/-! ## Messages that leave the broker -/

/-- A worker is done with such a message. -/
def acknowledged (wanted : Message → Bool) : Event deployment → Bool
  | ⟨.acknowledge _ message _, _⟩ => wanted message
  | _ => false

/-- The messages that were published are with the broker, or workers are done with them. -/
theorem published_le (wanted : Message → Bool)
    (h : (deployed site duties).Reaches G (boot site duties s) c) :
    total (published wanted) c.log ≤
      c.store.broker.held wanted + total (acknowledged wanted) c.log := by
  refine h.account (I := fun s log => total (published wanted) log ≤
    s.broker.held wanted + total (acknowledged wanted) log) (by simp [boot]) ?_ ?_
  · intro c i e op rest hr hp ih
    simp only [total_snoc]
    cases op with
    | publish message =>
      have hcount := c.store.broker.held_publish message wanted
      cases harrives : e.publication.arrives
      · simpa [deployed, serve, harrives, acknowledged] using ih
      · simp [deployed, serve, hcount, harrives, acknowledged]
        omega
    | reserve => simpa [deployed, serve, acknowledged, Broker.held_reserve] using ih
    | redeliver => simpa [deployed, serve, acknowledged, Broker.held_redeliver] using ih
    | acknowledge tag message state =>
      -- the tag is that of the worker's own message
      obtain ⟨-, hpermits⟩ := worker_of_acknowledge (conduct_permitted hr hp)
      have hcount := (issued_holding hr i tag message hpermits.1).held_acknowledge wanted
      simp only [deployed, serve, published, acknowledged, Bool.toNat_false]
      omega
    | statement message op => simpa [deployed, serve, execute_broker, acknowledged] using ih
    | _ => simpa [deployed, serve, acknowledged] using ih
  · intro s log a ih
    cases a <;> exact ih

/-! ## What workers are done with -/

section Delivery

variable (pk : Nat) (correlationId : String)

/-- The worker has settled the delivery of its message, or has published or lost the retry. -/
def doneWith (progress : WorkerProgress) : Nat :=
  (attends (Message.isFor pk correlationId) progress &&
    (progress.passedOn || progress.attempt.fate.any fun fate =>
      fate ≠ .recorded .retrying)).toNat

/-- The delivery of a message is settled, or its retry is published or lost. -/
def movedOn (ev : Event deployment) : Bool :=
  settled pk correlationId ev || passed pk correlationId ev

variable {pk correlationId} {lib : Primitives} {progress : WorkerProgress}

/-- A worker is done with a message when its delivery has moved on. -/
theorem doneWith_track (op : SystemOp) (answer : op.Answer) (h : progress.permits lib op) :
    doneWith pk correlationId (progress.track ⟨op, answer⟩) +
        (acknowledged (Message.isFor pk correlationId) ⟨op, answer⟩).toNat =
      doneWith pk correlationId progress + (movedOn pk correlationId ⟨op, answer⟩).toNat := by
  cases op with
  | reserve =>
    obtain rfl : progress = {} := h
    cases answer <;> simp [doneWith, attends, WorkerProgress.track, acknowledged, movedOn, settled,
      passed]
  | statement message op =>
    obtain ⟨⟨tag, hholding⟩, hpermits, hpassedOn⟩ := h
    cases op with
    | getEnabled =>
      have hfresh : progress.attempt = {} := hpermits
      rcases answer with e | _ | endpoint <;> simp [doneWith, attends, hholding, hfresh, hpassedOn,
        WorkerProgress.track, Op.read, AttemptProgress.track, acknowledged, movedOn, settled, passed]
    | createAttempt row =>
      obtain ⟨hfate, -⟩ := hpermits
      cases answer with
      | false => rfl
      | true =>
        cases hterminal : row.status.terminal <;> simp_all [doneWith, attends, WorkerProgress.track,
          Op.read, AttemptProgress.track, acknowledged, movedOn, settled, passed,
          AttemptStatus.terminal]
    | refreshFailures => cases answer <;> rfl
    | _ => rfl
  | publish next =>
    obtain ⟨tag, message, hholding, hnext, hpassedOn, hfate, -⟩ := h
    cases answer <;> simp [doneWith, attends, hholding, hfate, hpassedOn, WorkerProgress.track,
      hnext.isFor, hnext.retries, acknowledged, movedOn, settled, passed, Publication.arrives]
  | acknowledge tag message state =>
    obtain ⟨hholding, -, hreports⟩ := h
    rcases state with _ | _ | _ | ((_ | _) | error)
    case success =>
      obtain ⟨-, fate, hfate, hfinal⟩ := hreports
      simp [doneWith, attends, hholding, hfate, hfinal, WorkerProgress.track, acknowledged, movedOn,
        settled, passed]
    case retry =>
      simp [doneWith, attends, hholding, hreports.1, WorkerProgress.track, acknowledged, movedOn,
        settled, passed]
    case rejected =>
      simp [doneWith, attends, hholding, hreports.1, WorkerProgress.track, acknowledged, movedOn,
        settled, passed]
    case failure.inl.doesNotExist =>
      obtain ⟨-, status, hfate, hfinal⟩ := hreports
      simp [doneWith, attends, hholding, hfate, hfinal, WorkerProgress.track, acknowledged, movedOn,
        settled, passed]
    case failure.inl.integrityError =>
      simp [doneWith, attends, hreports.1, hreports.2, WorkerProgress.track, acknowledged, movedOn,
        settled, passed]
    case failure.inr =>
      simp [doneWith, attends, hreports.1, hreports.2, WorkerProgress.track, acknowledged, movedOn,
        settled, passed]
  | _ => exact h.elim

variable (pk correlationId)

theorem doneWith_balance (h : (deployed site duties).Reaches G (boot site duties s) c) (i : ι) :
    (part i c.log).countP (acknowledged (Message.isFor pk correlationId)) +
        doneWith pk correlationId (progressIn site duties i c.log) =
      (part i c.log).countP (movedOn pk correlationId) := by
  refine balance_of_track rfl (fun _ => doneWith_track) (fun op answer hpermits => ?_) h i
  cases op with
  | publish message =>
    have hfirst : message.retries = 0 := hpermits
    simp [acknowledged, movedOn, settled, passed, hfirst]
  | _ => first | rfl | exact hpermits.elim

omit [DecidableEq ι] in
theorem total_movedOn (log : List (ι × Event deployment)) :
    total (movedOn pk correlationId) log =
      total (settled pk correlationId) log + total (passed pk correlationId) log := by
  rw [← total_or]
  · rfl
  · rintro ⟨op, answer⟩ h
    cases op with
    | publish message => rfl
    | _ => simp [passed] at h

end Delivery

/-- No delivery is lost unnoticed: in every interleaving, also when workers stop for good in the
middle of an attempt or the broker hands messages out again, the deliveries that were started are
at most as many as the messages that the broker has for them, those settled by a terminal row, an
endpoint that was disabled or deleted or an exception before the row, and those whose announced
retry could not be published. -/
theorem delivery_not_lost (site : Site) (duties : ι → Duty) (s : Deployment)
    (h : (deployed site duties).Reaches (fun _ _ => True) (boot site duties s) c) (pk : Nat)
    (correlationId : String) :
    total (started pk correlationId) c.log ≤
      c.store.broker.held (Message.isFor pk correlationId) +
        total (settled pk correlationId) c.log + total (lost pk correlationId) c.log := by
  have hpublished := total_published pk correlationId c.log
  have hbroker := published_le (Message.isFor pk correlationId) h
  have hdone := total_le_of_parts fun i => Nat.le.intro (doneWith_balance pk correlationId h i)
  have hmoved := total_movedOn pk correlationId c.log
  have hpasses := total_passed pk correlationId c.log
  omega

end Deployed

/-- The worker stops for good in the middle of its attempt. -/
theorem delivery_not_lost_abandoned : ∃ c,
    (deployed emptySite receiverAndWorker).schedule (boot emptySite receiverAndWorker oneSubscriber)
      (servedOnce 200 5) = some c ∧ 1 ≤ c.store.broker.held (Message.isFor 1 exampleId) := by
  have hrun : ((deployed emptySite receiverAndWorker).schedule
      (boot emptySite receiverAndWorker oneSubscriber) (servedOnce 200 5)).map
        (fun c => (total (started 1 exampleId) c.log, total (settled 1 exampleId) c.log,
          total (lost 1 exampleId) c.log)) = some (1, 0, 0) := by
    decide +kernel
  obtain ⟨c, hc, hcounts⟩ := Option.map_eq_some_iff.mp hrun
  simp only [Prod.mk.injEq] at hcounts
  obtain ⟨hstarted, hsettled, hlost⟩ := hcounts
  have h := delivery_not_lost emptySite receiverAndWorker oneSubscriber
    (System.reaches_of_schedule hc .refl) 1 exampleId
  exact ⟨c, hc, by omega⟩

end WebhookRelay
