import WebhookRelay.Delivery.Accounting
import WebhookRelay.System.Conduct

/-!
# The books of the deployment

For the deliveries of one correlation id to one endpoint the log is counted: deliveries that
were started, messages that the broker took back, terminal rows, attempts that found the
endpoint disabled, attempts that ended by an exception and retries that the broker refused.
Workers keep two balances, the broker keeps a third, and together they say that no delivery is
settled twice.

## Main results

* `books_balance` — in every interleaving the deliveries settled, lost or waiting are at most
  those started or taken back, and exactly as many when no worker is in the middle of a turn.
-/

namespace WebhookRelay

open Interleaving Program Messaging

/-! ## What is counted -/

namespace Books

section Messages

variable (wanted : Message → Bool)

@[simp] def published : Event deployment → Bool
  | ⟨.publish message, publication⟩ => wanted message && publication.arrives
  | _ => false

def reserved : Event deployment → Bool
  | ⟨.reserve, some (_, message)⟩ => wanted message
  | _ => false

def takenBack : Event deployment → Bool
  | ⟨.redeliver, some message⟩ => wanted message
  | _ => false

end Messages

section Delivery

variable (pk : Nat) (correlationId : String)

/-- The first attempt of a delivery was published. -/
@[simp] def started : Event deployment → Bool
  | ⟨.publish message, publication⟩ =>
    message.isFor pk correlationId && message.retries = 0 && publication.arrives
  | _ => false

/-- A retry was published. -/
@[simp] def resumed : Event deployment → Bool
  | ⟨.publish message, publication⟩ =>
    message.isFor pk correlationId && message.retries ≠ 0 && publication.arrives
  | _ => false

/-- A retry was to be published, and the broker has not got it. -/
@[simp] def lost : Event deployment → Bool
  | ⟨.publish message, publication⟩ =>
    message.isFor pk correlationId && message.retries ≠ 0 && !publication.arrives
  | _ => false

/-- A retry was published or lost. -/
def passed (ev : Event deployment) : Bool :=
  resumed pk correlationId ev || lost pk correlationId ev

/-- An attempt found no enabled endpoint. -/
@[simp] def dropped : Event deployment → Bool
  | ⟨.statement message .getEnabled, .ok none⟩ => message.isFor pk correlationId
  | _ => false

/-- An attempt wrote a terminal row. -/
@[simp] def concluded : Event deployment → Bool
  | ⟨.statement message (.createAttempt row), true⟩ =>
    message.isFor pk correlationId && row.status.terminal
  | _ => false

/-- An attempt wrote a row that announces a retry. -/
@[simp] def retried : Event deployment → Bool
  | ⟨.statement message (.createAttempt row), true⟩ =>
    message.isFor pk correlationId && !row.status.terminal
  | _ => false

/-- An attempt ended by an exception before it wrote a row. -/
@[simp] def failed : Event deployment → Bool
  | ⟨.acknowledge _ message (.failure error), _⟩ =>
    message.isFor pk correlationId && error ≠ .inl .doesNotExist
  | _ => false

/-- The delivery is settled. -/
def settled (ev : Event deployment) : Bool :=
  concluded pk correlationId ev || dropped pk correlationId ev || failed pk correlationId ev

/-- An attempt has got its outcome. -/
def decided (ev : Event deployment) : Bool :=
  settled pk correlationId ev || retried pk correlationId ev

end Delivery

/-! ## The balances of a worker -/

/-- The worker holds such a message. -/
def attends (wanted : Message → Bool) (progress : WorkerProgress) : Bool :=
  progress.holding.any fun delivery => wanted delivery.2

/-- The attempt has no outcome yet. -/
def undecided (pk : Nat) (correlationId : String) (progress : WorkerProgress) : Nat :=
  (attends (Message.isFor pk correlationId) progress && progress.attempt.fate.isNone).toNat

/-- The retry that was announced is neither published nor lost yet. -/
def owed (pk : Nat) (correlationId : String) (progress : WorkerProgress) : Nat :=
  (attends (Message.isFor pk correlationId) progress &&
    progress.attempt.fate = some (.recorded .retrying) && !progress.passedOn).toNat

variable {wanted : Message → Bool} {pk : Nat} {correlationId : String} {lib : Primitives}
  {progress : WorkerProgress}

@[simp] theorem reserved_reserve (delivery : Option (Nat × Message)) :
    reserved wanted ⟨.reserve, delivery⟩ = delivery.any fun delivery => wanted delivery.2 := by
  cases delivery <;> rfl

@[simp] theorem takenBack_redeliver (message : Option Message) :
    takenBack wanted ⟨.redeliver, message⟩ = message.any wanted := by
  cases message <;> rfl

@[simp] theorem undecided_idle : undecided pk correlationId {} = 0 := rfl

@[simp] theorem owed_idle : owed pk correlationId {} = 0 := rfl

/-- Whatever a worker does, the messages that it has taken are decided or undecided. -/
theorem undecided_track (op : SystemOp) (answer : op.Answer) (h : progress.permits lib op) :
    undecided pk correlationId (progress.track ⟨op, answer⟩) +
        (decided pk correlationId ⟨op, answer⟩).toNat =
      undecided pk correlationId progress +
        (reserved (Message.isFor pk correlationId) ⟨op, answer⟩).toNat := by
  cases op with
  | reserve =>
    obtain rfl : progress = {} := h
    cases answer with
    | none => rfl
    | some delivery =>
      simp [undecided, attends, WorkerProgress.track, decided, settled, reserved]
  | statement message op =>
    obtain ⟨⟨tag, hholding⟩, hpermits, -⟩ := h
    cases op with
    | getEnabled =>
      have hfresh : progress.attempt = {} := hpermits
      rcases answer with e | _ | endpoint <;> simp [undecided, attends, hholding, hfresh,
        WorkerProgress.track, Op.read, AttemptProgress.track, decided, settled, reserved]
    | createAttempt row =>
      obtain ⟨hfate, -⟩ := hpermits
      cases answer with
      | false => rfl
      | true =>
        cases hterminal : row.status.terminal <;> simp [undecided, attends, hholding, hfate,
          WorkerProgress.track, Op.read, AttemptProgress.track, decided, settled, reserved,
          hterminal]
    | refreshFailures => cases answer <;> rfl
    | _ => rfl
  | publish next => rfl
  | acknowledge tag message state =>
    obtain ⟨hholding, -, hreports⟩ := h
    cases state with
    | success =>
      obtain ⟨-, fate, hfate, -⟩ := hreports
      simp [undecided, hfate, attends, WorkerProgress.track, decided, settled, reserved]
    | retry | rejected =>
      simp [undecided, hreports.2, attends, WorkerProgress.track, decided, settled, reserved]
    | failure error =>
      by_cases hrow : error = .inl .doesNotExist
      · subst hrow
        obtain ⟨-, status, hfate, -⟩ := hreports
        simp [undecided, hfate, attends, WorkerProgress.track, decided, settled, reserved]
      · have hfate : progress.attempt.fate = none := by
          rcases error with (_ | _) | _
          · exact absurd rfl hrow
          · exact hreports.2
          · exact hreports.2
        simp [undecided, hfate, attends, hholding, WorkerProgress.track, decided, settled,
          reserved, hrow]
  | _ => exact h.elim

/-- Nothing is owed when the attempt is over. -/
theorem owed_of_reports {state : TaskState} (h : progress.Reports state) :
    owed pk correlationId progress = 0 := by
  rcases state with _ | _ | _ | ((_ | _) | error)
  case success =>
    obtain ⟨-, fate, hfate, hfinal⟩ := h
    simp [owed, hfate, hfinal]
  case retry => simp [owed, h.1]
  case rejected => simp [owed, h.1]
  case failure.inl.doesNotExist =>
    obtain ⟨-, status, hfate, hfinal⟩ := h
    simp [owed, hfate, hfinal]
  case failure.inl.integrityError => simp [owed, h.2]
  case failure.inr => simp [owed, h.2]

/-- Whatever a worker does, the retries that it has announced are published, lost or owed. -/
theorem owed_track (op : SystemOp) (answer : op.Answer) (h : progress.permits lib op) :
    owed pk correlationId (progress.track ⟨op, answer⟩) +
        (passed pk correlationId ⟨op, answer⟩).toNat =
      owed pk correlationId progress + (retried pk correlationId ⟨op, answer⟩).toNat := by
  cases op with
  | reserve =>
    obtain rfl : progress = {} := h
    cases answer <;> simp [owed, attends, WorkerProgress.track, passed]
  | statement message op =>
    obtain ⟨⟨tag, hholding⟩, hpermits, hpassedOn⟩ := h
    cases op with
    | getEnabled =>
      have hfresh : progress.attempt = {} := hpermits
      rcases answer with e | _ | endpoint <;> simp [owed, attends, hholding, hfresh,
        WorkerProgress.track, Op.read, AttemptProgress.track, passed]
    | createAttempt row =>
      obtain ⟨hfate, -⟩ := hpermits
      cases answer with
      | false => rfl
      | true =>
        simp [owed, attends, hholding, hfate, hpassedOn, WorkerProgress.track, Op.read,
          AttemptProgress.track, AttemptStatus.terminal, passed]
    | refreshFailures => cases answer <;> rfl
    | _ => rfl
  | publish next =>
    obtain ⟨tag, message, hholding, hnext, hpassedOn, hfate, -⟩ := h
    cases answer <;> simp [owed, attends, hholding, hfate, hpassedOn, WorkerProgress.track,
      hnext.isFor, hnext.retries, passed, Publication.arrives]
  | acknowledge tag message state =>
    have hidle : progress.track ⟨.acknowledge tag message state, answer⟩ = {} := rfl
    rw [hidle, owed_of_reports h.2.2]
    rfl
  | _ => exact h.elim

end Books

open Books

/-! ## The balance of the broker -/

theorem execute_broker (outside : Outside) (pk : Nat) (op : Op) (s : Deployment) :
    (execute outside pk op s).2.broker = s.broker := by
  cases op with
  | setHalfOpen =>
    rw [execute]
    split <;> rfl
  | createAttempt row =>
    rw [execute]
    split <;> rfl
  | getEnabled =>
    rw [execute]
    split <;> rfl
  | _ => rfl

section Deployed

variable {ι : Type} [DecidableEq ι] {site : Site} {duties : ι → Duty} {s : Deployment}
  {G : Config deployment ι Deployment Unit → Label Circumstances Intervention ι → Prop}
  {c : Config deployment ι Deployment Unit}

/-- The messages that wait are those that were published or taken back and not handed out. -/
theorem broker_balance (wanted : Message → Bool) (hs : s.broker = .empty)
    (h : (deployed site duties).Reaches G (boot site duties s) c) :
    total (reserved wanted) c.log + c.store.broker.ready.countP wanted =
      total (published wanted) c.log + total (takenBack wanted) c.log := by
  refine h.account (I := fun s log => total (reserved wanted) log + s.broker.ready.countP wanted =
    total (published wanted) log + total (takenBack wanted) log) ?_ ?_ ?_
  · simp [boot, hs, Broker.empty]
  · intro c i e op rest _ _ ih
    simp only [total_snoc]
    generalize c.store = s at ih ⊢
    cases op with
    | publish message =>
      have hcount := s.broker.countP_publish message wanted
      cases harrives : e.publication.arrives
      · simpa [deployed, serve, harrives, reserved, takenBack] using ih
      · simp [deployed, serve, hcount, harrives, reserved, takenBack]
        omega
    | reserve =>
      have hcount := s.broker.countP_reserve e.place wanted
      simp only [deployed, serve, reserved_reserve, published, takenBack, Bool.toNat_false]
      omega
    | redeliver =>
      have hcount := s.broker.countP_redeliver e.place wanted
      simp only [deployed, serve, takenBack_redeliver, published, reserved, Bool.toNat_false]
      omega
    | statement message op =>
      simpa [deployed, serve, execute_broker, reserved, takenBack] using ih
    | acknowledge tag message state => exact ih
    | _ => simpa [deployed, serve, reserved, takenBack] using ih
  · intro s log a ih
    cases a <;> exact ih

/-! ## The balances together -/

/-- A process that runs no attempts never holds a message. -/
theorem progressIn_bystander {i : ι} (hduty : duties i ≠ .worker)
    (log : List (ι × Event deployment)) : progressIn site duties i log = {} := by
  have hconduct : (duties i).conduct site = bystanding := by
    cases hi : duties i <;> first | rfl | exact absurd hi hduty
  induction log using List.reverseRecOn with
  | nil => rfl
  | append_singleton log entry ih =>
    obtain ⟨j, ev⟩ := entry
    rw [progressIn, System.ghost_snoc, hconduct] at *
    split
    · exact ih
    · exact ih

/-- What a worker's operations keep of a balance, every process keeps. -/
theorem balance_of_track {w : WorkerProgress → Nat} {p q : Event deployment → Bool}
    (hidle : w {} = 0)
    (hworker : ∀ progress op answer, WorkerProgress.permits site.lib progress op →
      w (progress.track ⟨op, answer⟩) + (p ⟨op, answer⟩).toNat =
        w progress + (q ⟨op, answer⟩).toNat)
    (hothers : ∀ op answer, bystanding.permits {} op →
      (p ⟨op, answer⟩).toNat = (q ⟨op, answer⟩).toNat)
    (h : (deployed site duties).Reaches G (boot site duties s) c) (i : ι) :
    (part i c.log).countP p + w (progressIn site duties i c.log) = (part i c.log).countP q := by
  refine h.balance rfl (fun i => (duties i).follows_program site) again_follows (fun _ => hidle)
    (fun i progress op answer hpermits => ?_) i
  cases hduty : duties i with
  | worker =>
    rw [hduty] at hpermits
    exact hworker progress op answer hpermits
  | _ =>
    rw [hduty] at hpermits
    exact congrArg (w progress + ·) (hothers op answer hpermits)

/-- No worker is in the middle of a turn. -/
def Quiescent (site : Site) (duties : ι → Duty) (c : Config deployment ι Deployment Unit) : Prop :=
  ∀ i, duties i = .worker →
    c.program i = .ret () ∨ c.program i = work site.lib site.settings

theorem progressIn_quiescent (h : (deployed site duties).Reaches G (boot site duties s) c)
    (hquiet : Quiescent site duties c) (i : ι) : progressIn site duties i c.log = {} := by
  by_cases hduty : duties i = .worker
  · have hfollows := conduct_follows h i
    rw [hduty] at hfollows
    rcases hquiet i hduty with hret | hstart
    · rw [hret] at hfollows
      exact hfollows
    · rw [hstart] at hfollows
      exact hfollows.1
  · exact progressIn_bystander hduty c.log

section Balances

variable (pk : Nat) (correlationId : String)

theorem decided_balance (h : (deployed site duties).Reaches G (boot site duties s) c) (i : ι) :
    (part i c.log).countP (decided pk correlationId) +
        undecided pk correlationId (progressIn site duties i c.log) =
      (part i c.log).countP (reserved (Message.isFor pk correlationId)) := by
  refine balance_of_track rfl (fun _ => undecided_track) (fun op answer hpermits => ?_) h i
  cases op <;> first | rfl | exact hpermits.elim

theorem passed_balance (h : (deployed site duties).Reaches G (boot site duties s) c) (i : ι) :
    (part i c.log).countP (passed pk correlationId) +
        owed pk correlationId (progressIn site duties i c.log) =
      (part i c.log).countP (retried pk correlationId) := by
  refine balance_of_track rfl (fun _ => owed_track) (fun op answer hpermits => ?_) h i
  cases op with
  | publish message =>
    have hfirst : message.retries = 0 := hpermits
    simp [passed, hfirst]
  | _ => first | rfl | exact hpermits.elim

end Balances

omit [DecidableEq ι] in
theorem total_published (pk : Nat) (correlationId : String) (log : List (ι × Event deployment)) :
    total (published (Message.isFor pk correlationId)) log =
      total (started pk correlationId) log + total (resumed pk correlationId) log := by
  rw [← total_or]
  · congr 1
    funext ev
    obtain ⟨op, answer⟩ := ev
    cases op with
    | publish message => by_cases hfirst : message.retries = 0 <;> simp [hfirst]
    | _ => rfl
  · rintro ev h
    unfold resumed at h
    split at h
    · simp_all
    · cases h

omit [DecidableEq ι] in
theorem total_passed (pk : Nat) (correlationId : String) (log : List (ι × Event deployment)) :
    total (passed pk correlationId) log =
      total (resumed pk correlationId) log + total (lost pk correlationId) log := by
  rw [← total_or]
  · rfl
  · rintro ev h
    unfold lost at h
    split at h
    · simp_all
    · cases h

omit [DecidableEq ι] in
theorem total_decided (pk : Nat) (correlationId : String) (log : List (ι × Event deployment)) :
    total (decided pk correlationId) log =
      total (settled pk correlationId) log + total (retried pk correlationId) log := by
  rw [← total_or]
  · rfl
  · rintro ev h
    unfold retried at h
    split at h
    · simp_all [settled]
    · cases h

section Settled

variable (pk : Nat) (correlationId : String)

/-- What is settled, lost or waits was begun before. -/
theorem settled_le (hs : s.broker = .empty)
    (h : (deployed site duties).Reaches G (boot site duties s) c) :
    total (settled pk correlationId) c.log + total (lost pk correlationId) c.log +
        c.store.broker.ready.countP (Message.isFor pk correlationId) ≤
      total (started pk correlationId) c.log +
        total (takenBack (Message.isFor pk correlationId)) c.log := by
  have hbroker := broker_balance (Message.isFor pk correlationId) hs h
  have hpublished := total_published pk correlationId c.log
  have hdecisions := total_decided pk correlationId c.log
  have hpasses := total_passed pk correlationId c.log
  have hdecided := total_le_of_parts fun i => Nat.le.intro (decided_balance pk correlationId h i)
  have hpassed := total_le_of_parts fun i => Nat.le.intro (passed_balance pk correlationId h i)
  omega

/-- What was begun is settled, lost or waits, when no worker is in the middle of a turn. -/
theorem settled_eq (hs : s.broker = .empty)
    (h : (deployed site duties).Reaches G (boot site duties s) c)
    (hquiet : Quiescent site duties c) :
    total (settled pk correlationId) c.log + total (lost pk correlationId) c.log +
        c.store.broker.ready.countP (Message.isFor pk correlationId) =
      total (started pk correlationId) c.log +
        total (takenBack (Message.isFor pk correlationId)) c.log := by
  have hbroker := broker_balance (Message.isFor pk correlationId) hs h
  have hpublished := total_published pk correlationId c.log
  have hdecisions := total_decided pk correlationId c.log
  have hpasses := total_passed pk correlationId c.log
  have hdecided :
      total (decided pk correlationId) c.log =
        total (reserved (Message.isFor pk correlationId)) c.log :=
    total_eq_of_parts fun i => by
      have hi := decided_balance pk correlationId h i
      rwa [progressIn_quiescent h hquiet, undecided_idle, Nat.add_zero] at hi
  have hpassed : total (passed pk correlationId) c.log = total (retried pk correlationId) c.log :=
    total_eq_of_parts fun i => by
      have hi := passed_balance pk correlationId h i
      rwa [progressIn_quiescent h hquiet, owed_idle, Nat.add_zero] at hi
  omega

end Settled

/-- No delivery is settled twice: in every interleaving the deliveries to an endpoint under one
correlation id that are settled, lost or wait are at most those that were started or whose message
was taken back; they are exactly as many when no worker is in the middle of a turn. -/
theorem books_balance (site : Site) (duties : ι → Duty) (s : Deployment) (hs : s.broker = .empty)
    (h : (deployed site duties).Reaches (fun _ _ => True) (boot site duties s) c) (pk : Nat)
    (correlationId : String) :
    let accounted := total (settled pk correlationId) c.log + total (lost pk correlationId) c.log +
      c.store.broker.ready.countP (Message.isFor pk correlationId)
    let begun := total (started pk correlationId) c.log +
      total (takenBack (Message.isFor pk correlationId)) c.log
    accounted ≤ begun ∧ (Quiescent site duties c → accounted = begun) :=
  ⟨settled_le pk correlationId hs h, settled_eq pk correlationId hs h⟩

end Deployed

/-- The subscriber cannot be reached, the broker refuses the retry, and the delivery is lost. -/
theorem books_balance_refused : ∃ c,
    (deployed emptySite receiverAndWorker).schedule (boot emptySite receiverAndWorker oneSubscriber)
      (servedOnce 503 7 ++ [refusing 1, onward 503 1]) = some c ∧
    total (settled 1 exampleId) c.log + total (lost 1 exampleId) c.log +
        c.store.broker.ready.countP (Message.isFor 1 exampleId) =
      total (started 1 exampleId) c.log + total (takenBack (Message.isFor 1 exampleId)) c.log ∧
    total (lost 1 exampleId) c.log = 1 := by
  have hrun : ((deployed emptySite receiverAndWorker).schedule
      (boot emptySite receiverAndWorker oneSubscriber)
        (servedOnce 503 7 ++ [refusing 1, onward 503 1])).map
        (fun c => (total (lost 1 exampleId) c.log,
          [(c.program 0).returned?, (c.program 1).returned?])) = some (1, [some (), some ()]) := by
    decide +kernel
  obtain ⟨c, hc, hresult⟩ := Option.map_eq_some_iff.mp hrun
  simp only [Prod.mk.injEq, List.cons.injEq, returned?_eq_some, and_true] at hresult
  obtain ⟨hlost, hreceiver, hworker⟩ := hresult
  have hquiet : Quiescent emptySite receiverAndWorker c :=
    Fin.forall_fin_two.mpr ⟨fun _ => .inl hreceiver, fun _ => .inl hworker⟩
  exact ⟨c, hc, (books_balance emptySite receiverAndWorker oneSubscriber rfl
    (System.reaches_of_schedule hc .refl) 1 exampleId).2 hquiet, hlost⟩

end WebhookRelay
