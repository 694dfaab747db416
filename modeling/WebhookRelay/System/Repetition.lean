import WebhookRelay.System.Endpoints
import WebhookRelay.System.Provenance

/-!
# How often a delivery is attempted

A message that a worker has taken is good for one request and for one message that succeeds it.
So an attempt is made again only if the delivery was started again, or if the broker has taken
back its message or one before it. The attempts themselves are as many as the endpoint allows
at most.

## Main results

* `found_of_kept` — what edits keep of the row of an endpoint holds whenever it is loaded.
* `requests_bounded` — how many requests a delivery makes, for each of its attempts and in all.
-/

namespace WebhookRelay

open Interleaving Program Messaging Books

/-- The message is for the attempt of the delivery that comes after so many retries. -/
def Message.isRetry (pk : Nat) (correlationId : String) (retries : Nat) (message : Message) :
    Bool :=
  message.isFor pk correlationId && message.retries = retries

theorem Message.Succeeds.isRetry {next message : Message} (h : next.Succeeds message) (pk : Nat)
    (correlationId : String) (retries : Nat) :
    next.isRetry pk correlationId (retries + 1) = message.isRetry pk correlationId retries := by
  simp [Message.isRetry, h.isFor, h.retries]

/-! ## What a message is good for -/

namespace Books

/-- A request was sent. -/
def posted (wanted : Message → Bool) : Event deployment → Bool
  | ⟨.statement message (.post _), _⟩ => wanted message
  | _ => false

theorem eq_of_posted {wanted : Message → Bool} {ev : Event deployment} (h : posted wanted ev) :
    ∃ message request outcome, ev = ⟨.statement message (.post request), outcome⟩ ∧
      wanted message := by
  unfold posted at h
  split at h
  · exact ⟨_, _, _, rfl, h⟩
  · cases h

/-- The worker may still send a request. -/
def unsent (wanted : Message → Bool) (progress : WorkerProgress) : Nat :=
  (attends wanted progress && progress.attempt.outcome.isNone).toNat

/-- The worker may still publish a message. -/
def unspent (wanted : Message → Bool) (progress : WorkerProgress) : Nat :=
  (attends wanted progress && !progress.passedOn).toNat

variable {wanted : Message → Bool} {pk : Nat} {correlationId : String} {lib : Primitives}
  {progress : WorkerProgress}

theorem unsent_track (op : SystemOp) (answer : op.Answer) (h : progress.permits lib op) :
    unsent wanted (progress.track ⟨op, answer⟩) + (posted wanted ⟨op, answer⟩).toNat ≤
      unsent wanted progress + (reserved wanted ⟨op, answer⟩).toNat := by
  cases op with
  | reserve =>
    obtain rfl : progress = {} := h
    simp [unsent, attends, WorkerProgress.track, posted]
  | statement message op =>
    obtain ⟨⟨tag, hholding⟩, hop, -⟩ := h
    cases op with
    | post request =>
      obtain ⟨-, hunsent, -⟩ := hop
      simp [unsent, attends, hholding, hunsent, WorkerProgress.track, Op.read,
        AttemptProgress.track, posted]
    | getEnabled => rcases answer with e | _ | endpoint <;> exact Nat.le_add_right ..
    | createAttempt attempt | refreshFailures => cases answer <;> exact Nat.le_add_right ..
    | _ => exact Nat.le_add_right ..
  | publish next => exact Nat.le_add_right ..
  | acknowledge tag message state => exact Nat.zero_le _
  | _ => exact h.elim

theorem unspent_track (retries : Nat) (op : SystemOp) (answer : op.Answer)
    (h : progress.permits lib op) :
    unspent (Message.isRetry pk correlationId retries) (progress.track ⟨op, answer⟩) +
        (published (Message.isRetry pk correlationId (retries + 1)) ⟨op, answer⟩).toNat ≤
      unspent (Message.isRetry pk correlationId retries) progress +
        (reserved (Message.isRetry pk correlationId retries) ⟨op, answer⟩).toNat := by
  cases op with
  | reserve =>
    obtain rfl : progress = {} := h
    simp [unspent, attends, WorkerProgress.track]
  | statement message op =>
    cases op with
    | createAttempt attempt | refreshFailures => cases answer <;> exact Nat.le_add_right ..
    | _ => exact Nat.le_add_right ..
  | publish next =>
    obtain ⟨tag, message, hholding, hsucceeds, hunspent, -⟩ := h
    cases answer <;> simp [unspent, attends, hholding, hunspent, WorkerProgress.track,
      hsucceeds.isRetry, Publication.arrives]
  | acknowledge tag message state => exact Nat.zero_le _
  | _ => exact h.elim

end Books

section Deployed

variable {ι : Type} [DecidableEq ι] {site : Site} {duties : ι → Duty} {s : Deployment}
  {G : Config deployment ι Deployment Unit → Label Circumstances Intervention ι → Prop}
  {c : Config deployment ι Deployment Unit}

/-- What a worker's operations keep within a budget, the deployment keeps within it. -/
theorem total_le_of_track {w : WorkerProgress → Nat} {p q : Event deployment → Bool}
    (hidle : w {} = 0)
    (hworker : ∀ progress op answer, WorkerProgress.permits site.lib progress op →
      w (progress.track ⟨op, answer⟩) + (p ⟨op, answer⟩).toNat ≤
        w progress + (q ⟨op, answer⟩).toNat)
    (hothers : ∀ op answer, bystanding.permits {} op → p ⟨op, answer⟩ = false)
    (h : (deployed site duties).Reaches G (boot site duties s) c) :
    total p c.log ≤ total q c.log := by
  refine total_le_of_parts fun i => ?_
  refine h.budget rfl (fun i => (duties i).follows_program site) again_follows (fun _ => hidle)
    (fun i progress op answer hpermits => ?_) i
  cases hduty : duties i with
  | worker =>
    rw [hduty] at hpermits
    exact hworker progress op answer hpermits
  | _ =>
    rw [hduty] at hpermits
    rw [hothers op answer hpermits]
    exact Nat.le_add_right ..

theorem posted_le (wanted : Message → Bool)
    (h : (deployed site duties).Reaches G (boot site duties s) c) :
    total (posted wanted) c.log ≤ total (reserved wanted) c.log := by
  refine total_le_of_track rfl (fun _ => unsent_track) (fun op answer hpermits => ?_) h
  cases op <;> first | rfl | exact hpermits.elim

section Attempts

variable (pk : Nat) (correlationId : String)

theorem published_succ_le (retries : Nat)
    (h : (deployed site duties).Reaches G (boot site duties s) c) :
    total (published (Message.isRetry pk correlationId (retries + 1))) c.log ≤
      total (reserved (Message.isRetry pk correlationId retries)) c.log := by
  refine total_le_of_track rfl (fun _ => unspent_track retries) (fun op answer hpermits => ?_) h
  cases op with
  | publish message =>
    have hfirst : message.retries = 0 := hpermits
    simp [Message.isRetry, hfirst]
  | _ => rfl

/-- The messages for an attempt that are handed out: from the first attempt on, each has been
started, succeeds one that was handed out, or was taken back. -/
theorem reserved_le (hs : s.broker = .empty)
    (h : (deployed site duties).Reaches G (boot site duties s) c) (retries : Nat) :
    total (reserved (Message.isRetry pk correlationId retries)) c.log ≤
      total (started pk correlationId) c.log + total (takenBack fun message =>
        message.isFor pk correlationId && message.retries ≤ retries) c.log := by
  induction retries with
  | zero =>
    have hbroker := broker_balance (Message.isRetry pk correlationId 0) hs h
    have hstarted : published (Message.isRetry pk correlationId 0) = started pk correlationId := by
      funext ev
      unfold published started
      rfl
    have hfirst : (Message.isRetry pk correlationId 0) = fun message =>
        message.isFor pk correlationId && decide (message.retries ≤ 0) := by
      funext message
      simp [Message.isRetry]
    rw [hstarted] at hbroker
    rw [← hfirst]
    omega
  | succ retries ih =>
    have hbroker := broker_balance (Message.isRetry pk correlationId (retries + 1)) hs h
    have hpublished := published_succ_le pk correlationId retries h
    have htaken : total (takenBack fun message =>
          message.isFor pk correlationId && decide (message.retries ≤ retries + 1)) c.log =
        total (takenBack fun message =>
          message.isFor pk correlationId && decide (message.retries ≤ retries)) c.log +
        total (takenBack (Message.isRetry pk correlationId (retries + 1))) c.log := by
      rw [← total_or]
      · congr 1
        funext ev
        unfold takenBack
        split
        · next message =>
          simp only [Message.isRetry, ← Bool.and_or_distrib_left, ← Bool.decide_or,
            Nat.le_succ_iff]
        · rfl
      · intro ev hev
        unfold takenBack at hev ⊢
        split at hev
        · simp_all [Message.isRetry]
        · cases hev
    omega

end Attempts

/-! ## What an attempt finds -/

/-- A statement of a delivery changes a row in its circuit only. -/
theorem copies_execute (outside : Outside) (pk pk' : Nat) (op : Op) (s : Deployment) :
    ∃ f : WebhookEndpoint → WebhookEndpoint, (∀ row, (f row).CopyOf row) ∧
      (execute outside pk op s).2.endpoints.get? pk' = (s.endpoints.get? pk').map f := by
  have hsame : ∃ f : WebhookEndpoint → WebhookEndpoint, (∀ row, (f row).CopyOf row) ∧
      s.endpoints.get? pk' = (s.endpoints.get? pk').map f := ⟨id, fun _ => rfl, by simp⟩
  have hupdate (f : WebhookEndpoint → WebhookEndpoint) (hf : ∀ row, (f row).pk = row.pk)
      (hcopy : ∀ row, (f row).CopyOf row) :
      ∃ g : WebhookEndpoint → WebhookEndpoint, (∀ row, (g row).CopyOf row) ∧
        (s.updateEndpoint pk f hf).endpoints.get? pk' = (s.endpoints.get? pk').map g := by
    rw [get?_updateEndpoint]
    split
    · exact ⟨f, hcopy, rfl⟩
    · exact hsame
  cases op with
  | setHalfOpen =>
    rw [execute]
    split
    · exact hupdate _ _ fun _ => rfl
    · exact hsame
  | createAttempt attempt | getEnabled =>
    rw [execute]
    split <;> exact hsame
  | resetCircuit | incrementFailures | openCircuit openedAt => exact hupdate _ _ fun _ => rfl
  | _ => exact hsame

/-- A property of the row of an endpoint that does not concern its circuit, and that edits keep,
holds of the row whenever an attempt loads it. -/
theorem found_of_kept {P : WebhookEndpoint → Prop} {pk : Nat}
    (hcopy : ∀ copy row : WebhookEndpoint, copy.CopyOf row → P row → P copy)
    (hstart : ∀ row, s.endpoints.get? pk = some row → P row)
    (hedit : ∀ c row, G c (.environment (.saveEndpoint pk row)) → P { row.endpoint with pk })
    (h : (deployed site duties).Reaches G (boot site duties s) c) :
    (∀ row, c.store.endpoints.get? pk = some row → P row) ∧
      ∀ i message row, message.endpointId = pk →
        (i, ⟨.statement message .getEnabled, .ok (some row)⟩) ∈ c.log → P row := by
  induction h with
  | refl => exact ⟨hstart, fun i message row _ hmem => by cases hmem⟩
  | @step c d label hr hlabel hs ih =>
    obtain ⟨hrows, hfound⟩ := ih
    cases label with
    | run j e =>
      obtain ⟨op, rest, hp, rfl⟩ := System.step_run.mp hs
      refine ⟨fun row hrow => ?_, fun i message row hpk hmem => ?_⟩
      · cases op with
        | statement message op =>
          obtain ⟨f, hf, hget⟩ := copies_execute e.toOutside message.endpointId pk op c.store
          obtain ⟨old, hold, rfl⟩ := Option.map_eq_some_iff.mp (hget.symm.trans hrow)
          exact hcopy _ _ (hf old) (hrows old hold)
        | publish other =>
          change (serve e (.publish other) c.store).2.endpoints.get? pk = some row at hrow
          rw [serve] at hrow
          split at hrow <;> exact hrows row hrow
        | _ => exact hrows row hrow
      · rcases List.mem_append.mp hmem with hmem | hmem
        · exact hfound i message row hpk hmem
        · obtain ⟨-, hev⟩ := Prod.mk.inj (List.mem_singleton.mp hmem)
          obtain ⟨rfl, hanswer⟩ := Event.mk.inj hev
          have hstored := stored_of_found e.toOutside (eq_of_heq hanswer).symm
          exact hrows row (hpk ▸ hstored.1)
    | relaunch j =>
      obtain ⟨_, _, -, -, rfl⟩ := System.step_relaunch.mp hs
      exact ⟨hrows, hfound⟩
    | environment a =>
      obtain rfl := System.step_environment.mp hs
      refine ⟨fun row hrow => ?_, hfound⟩
      cases a with
      | tick duration => exact hrows row hrow
      | saveEndpoint pk' saved =>
        change (c.store.endpoints.save pk' saved).get? pk = some row at hrow
        rw [EndpointTable.get?_save] at hrow
        split at hrow
        · next hpk =>
          subst hpk
          obtain rfl := Option.some.inj hrow
          exact hedit c saved hlabel
        · exact hrows row hrow
      | deleteEndpoint pk' =>
        change (c.store.endpoints.delete pk').get? pk = some row at hrow
        rw [EndpointTable.get?_delete] at hrow
        split at hrow
        · cases hrow
        · exact hrows row hrow

/-! ## The attempts of a delivery -/

/-- The edits of an endpoint allow at most so many attempts. -/
def AllowsAtMost (pk maxRetries : Nat) (label : Label Circumstances Intervention ι) : Prop :=
  ∀ row, label = .environment (.saveEndpoint pk row) → row.endpoint.maxRetries ≤ maxRetries

/-- A message is published only for an attempt that the endpoint allows. -/
theorem retries_lt {pk maxRetries : Nat}
    (hstart : ∀ row, s.endpoints.get? pk = some row → row.maxRetries ≤ maxRetries)
    (h : (deployed site duties).Reaches (fun _ => AllowsAtMost pk maxRetries)
      (boot site duties s) c) :
    ∀ message, Published c.log message → message.endpointId = pk →
      message.retries < max maxRetries 1 := by
  refine h.account (I := fun _ log => ∀ message, Published log message → message.endpointId = pk →
    message.retries < max maxRetries 1) ?_ ?_ fun _ _ _ h => h
  · rintro message ⟨i, publication, -, hmem⟩
    cases hmem
  · rintro c i e op rest hr hp ih message ⟨j, publication, harrives, hmem⟩ hpk
    rcases List.mem_append.mp hmem with hmem | hmem
    · exact ih message ⟨j, publication, harrives, hmem⟩ hpk
    · obtain ⟨rfl, hev⟩ := Prod.mk.inj (List.mem_singleton.mp hmem)
      obtain ⟨rfl, -⟩ := Event.mk.inj hev
      have hpermits := conduct_permitted hr hp
      cases hduty : duties j with
      | worker =>
        rw [hduty] at hpermits
        obtain ⟨tag, previous, hholding, hsucceeds, -, hfate, -⟩ := hpermits
        obtain ⟨-, row, hfound, hless⟩ := (grounded hr j).retrying tag previous hholding hfate
        have hrow : row.maxRetries ≤ maxRetries :=
          (found_of_kept (P := fun row => row.maxRetries ≤ maxRetries)
            (fun copy row hsame hle => hsame.maxRetries ▸ hle) hstart
            (fun c row hlabel => hlabel row rfl) hr).2 j previous row
            (hsucceeds.endpointId.symm.trans hpk) (mem_part.mp hfound)
        rw [hsucceeds.retries]
        omega
      | _ =>
        rw [hduty] at hpermits
        have hfirst : message.retries = 0 := hpermits
        omega

/-- How many retries came before an operation of a delivery. -/
def retriesOf : Event deployment → Nat
  | ⟨.statement message _, _⟩ => message.retries
  | _ => 0

/-- The requests of a delivery. Each of its attempts sends at most one request for each time that
the delivery was started, or that the broker has taken back the message of this attempt or of one
before it; and an endpoint whose `max_retries` never exceeds a bound is sent at most that many
requests, but at least one, each time. -/
theorem requests_bounded (site : Site) (duties : ι → Duty) (s : Deployment)
    (hs : s.broker = .empty) (pk maxRetries : Nat) (correlationId : String)
    (hstart : ∀ row, s.endpoints.get? pk = some row → row.maxRetries ≤ maxRetries)
    (h : (deployed site duties).Reaches (fun _ => AllowsAtMost pk maxRetries)
      (boot site duties s) c) :
    (∀ retries, total (posted (Message.isRetry pk correlationId retries)) c.log ≤
      total (started pk correlationId) c.log + total (takenBack fun message =>
        message.isFor pk correlationId && message.retries ≤ retries) c.log) ∧
    total (posted (Message.isFor pk correlationId)) c.log ≤ max maxRetries 1 *
      (total (started pk correlationId) c.log +
        total (takenBack (Message.isFor pk correlationId)) c.log) := by
  have hattempt (retries : Nat) := (posted_le (Message.isRetry pk correlationId retries) h).trans
    (reserved_le pk correlationId hs h retries)
  refine ⟨hattempt, ?_⟩
  have hallowed : total (posted (Message.isFor pk correlationId)) c.log ≤
      total (fun ev => posted (Message.isFor pk correlationId) ev &&
        retriesOf ev < max maxRetries 1) c.log := by
    refine List.countP_mono_left fun ⟨i, ev⟩ hmem hposted => ?_
    obtain ⟨message, request, outcome, rfl, hfor⟩ := eq_of_posted hposted
    have hpk : message.endpointId = pk := of_decide_eq_true ((Bool.and_eq_true _ _).mp hfor).1
    obtain ⟨before, later, hlog, -, hpublished, -⟩ := (caused hs h).of_mem hmem
    have hless := retries_lt hstart h message
      (hpublished.mono (hlog ▸ List.subset_append_left ..)) hpk
    exact (Bool.and_eq_true _ _).mpr ⟨hposted, decide_eq_true hless⟩
  refine hallowed.trans (total_levels _ fun retries _ => ?_)
  have hlevel : (fun ev => posted (Message.isFor pk correlationId) ev &&
      decide (retriesOf ev = retries)) = posted (Message.isRetry pk correlationId retries) := by
    funext ev
    unfold posted
    split <;> rfl
  have htaken : total (takenBack fun message => message.isFor pk correlationId &&
      decide (message.retries ≤ retries)) c.log ≤
        total (takenBack (Message.isFor pk correlationId)) c.log := by
    refine List.countP_mono_left fun entry _ hev => ?_
    unfold takenBack at hev ⊢
    split at hev
    · exact ((Bool.and_eq_true _ _).mp hev).1
    · cases hev
  rw [hlevel]
  exact (hattempt retries).trans (Nat.add_le_add_left htaken _)

end Deployed

/-- The endpoint is unavailable once. -/
theorem requests_bounded_unavailableOnce : ∃ c,
    (deployed emptySite receiverAndWorker).schedule (boot emptySite receiverAndWorker oneSubscriber)
      (servedOnce 500 9 ++ .relaunch 1 :: List.replicate 9 (onward 200 1)) = some c ∧
    total (posted (Message.isFor 1 exampleId)) c.log = 2 ∧
    total (posted (Message.isRetry 1 exampleId 1)) c.log ≤ 1 := by
  have hrun : ((deployed emptySite receiverAndWorker).schedule
      (boot emptySite receiverAndWorker oneSubscriber)
        (servedOnce 500 9 ++ .relaunch 1 :: List.replicate 9 (onward 200 1))).map
        (fun c => [total (posted (Message.isFor 1 exampleId)) c.log,
          total (started 1 exampleId) c.log, total (takenBack fun message =>
            message.isFor 1 exampleId && message.retries ≤ 1) c.log]) = some [2, 1, 0] := by
    decide +kernel
  obtain ⟨c, hc, hcounts⟩ := Option.map_eq_some_iff.mp hrun
  simp only [List.cons.injEq, and_true] at hcounts
  obtain ⟨hposted, hstarted, htaken⟩ := hcounts
  have hlabels : ∀ label ∈ servedOnce 500 9 ++ .relaunch 1 :: List.replicate 9 (onward 200 1),
      AllowsAtMost 1 5 label := by
    intro label hlabel row hsave
    subst hsave
    simp [servedOnce, onward] at hlabel
  have hbounded := (requests_bounded emptySite receiverAndWorker oneSubscriber rfl 1 5 exampleId
    (fun row hrow => by cases hrow; decide)
    (System.reaches_of_labels hlabels hc .refl)).1 1
  rw [hstarted, htaken] at hbounded
  exact ⟨c, hc, hposted, hbounded⟩

end WebhookRelay
