import WebhookRelay.System.Repetition
import WebhookRelay.System.Truth

/-!
# Why a breaker refuses deliveries

A worker counts a failure in one statement, reads the count back in a second and opens the circuit
in a third, and other workers interleave. All the same the count never runs ahead of the audit
trail, so whoever is refused by a breaker finds the reason there.

## Main results

* `refusals_backed` — before a row that says that the circuit was open stand as many rows of
  exhausted deliveries to the same endpoint as its threshold.
-/

namespace WebhookRelay

open Interleaving Program

/-! ## Failures and their rows -/

/-- A row says that a delivery to the endpoint is exhausted. -/
def WebhookDeliveryAttempt.exhausts (pk : Nat) (row : WebhookDeliveryAttempt) : Bool :=
  row.endpointId = pk && row.status = .exhausted

namespace Books

/-- Such a row was written. -/
def exhausted (pk : Nat) : Event deployment → Bool
  | ⟨.statement message (.createAttempt row), true⟩ =>
    message.endpointId = pk && row.status = .exhausted
  | _ => false

theorem eq_of_exhausted {pk : Nat} {ev : Event deployment} (h : exhausted pk ev) :
    ∃ message row, ev = ⟨.statement message (.createAttempt row), true⟩ ∧
      message.endpointId = pk ∧ row.status = .exhausted := by
  unfold exhausted at h
  split at h
  · next message row => exact ⟨message, row, rfl, by simpa using h⟩
  · cases h

/-- A failure of the endpoint was counted. -/
def counted (pk : Nat) : Event deployment → Bool
  | ⟨.statement message .incrementFailures, _⟩ => message.endpointId = pk
  | _ => false

/-- The worker has yet to count the failure that it has recorded. -/
def uncounted (pk : Nat) (progress : WorkerProgress) : Nat :=
  (attends (fun message => message.endpointId = pk) progress &&
    decide (progress.attempt.fate = some (.recorded .exhausted)) &&
    !progress.attempt.counted).toNat

theorem uncounted_track {lib : Primitives} {progress : WorkerProgress} (pk : Nat) (op : SystemOp)
    (answer : op.Answer) (h : progress.permits lib op) :
    uncounted pk (progress.track ⟨op, answer⟩) + (counted pk ⟨op, answer⟩).toNat ≤
      uncounted pk progress + (exhausted pk ⟨op, answer⟩).toNat := by
  cases op with
  | reserve => simp [uncounted, WorkerProgress.track, counted]
  | statement message op =>
    obtain ⟨⟨tag, hholding⟩, hop, -⟩ := h
    cases op with
    | getEnabled =>
      have hfresh : progress.attempt = {} := hop
      rcases answer with e | _ | endpoint <;> simp [uncounted, hfresh, WorkerProgress.track,
        Op.read, AttemptProgress.track, counted]
    | createAttempt row =>
      obtain ⟨hnone, -⟩ := hop
      cases answer with
      | false => exact Nat.le_add_right ..
      | true =>
        by_cases hstatus : row.status = .exhausted
        · by_cases hpk : message.endpointId = pk
          · have hone :
                (exhausted pk ⟨.statement message (.createAttempt row), true⟩).toNat = 1 := by
              simp [exhausted, hstatus, hpk]
            rw [hone]
            exact (Bool.toNat_le _).trans (Nat.le_add_left ..)
          · simp [uncounted, attends, hholding, WorkerProgress.track, Op.read, counted, hpk]
        · simp [uncounted, WorkerProgress.track, Op.read, AttemptProgress.track, counted, hstatus]
    | incrementFailures =>
      obtain ⟨hfate, huncounted⟩ := hop
      simp [uncounted, attends, hholding, hfate, huncounted, WorkerProgress.track, Op.read,
        AttemptProgress.track, counted]
    | refreshFailures => cases answer <;> exact Nat.le_add_right ..
    | _ => exact Nat.le_add_right ..
  | publish next => exact Nat.le_add_right ..
  | acknowledge tag message state => exact Nat.zero_le _
  | _ => exact h.elim

end Books

open Books

/-! ## The circuit of one endpoint -/

/-- What a statement can do to the circuit of a row. -/
theorem circuit_execute (outside : Outside) (pk : Nat) (message : Message) (op : Op)
    (reply : op.Reply) (s : Deployment) {row : WebhookEndpoint}
    (hrow : (execute outside message.endpointId op s).2.endpoints.get? pk = some row) :
    ∃ old, s.endpoints.get? pk = some old ∧
      row.consecutiveFailures ≤
        old.consecutiveFailures + (counted pk ⟨.statement message op, reply⟩).toNat ∧
      (row.circuitState ≠ .closed → old.circuitState ≠ .closed ∨
        message.endpointId = pk ∧ ∃ openedAt, op = .openCircuit openedAt) := by
  by_cases hpk : message.endpointId = pk
  · subst hpk
    cases hold : s.endpoints.get? message.endpointId with
    | none =>
      obtain ⟨f, -, hget⟩ := copies_execute outside message.endpointId message.endpointId op s
      rw [hold, Option.map_none] at hget
      cases hget.symm.trans hrow
    | some old =>
      obtain ⟨hrespond, -⟩ := execute_refines outside hold op
      obtain rfl := Option.some.inj (hrespond.symm.trans hrow)
      refine ⟨old, rfl, ?_, fun hcircuit => ?_⟩
      · cases op with
        | setHalfOpen =>
          rw [respond]
          split <;> exact Nat.le_add_right ..
        | resetCircuit => exact Nat.zero_le _
        | incrementFailures =>
          rw [show counted message.endpointId ⟨.statement message .incrementFailures, reply⟩ = true
            from decide_eq_true rfl]
          exact Nat.le_refl _
        | _ => exact Nat.le_add_right ..
      · cases hstate : (respond outside op (s.view old)).2.endpoint.circuitState with
        | closed => exact absurd hstate hcircuit
        | «open» =>
          rcases open_respond hstate with hopens | ⟨hopen, -⟩
          · exact .inr ⟨rfl, hopens⟩
          · exact .inl fun hclosed => by cases hclosed.symm.trans hopen
        | halfOpen =>
          rcases halfOpen_respond hstate with htrial | ⟨hhalf, -⟩
          · have hopen := (isTrial_respond.mp htrial).2
            exact .inl fun hclosed => by cases hclosed.symm.trans hopen
          · exact .inl fun hclosed => by cases hclosed.symm.trans hhalf
  · rw [get?_execute_of_ne outside hpk] at hrow
    exact ⟨row, hrow, Nat.le_add_right .., .inl⟩

section Deployed

variable {ι : Type} [DecidableEq ι] {site : Site} {duties : ι → Duty} {s : Deployment}
  {G : Config deployment ι Deployment Unit → Label Circumstances Intervention ι → Prop}
  {c : Config deployment ι Deployment Unit} {pk threshold : Nat}

/-- No more failures are counted than deliveries are recorded as exhausted. -/
theorem counted_le (h : (deployed site duties).Reaches G (boot site duties s) c) (pk : Nat) :
    total (counted pk) c.log ≤ total (exhausted pk) c.log := by
  refine total_le_of_track rfl (fun _ => uncounted_track pk) (fun op answer hpermits => ?_) h
  cases op <;> first | rfl | exact hpermits.elim

/-- An edit of the endpoint keeps the threshold at or above a bound, and leaves the breaker as it
is or sets it back. -/
def KeepsBreaker (pk threshold : Nat) (c : Config deployment ι Deployment Unit) :
    Label Circumstances Intervention ι → Prop
  | .environment (.saveEndpoint pk' row) => pk' = pk →
      threshold ≤ row.endpoint.circuitBreakerFailureThreshold ∧
      (row.endpoint.circuitState = .closed ∧ row.endpoint.consecutiveFailures = 0 ∨
        ∃ old, c.store.endpoints.get? pk = some old ∧
          row.endpoint.circuitState = old.circuitState ∧
          row.endpoint.consecutiveFailures = old.consecutiveFailures)
  | _ => True

/-- The circuit of the row is no worse than the rows of the audit trail explain. -/
structure Backed (pk threshold : Nat) (log : List (ι × Event deployment))
    (row : WebhookEndpoint) : Prop where
  failures : row.consecutiveFailures ≤ total (counted pk) log
  circuit : row.circuitState ≠ .closed → threshold ≤ total (exhausted pk) log

omit [DecidableEq ι] in
theorem Backed.snoc {log : List (ι × Event deployment)} {row : WebhookEndpoint}
    (h : Backed pk threshold log row) (entry : ι × Event deployment) :
    Backed pk threshold (log ++ [entry]) row := by
  constructor
  · rw [total_snoc]
    exact h.failures.trans (Nat.le_add_right ..)
  · rw [total_snoc]
    exact fun hcircuit => (h.circuit hcircuit).trans (Nat.le_add_right ..)

/-- The row of the endpoint is backed, and so is whatever has been read of it. -/
structure BackedReads (pk threshold : Nat) (t : Deployment) (log : List (ι × Event deployment)) :
    Prop where
  stored : ∀ row, t.endpoints.get? pk = some row → Backed pk threshold log row
  loaded : ∀ i message row, message.endpointId = pk →
    (i, ⟨.statement message .getEnabled, .ok (some row)⟩) ∈ log → Backed pk threshold log row
  reread : ∀ i message failures, message.endpointId = pk →
    (i, ⟨.statement message .refreshFailures, some failures⟩) ∈ log →
      failures ≤ total (exhausted pk) log

/-- A worker opens the circuit only when the audit trail has reached the threshold. -/
theorem backed_opening (h : (deployed site duties).Reaches G (boot site duties s) c)
    (hbacked : BackedReads pk threshold c.store c.log)
    (hthreshold : ∀ i message row, message.endpointId = pk →
      (i, ⟨.statement message .getEnabled, .ok (some row)⟩) ∈ c.log →
        threshold ≤ row.circuitBreakerFailureThreshold)
    {i : ι} {message : Message} (hpk : message.endpointId = pk) {openedAt : Time}
    {rest : Unit → Process Unit}
    (hp : c.program i = .call (.statement message (.openCircuit openedAt)) rest) :
    threshold ≤ total (exhausted pk) c.log := by
  have hpermits := conduct_permitted h hp
  cases hduty : duties i with
  | worker =>
    rw [hduty] at hpermits
    obtain ⟨⟨tag, hholding⟩, ⟨endpoint, failures, hloaded, hreread, hreached⟩, -⟩ := hpermits
    have hknown := knownFrom h hduty tag message hholding
    have hfound := hthreshold i message endpoint hpk
      (mem_log_of_underway (hknown.loaded endpoint hloaded))
    have hcount := hbacked.reread i message failures hpk
      (mem_log_of_underway (hknown.reread failures hreread))
    omega
  | _ =>
    rw [hduty] at hpermits
    exact hpermits.elim

/-- One operation. -/
theorem backedReads_run (h : (deployed site duties).Reaches (KeepsBreaker pk threshold)
      (boot site duties s) c) (hbacked : BackedReads pk threshold c.store c.log)
    (hthreshold : ∀ i message row, message.endpointId = pk →
      (i, ⟨.statement message .getEnabled, .ok (some row)⟩) ∈ c.log →
        threshold ≤ row.circuitBreakerFailureThreshold)
    {i : ι} {e : Circumstances} {op : SystemOp} {rest : op.Answer → Process Unit}
    (hp : c.program i = .call op rest) :
    BackedReads pk threshold (serve e op c.store).2
      (c.log ++ [(i, ⟨op, (serve e op c.store).1⟩)]) := by
  have hbefore : ∀ row, Backed pk threshold c.log row →
      Backed pk threshold (c.log ++ [(i, ⟨op, (serve e op c.store).1⟩)]) row :=
    fun row hrow => hrow.snoc _
  have hlast {j : ι} {ev : Event deployment}
      (hmem : (j, ev) ∈ c.log ++ [(i, ⟨op, (serve e op c.store).1⟩)]) :
      (j, ev) ∈ c.log ∨ ev = ⟨op, (serve e op c.store).1⟩ := by
    rcases List.mem_append.mp hmem with hmem | hmem
    · exact .inl hmem
    · exact .inr (Prod.mk.inj (List.mem_singleton.mp hmem)).2
  constructor
  · intro row hrow
    change (serve e op c.store).2.endpoints.get? pk = some row at hrow
    cases op with
    | statement message op =>
      obtain ⟨old, hold, hfailures, hcircuit⟩ := circuit_execute e.toOutside pk message op
        (execute e.toOutside message.endpointId op c.store).1 c.store hrow
      have hstored := hbacked.stored old hold
      constructor
      · rw [total_snoc]
        exact hfailures.trans (Nat.add_le_add_right hstored.failures _)
      · intro hopen
        rw [total_snoc]
        refine Nat.le_add_right_of_le ?_
        rcases hcircuit hopen with hold | ⟨hpk, openedAt, rfl⟩
        · exact hstored.circuit hold
        · exact backed_opening h hbacked hthreshold hpk hp
    | publish other =>
      rw [serve] at hrow
      split at hrow <;> exact hbefore row (hbacked.stored row hrow)
    | _ => exact hbefore row (hbacked.stored row hrow)
  · intro j message row hpk hmem
    rcases hlast hmem with hmem | hev
    · exact hbefore row (hbacked.loaded j message row hpk hmem)
    · obtain ⟨rfl, hanswer⟩ := Event.mk.inj hev
      have hstored := stored_of_found e.toOutside (eq_of_heq hanswer).symm
      exact hbefore row (hbacked.stored row (hpk ▸ hstored.1))
  · intro j message failures hpk hmem
    rw [total_snoc]
    refine Nat.le_add_right_of_le ?_
    rcases hlast hmem with hmem | hev
    · exact hbacked.reread j message failures hpk hmem
    · obtain ⟨rfl, hanswer⟩ := Event.mk.inj hev
      have hget : (c.store.endpoints.get? message.endpointId).map (·.consecutiveFailures) =
          some failures := (eq_of_heq hanswer).symm
      obtain ⟨row, hrow, rfl⟩ := Option.map_eq_some_iff.mp hget
      exact (hbacked.stored row (hpk ▸ hrow)).failures.trans (counted_le h pk)

theorem backedReads
    (hstart : ∀ row, s.endpoints.get? pk = some row →
      threshold ≤ row.circuitBreakerFailureThreshold ∧ row.circuitState = .closed ∧
        row.consecutiveFailures = 0)
    (h : (deployed site duties).Reaches (KeepsBreaker pk threshold) (boot site duties s) c) :
    BackedReads pk threshold c.store c.log := by
  refine h.invariant (I := fun c => BackedReads pk threshold c.store c.log) ?_ ?_
  · refine ⟨fun row hrow => ?_, nofun, nofun⟩
    obtain ⟨-, hclosed, hnone⟩ := hstart row hrow
    exact ⟨hnone ▸ Nat.zero_le _, fun hcircuit => absurd hclosed hcircuit⟩
  · rintro c label d hr hbacked hkeeps hs
    cases label with
    | run i e =>
      obtain ⟨op, rest, hp, rfl⟩ := System.step_run.mp hs
      refine backedReads_run hr hbacked ?_ hp
      exact (found_of_kept (P := fun row => threshold ≤ row.circuitBreakerFailureThreshold)
        (fun copy row hcopy hle => hcopy.threshold ▸ hle) (fun row hrow => (hstart row hrow).1)
        (fun c row hkeeps => (hkeeps rfl).1) hr).2
    | relaunch i =>
      obtain ⟨_, _, -, -, rfl⟩ := System.step_relaunch.mp hs
      exact ⟨hbacked.stored, hbacked.loaded, hbacked.reread⟩
    | environment a =>
      obtain rfl := System.step_environment.mp hs
      refine ⟨fun row hrow => ?_, hbacked.loaded, hbacked.reread⟩
      cases a with
      | tick duration => exact hbacked.stored row hrow
      | saveEndpoint pk' saved =>
        change (c.store.endpoints.save pk' saved).get? pk = some row at hrow
        rw [EndpointTable.get?_save] at hrow
        split at hrow
        · next hpk =>
          obtain rfl := Option.some.inj hrow
          rcases (hkeeps hpk).2 with ⟨hclosed, hnone⟩ | ⟨old, hold, hstate, hfailures⟩
          · exact ⟨hnone.trans_le (Nat.zero_le _), fun hcircuit => absurd hclosed hcircuit⟩
          · have hstored := hbacked.stored old hold
            exact ⟨hfailures.trans_le hstored.failures, fun hcircuit =>
              hstored.circuit (hstate ▸ hcircuit)⟩
        · exact hbacked.stored row hrow
      | deleteEndpoint pk' =>
        change (c.store.endpoints.delete pk').get? pk = some row at hrow
        rw [EndpointTable.get?_delete] at hrow
        split at hrow
        · cases hrow
        · exact hbacked.stored row hrow

/-! ## The audit trail -/

/-- A row is about the endpoint of the message that its attempt runs for. -/
theorem endpointId_of_written (h : (deployed site duties).Reaches G (boot site duties s) c) {i : ι}
    {message : Message} {row : WebhookDeliveryAttempt}
    (hmem : (i, ⟨.statement message (.createAttempt row), true⟩) ∈ c.log) :
    row.endpointId = message.endpointId := by
  obtain ⟨before, later, hlog, -, hrow⟩ := (known h).of_mem hmem
  obtain ⟨attempt, hknown, -, -, ⟨endpoint, hloaded, hrecords⟩, -⟩ := hrow message _ _ rfl
  have hfound := mem_log_of_underway (hknown.loaded endpoint hloaded)
  exact hrecords.endpointId.trans (enabled_of_found h (hlog ▸ List.mem_append_left _ hfound)).2

/-- The rows about an endpoint are those of its messages. -/
theorem exhausted_le (h : (deployed site duties).Reaches G (boot site duties s) c) (pk : Nat)
    {log : List (ι × Event deployment)} (hsub : log ⊆ c.log) :
    total (exhausted pk) log ≤ (rowsWritten log).countP fun row => row.exhausts pk := by
  rw [rowsWritten, List.countP_filterMap]
  refine List.countP_mono_left fun entry hmem hexhausted => ?_
  obtain ⟨i, ev⟩ := entry
  obtain ⟨message, row, rfl, hpk, hstatus⟩ := eq_of_exhausted hexhausted
  have hrow := (endpointId_of_written h (hsub hmem)).trans hpk
  simp [rowWritten, WebhookDeliveryAttempt.exhausts, hrow, hstatus]

/-- Whoever is refused has loaded a circuit that the audit trail explains. -/
theorem backed_refusal
    (hstart : ∀ row, s.endpoints.get? pk = some row →
      threshold ≤ row.circuitBreakerFailureThreshold ∧ row.circuitState = .closed ∧
        row.consecutiveFailures = 0)
    (h : (deployed site duties).Reaches (KeepsBreaker pk threshold) (boot site duties s) c) {i : ι}
    {message : Message} {row : WebhookDeliveryAttempt} {rest : Bool → Process Unit}
    (hp : c.program i = .call (.statement message (.createAttempt row)) rest)
    (hpk : row.endpointId = pk) (hstatus : row.status = .circuitOpen) :
    threshold ≤ total (exhausted pk) c.log := by
  have hpermits := conduct_permitted h hp
  cases hduty : duties i with
  | worker =>
    rw [hduty] at hpermits
    obtain ⟨⟨tag, hholding⟩, ⟨-, -, ⟨endpoint, hloaded, hrecords⟩, -⟩, -⟩ := hpermits
    have hfound := mem_log_of_underway ((knownFrom h hduty tag message hholding).loaded endpoint
      hloaded)
    have hmessage : message.endpointId = pk :=
      (enabled_of_found h hfound).2.symm.trans (hrecords.endpointId.symm.trans hpk)
    obtain ⟨payload, shouldSend, -, -, hexplains⟩ := hrecords.explained
    generalize (progressIn site duties i c.log).attempt.outcome = outcome at hexplains
    cases hexplains with
    | filtered _ hskipped => cases hskipped.symm.trans hstatus
    | refused _ _ _ hcircuit _ =>
      exact ((backedReads hstart h).loaded i message endpoint hmessage hfound).circuit hcircuit
    | @answered attempt outcome _ htells =>
      have hverdict := htells.status.trans (congrArg some hstatus)
      cases hv : verdict endpoint.maxRetries message.retries none outcome <;>
        rw [hv] at hverdict <;> cases hverdict
  | _ =>
    rw [hduty] at hpermits
    exact hpermits.elim

/-- A row that says that the circuit was open has as many exhausted deliveries before it as the
threshold of the endpoint, in whichever way the workers that have counted them, read the count
back, opened the circuit and been refused by it were interleaved; provided that the breaker starts
afresh and that edits keep the threshold at or above the bound and do not open the circuit. -/
theorem refusals_backed (site : Site) (duties : ι → Duty) (s : Deployment) (pk threshold : Nat)
    (hstart : ∀ row, s.endpoints.get? pk = some row →
      threshold ≤ row.circuitBreakerFailureThreshold ∧ row.circuitState = .closed ∧
        row.consecutiveFailures = 0)
    (h : (deployed site duties).Reaches (KeepsBreaker pk threshold) (boot site duties s) c)
    (before later : List WebhookDeliveryAttempt) (refusal : WebhookDeliveryAttempt)
    (hrows : rowsWritten c.log = before ++ refusal :: later) (hpk : refusal.endpointId = pk)
    (hstatus : refusal.status = .circuitOpen) :
    threshold ≤ before.countP fun row => row.exhausts pk := by
  obtain ⟨log, rest, hlog, rfl, hrest⟩ := List.filterMap_eq_append_iff.mp hrows
  obtain ⟨skipped, ⟨i, ev⟩, rest, rfl, hskipped, hwritten, -⟩ := List.filterMap_eq_cons_iff.mp hrest
  obtain ⟨message, rfl⟩ := eq_of_rowWritten hwritten
  have hall : Justified (fun (before : List (ι × Event deployment)) entry => ∀ message row,
      entry.2 = ⟨.statement message (.createAttempt row), true⟩ → row.endpointId = pk →
        row.status = .circuitOpen → threshold ≤ total (exhausted pk) before) c.log := by
    refine h.justified rfl fun c i e op rest hr hp message row hev hpk hstatus => ?_
    obtain ⟨rfl, -⟩ := Event.mk.inj hev
    exact backed_refusal hstart hr hp hpk hstatus
  rw [← List.append_assoc] at hlog
  have hbacked := hall _ _ _ hlog message refusal rfl hpk hstatus
  have hbefore : rowsWritten (log ++ skipped) = log.filterMap fun entry => rowWritten entry.2 := by
    rw [rowsWritten, List.filterMap_append, List.filterMap_eq_nil_iff.mpr hskipped, List.append_nil]
  rw [← hbefore]
  exact hbacked.trans (exhausted_le h pk (hlog ▸ List.subset_append_left ..))

end Deployed

/-- One endpoint, whose breaker opens at the first exhausted delivery. -/
def brittleSubscriber : Deployment where
  endpoints := EndpointTable.empty.save 1
    { event := "COURSE_PASSING_STATUS_UPDATED"
      endpoint := { newEndpoint with onlyOnPassing := false, circuitBreakerFailureThreshold := 1 } }

def receiversAndWorker : Fin 3 → Duty
  | 2 => .worker
  | _ => .receiver "COURSE_PASSING_STATUS_UPDATED" emptyEvent

/-- A delivery is answered with 404, and the next one is refused. -/
def rejectedThenRefused : List (Label Circumstances Intervention (Fin 3)) :=
  List.replicate 3 (onward 404 0) ++ List.replicate 12 (onward 404 2) ++
    List.replicate 3 (onward 404 1) ++ .relaunch 2 :: List.replicate 6 (onward 404 2)

theorem refusals_backed_rejected : ∃ c before refusal,
    (deployed emptySite receiversAndWorker).schedule
      (boot emptySite receiversAndWorker brittleSubscriber) rejectedThenRefused = some c ∧
    rowsWritten c.log = before ++ [refusal] ∧ refusal.status = .circuitOpen ∧
    1 ≤ before.countP fun row => row.exhausts 1 := by
  have hrun : ((deployed emptySite receiversAndWorker).schedule
      (boot emptySite receiversAndWorker brittleSubscriber) rejectedThenRefused).map
        (fun c => (rowsWritten c.log).map fun row => (row.endpointId, row.status)) =
      some [(1, .exhausted), (1, .circuitOpen)] := by
    decide +kernel
  obtain ⟨c, hc, hrows⟩ := Option.map_eq_some_iff.mp hrun
  obtain ⟨first, rest, hlog, -, hrest⟩ := List.map_eq_cons_iff.mp hrows
  obtain ⟨refusal, later, rfl, hrefusal, hlater⟩ := List.map_eq_cons_iff.mp hrest
  obtain rfl := List.map_eq_nil_iff.mp hlater
  obtain ⟨hpk, hstatus⟩ := Prod.mk.inj hrefusal
  have hreaches : (deployed emptySite receiversAndWorker).Reaches (KeepsBreaker 1 1)
      (boot emptySite receiversAndWorker brittleSubscriber) c := by
    refine System.Reaches.refl.trans (System.reaches_of_labels
      (P := fun label => ∀ c, KeepsBreaker 1 1 c label) (fun label hlabel => ?_) hc .refl)
      fun c label h => h c
    simp only [rejectedThenRefused, List.mem_append, List.mem_cons, List.mem_replicate] at hlabel
    rcases hlabel with ((⟨-, rfl⟩ | ⟨-, rfl⟩) | ⟨-, rfl⟩) | rfl | ⟨-, rfl⟩ <;>
      exact fun _ => trivial
  exact ⟨c, [first], refusal, hc, hlog, hstatus, refusals_backed emptySite receiversAndWorker
    brittleSubscriber 1 1 (fun row hrow => by cases hrow; decide) hreaches [first] [] refusal hlog
    hpk hstatus⟩

end WebhookRelay
