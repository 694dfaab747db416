import WebhookRelay.Breaker.Counting
import WebhookRelay.System.Conservation

/-!
# Every endpoint has a breaker of its own

The workers of the deployment deliver to many endpoints. What they do to the row of one of them
is what `respond` does to the single row of `WebhookRelay.Model.Celery`, and deliveries to the
others leave it alone, so the laws of the breaker hold of each endpoint and its own statements.

## Main results

* `execute_refines` — the table at a primary key refines the single row.
* `circuits_isolated` — the circuit of an endpoint is determined by the statements of its own
  deliveries.
-/

namespace WebhookRelay

open Interleaving Program

/-! ## One row of the table -/

/-- What the deliveries to one endpoint see. -/
def Deployment.view (s : Deployment) (endpoint : WebhookEndpoint) : Store where
  endpoint := endpoint
  attempts := s.attempts.map AuditRow.attempt
  signals := s.signals
  counters := s.counters
  sent := s.sent
  clock := s.clock

theorem get?_updateEndpoint (s : Deployment) (pk pk' : Nat) (f : WebhookEndpoint → WebhookEndpoint)
    (hf : ∀ endpoint, (f endpoint).pk = endpoint.pk) :
    (s.updateEndpoint pk f hf).endpoints.get? pk' =
      if pk = pk' then (s.endpoints.get? pk').map f else s.endpoints.get? pk' :=
  EndpointTable.get?_update _ _ _ _ hf

/-- A statement of a delivery leaves the rows of the other endpoints. -/
theorem get?_execute_of_ne (outside : Outside) {pk pk' : Nat} (h : pk ≠ pk') (op : Op)
    (s : Deployment) : (execute outside pk op s).2.endpoints.get? pk' = s.endpoints.get? pk' := by
  have hother (f : WebhookEndpoint → WebhookEndpoint) (hf : ∀ row, (f row).pk = row.pk) :
      (s.updateEndpoint pk f hf).endpoints.get? pk' = s.endpoints.get? pk' := by
    rw [get?_updateEndpoint, if_neg h]
  cases op with
  | setHalfOpen =>
    rw [execute]
    split
    · exact hother ..
    · rfl
  | createAttempt attempt =>
    rw [execute]
    split <;> rfl
  | getEnabled =>
    rw [execute]
    split <;> rfl
  | resetCircuit | incrementFailures | openCircuit openedAt => exact hother ..
  | _ => rfl

section Refinement

variable {pk : Nat} {s : Deployment} {endpoint : WebhookEndpoint}

/-- A statement does to the row what it does to a single row, and answers as there, unless it is
a row of the audit trail that cannot be created. -/
theorem execute_refines (outside : Outside) (h : s.endpoints.get? pk = some endpoint) (op : Op) :
    (execute outside pk op s).2.endpoints.get? pk =
        some (respond outside op (s.view endpoint)).2.endpoint ∧
      ∀ answer, op.read (execute outside pk op s).1 = .ok answer →
        answer = (respond outside op (s.view endpoint)).1 := by
  have hrow (f : WebhookEndpoint → WebhookEndpoint) (hf : ∀ row, (f row).pk = row.pk) :
      (s.updateEndpoint pk f hf).endpoints.get? pk = some (f endpoint) := by
    rw [get?_updateEndpoint, if_pos rfl, h, Option.map_some]
  cases op with
  | getEnabled =>
    have hanswer : execute outside pk .getEnabled s =
        (if endpoint.enabled then outside.load endpoint else .ok none, s) := by
      rw [execute, h]
      by_cases henabled : endpoint.enabled = true <;> simp [Option.filter, henabled]
    rw [hanswer]
    refine ⟨h, ?_⟩
    rintro answer ⟨⟩
    rfl
  | setHalfOpen =>
    by_cases hopen : endpoint.circuitState = .open
    · have hset : execute outside pk .setHalfOpen s =
          (true, s.updateEndpoint pk WebhookEndpoint.halfOpened fun _ => rfl) :=
        if_pos (by rw [h]; exact decide_eq_true hopen)
      have hsingle : respond outside .setHalfOpen (s.view endpoint) =
          (true, s.view endpoint.halfOpened) := if_pos hopen
      rw [hset, hsingle]
      exact ⟨hrow .., fun answer hanswer => by cases hanswer; rfl⟩
    · have hset : execute outside pk .setHalfOpen s = (false, s) :=
        if_neg (by rw [h]; simpa using hopen)
      have hsingle : respond outside .setHalfOpen (s.view endpoint) = (false, s.view endpoint) :=
        if_neg hopen
      rw [hset, hsingle]
      exact ⟨h, fun answer hanswer => by cases hanswer; rfl⟩
  | resetCircuit | incrementFailures | openCircuit openedAt => exact ⟨hrow .., fun _ _ => rfl⟩
  | refreshFailures =>
    refine ⟨h, fun answer hanswer => ?_⟩
    change Op.read .refreshFailures ((s.endpoints.get? pk).map (·.consecutiveFailures)) = _
      at hanswer
    rw [h] at hanswer
    cases hanswer
    rfl
  | createAttempt attempt =>
    rw [execute]
    split <;> exact ⟨h, fun _ _ => rfl⟩
  | _ => exact ⟨h, fun answer hanswer => by cases hanswer; rfl⟩

end Refinement

/-! ## The circuits -/

section Deployed

variable {ι : Type} [DecidableEq ι] {site : Site} {duties : ι → Duty} {s : Deployment}
  {G : Config deployment ι Deployment Unit → Label Circumstances Intervention ι → Prop}
  {c : Config deployment ι Deployment Unit}

/-- What an operation does to the endpoint with this primary key. -/
def onEndpoint (pk : Nat) : Event deployment → Option (Event relay)
  | ⟨.statement message op, reply⟩ =>
    if message.endpointId = pk then
      match op.read reply with
      | .ok answer => some ⟨op, answer⟩
      | .error _ => none
    else none
  | _ => none

/-- The log of the deliveries to one endpoint. -/
def endpointLog (pk : Nat) (log : List (ι × Event deployment)) : List (ι × Event relay) :=
  log.filterMap fun entry => (onEndpoint pk entry.2).map (Prod.mk entry.1)

/-- The endpoint is not deleted, and an edit keeps the columns of its circuit. -/
def SparesCircuit (pk : Nat) (c : Config deployment ι Deployment Unit) :
    Label Circumstances Intervention ι → Prop
  | .environment (.deleteEndpoint pk') => pk' ≠ pk
  | .environment (.saveEndpoint pk' row) => pk' = pk → ∀ old, c.store.endpoints.get? pk = some old →
      row.endpoint.circuitState = old.circuitState ∧
        row.endpoint.consecutiveFailures = old.consecutiveFailures ∧
          row.endpoint.circuitOpenedAt = old.circuitOpenedAt
  | _ => True

omit [DecidableEq ι] in
@[simp] theorem failuresAfter_nil (start : Nat) :
    failuresAfter start ([] : List (ι × Event relay)) = start := by
  simp [failuresAfter, sinceReset, increments]

/-- What the statements in a log make of the time of the last opening. -/
def openedAtAfter (start : Option Time) (log : List (ι × Event relay)) : Option Time :=
  log.foldl (fun openedAt entry => match entry.2.op with
    | .resetCircuit => none
    | .openCircuit time => some time
    | _ => openedAt) start

omit [DecidableEq ι] in
theorem openedAtAfter_snoc (start : Option Time) (log : List (ι × Event relay)) (i : ι)
    (outside : Outside) (op : Op) {t : Store}
    (ht : t.endpoint.circuitOpenedAt = openedAtAfter start log) :
    (respond outside op t).2.endpoint.circuitOpenedAt =
      openedAtAfter start (log ++ [(i, ⟨op, (respond outside op t).1⟩)]) := by
  rw [openedAtAfter, List.foldl_append, List.foldl_cons, List.foldl_nil, ← openedAtAfter, ← ht]
  cases op with
  | setHalfOpen =>
    rw [respond]
    split <;> rfl
  | _ => rfl

/-- The row has the circuit that a log leaves of another row. -/
structure FollowsLog (start : WebhookEndpoint) (log : List (ι × Event relay))
    (row : WebhookEndpoint) : Prop where
  state : start.circuitState.afterLog log = some row.circuitState
  failures : row.consecutiveFailures = failuresAfter start.consecutiveFailures log
  openedAt : row.circuitOpenedAt = openedAtAfter start.circuitOpenedAt log

omit [DecidableEq ι] in
theorem FollowsLog.respond {start row : WebhookEndpoint} {log : List (ι × Event relay)}
    (h : FollowsLog start log row) (outside : Outside) (i : ι) (op : Op) (t : Store)
    (ht : t.endpoint = row) :
    FollowsLog start (log ++ [(i, ⟨op, (respond outside op t).1⟩)])
      (respond outside op t).2.endpoint := by
  subst ht
  refine ⟨?_, ?_, openedAtAfter_snoc _ _ i outside op h.openedAt⟩
  · have hstate := h.state
    rw [CircuitState.afterLog] at hstate ⊢
    rw [List.foldlM_append, hstate]
    simpa using after_respond outside op t
  · rw [failuresAfter_snoc, ← h.failures]
    exact failures_respond outside op t

omit [DecidableEq ι] in
theorem endpointLog_snoc (pk : Nat) (log : List (ι × Event deployment)) (i : ι)
    (ev : Event deployment) : endpointLog pk (log ++ [(i, ev)]) =
      endpointLog pk log ++ ((onEndpoint pk ev).map (Prod.mk i)).toList := by
  rw [endpointLog, endpointLog, List.filterMap_append]
  cases h : onEndpoint pk ev <;> simp [h]

omit [DecidableEq ι] in
/-- One operation of the deployment. -/
theorem FollowsLog.serve {start row : WebhookEndpoint} {pk : Nat}
    {log : List (ι × Event deployment)} {t : Deployment} (ht : t.endpoints.get? pk = some row)
    (h : FollowsLog start (endpointLog pk log) row) (e : Circumstances) (i : ι) (op : SystemOp) :
    ∃ row', (serve e op t).2.endpoints.get? pk = some row' ∧
      FollowsLog start (endpointLog pk (log ++ [(i, ⟨op, (serve e op t).1⟩)])) row' := by
  rw [endpointLog_snoc]
  cases op with
  | statement message op =>
    by_cases hpk : message.endpointId = pk
    · subst hpk
      obtain ⟨hrow, hanswer⟩ := execute_refines e.toOutside ht op
      refine ⟨_, hrow, ?_⟩
      change FollowsLog start (_ ++ ((onEndpoint _ ⟨.statement message op,
        (execute e.toOutside message.endpointId op t).1⟩).map (Prod.mk i)).toList) _
      generalize (execute e.toOutside message.endpointId op t).1 = reply at hanswer
      cases hread : op.read reply with
      | ok answer =>
        simp only [onEndpoint, if_pos, hread, hanswer answer hread]
        exact h.respond e.toOutside i op (t.view row) rfl
      | error error =>
        simp only [onEndpoint, if_pos, hread, Option.map_none, Option.toList_none, List.append_nil]
        cases op with
        | createAttempt attempt | refreshFailures => exact h
        | _ => cases hread
    · refine ⟨row, (get?_execute_of_ne e.toOutside hpk op t).trans ht, ?_⟩
      simpa [onEndpoint, hpk] using h
  | publish message =>
    refine ⟨row, ?_, by simpa [onEndpoint] using h⟩
    rw [WebhookRelay.serve]
    split <;> exact ht
  | _ => exact ⟨row, ht, by simpa [onEndpoint] using h⟩

/-- The row of an endpoint that is not deleted, and whose circuit nobody edits, has the circuit
that the statements of its own deliveries leave. -/
theorem followsLog (h : (deployed site duties).Reaches (SparesCircuit pk) (boot site duties s) c)
    {start : WebhookEndpoint} (hstart : s.endpoints.get? pk = some start) :
    ∃ row, c.store.endpoints.get? pk = some row ∧ FollowsLog start (endpointLog pk c.log) row := by
  refine h.invariant (I := fun c => ∃ row, c.store.endpoints.get? pk = some row ∧
    FollowsLog start (endpointLog pk c.log) row)
    ⟨start, hstart, rfl, (failuresAfter_nil _).symm, rfl⟩ ?_
  rintro c label d hr ⟨row, hrow, hfollows⟩ hspares hs
  cases label with
  | run i e =>
    obtain ⟨op, rest, -, rfl⟩ := System.step_run.mp hs
    exact hfollows.serve hrow e i op
  | relaunch i =>
    obtain ⟨_, _, -, -, rfl⟩ := System.step_relaunch.mp hs
    exact ⟨row, hrow, hfollows⟩
  | environment a =>
    obtain rfl := System.step_environment.mp hs
    cases a with
    | tick duration => exact ⟨row, hrow, hfollows⟩
    | saveEndpoint pk' saved =>
      by_cases hpk : pk' = pk
      · obtain ⟨hstate, hfailures, hopenedAt⟩ := hspares hpk row hrow
        refine ⟨_, (EndpointTable.get?_save ..).trans (if_pos hpk), ?_, ?_, ?_⟩
        · exact hfollows.state.trans (congrArg some hstate.symm)
        · exact hfailures.trans hfollows.failures
        · exact hopenedAt.trans hfollows.openedAt
      · exact ⟨row, ((EndpointTable.get?_save ..).trans (if_neg hpk)).trans hrow, hfollows⟩
    | deleteEndpoint pk' =>
      exact ⟨row, ((EndpointTable.get?_delete ..).trans (if_neg hspares)).trans hrow, hfollows⟩

/-- Every endpoint has a breaker of its own: as long as it is not deleted and nobody edits its
circuit, its stored failures are the increments of its own deliveries since their last reset, it
was opened when the last of them has opened it, and from a closed circuit each of its openings
admits one of its trials at most, whatever is delivered to the other endpoints in between. -/
theorem circuits_isolated (site : Site) (duties : ι → Duty) (s : Deployment) (pk : Nat)
    (start : WebhookEndpoint) (hstart : s.endpoints.get? pk = some start)
    (h : (deployed site duties).Reaches (SparesCircuit pk) (boot site duties s) c) :
    ∃ row, c.store.endpoints.get? pk = some row ∧
      start.circuitState.afterLog (endpointLog pk c.log) = some row.circuitState ∧
      row.consecutiveFailures =
        failuresAfter start.consecutiveFailures (endpointLog pk c.log) ∧
      row.circuitOpenedAt = openedAtAfter start.circuitOpenedAt (endpointLog pk c.log) ∧
      (start.circuitState = .closed →
        (∀ p, p <+: endpointLog pk c.log → trials p ≤ openings p) ∧
        ∀ p q r, endpointLog pk c.log = p ++ q ++ r → openings q = 0 → trials q ≤ 1) := by
  obtain ⟨row, hrow, hstate, hfailures, hopenedAt⟩ := followsLog h hstart
  exact ⟨row, hrow, hstate, hfailures, hopenedAt,
    fun hclosed => trials_of_afterLog (hclosed ▸ hstate)⟩

end Deployed

/-- A delivery to the one endpoint is exhausted while another endpoint is deleted. -/
theorem circuits_isolated_failing : ∃ c row,
    (deployed emptySite receiverAndWorker).schedule (boot emptySite receiverAndWorker oneSubscriber)
      (servedOnce 404 9 ++ [.environment (.deleteEndpoint 2)]) = some c ∧
    c.store.endpoints.get? 1 = some row ∧ openings (endpointLog 1 c.log) = 0 ∧
    row.consecutiveFailures = failuresAfter 0 (endpointLog 1 c.log) := by
  have hrun : ((deployed emptySite receiverAndWorker).schedule
      (boot emptySite receiverAndWorker oneSubscriber)
        (servedOnce 404 9 ++ [.environment (.deleteEndpoint 2)])).map
        (fun c => openings (endpointLog 1 c.log)) = some 0 := by
    decide +kernel
  obtain ⟨c, hc, hopenings⟩ := Option.map_eq_some_iff.mp hrun
  have hreaches : (deployed emptySite receiverAndWorker).Reaches (SparesCircuit 1)
      (boot emptySite receiverAndWorker oneSubscriber) c := by
    refine System.Reaches.refl.trans (System.reaches_of_labels
      (P := fun label => ∀ c, SparesCircuit 1 c label) (fun label hlabel => ?_) hc .refl)
      fun c label h => h c
    rcases List.mem_append.mp hlabel with hlabel | hlabel
    · rcases List.mem_append.mp hlabel with hlabel | hlabel <;>
        exact List.eq_of_mem_replicate hlabel ▸ fun _ => trivial
    · obtain rfl := List.mem_singleton.mp hlabel
      exact fun _ => by simp [SparesCircuit]
  obtain ⟨row, hrow, -, hfailures, -⟩ := circuits_isolated emptySite receiverAndWorker
    oneSubscriber 1 { newEndpoint with onlyOnPassing := false, pk := 1 } rfl hreaches
  exact ⟨c, row, hc, hrow, hopenings, hfailures⟩

end WebhookRelay
