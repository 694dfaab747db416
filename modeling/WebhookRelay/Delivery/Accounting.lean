import WebhookRelay.Delivery.Retries

/-!
# What becomes of a delivery

The traces of chains that raise no exception form a small language: retried attempts, each
with its request and its row, then one attempt that ends the chain. It ends the chain with
a terminal row, or it finds the endpoint disabled and is dropped.

## Main results

* `trace_of_chain` — every such chain has a trace of this language.
* `delivery_accounted` — its audit trail holds one terminal row, unless a retry was dropped.
-/

namespace WebhookRelay

open Interleaving

/-- The traces of chains from an attempt on. -/
inductive Trace (correlationId : String) : Nat → List (List Act) → Prop where
  | retried {k : Nat} {rest : List (List Act)} : Trace correlationId (k + 1) rest →
      Trace correlationId k (Verdict.retried.acts correlationId k :: rest)
  | sent {k : Nat} (v : Verdict) : v ≠ .retried → v.isUnrecorded = false →
      Trace correlationId k [v.acts correlationId k]
  | skipped {k : Nat} : Trace correlationId k [[.row correlationId (k + 1) .skipped]]
  | rejected {k : Nat} : Trace correlationId k [[.row correlationId (k + 1) .circuitOpen]]
  | dropped {k : Nat} : k ≠ 0 → Trace correlationId k [[.dropped]]

/-- Every status but that of a retried attempt is terminal. -/
def AttemptStatus.terminal (status : AttemptStatus) : Bool := status ≠ .retrying

/-! ## Chains that raise nothing -/

/-- Whatever row fits before an edit, the attempt finds one that fits and, if it is enabled,
raises no exception before the request; it meets an outcome the task handles, and its own row
can be written. -/
structure Raiseless (settings : Settings) (job : Job) (env : Nat → Surroundings)
    (fits : WebhookEndpoint → Prop) : Prop where
  edited : ∀ k row, fits row → fits ((env k).edit row)
  trial : ∀ row, fits row → fits row.halfOpened
  loads : ∀ k, (env k).outside.keyError = none
  shapes : ∀ k row, fits row → ((env k).edit row).enabled →
    ∃ shaped, shapeAndCheck (job.rawPayload k) ((env k).edit row) = .ok shaped
  builds : ∀ k row, fits row → ((env k).edit row).enabled → builds settings ((env k).edit row)
  secret : ∀ k, (env k).outside.secret ≠ .failed
  handled : ∀ k, (env k).outside.outcome.handled
  records : ∀ k row, fits row → ((env k).edit row).enabled →
    (verdict ((env k).edit row).maxRetries k (recordError job k ((env k).edit row))
      (env k).outside.outcome).isUnrecorded = false

section Chain

variable (lib : Primitives) {settings : Settings} {job : Job} {env : Nat → Surroundings}
  {fits : WebhookEndpoint → Prop}

/-- What the next attempt of such a chain can do. -/
theorem attempt_cases (h : Raiseless settings job env fits) {k : Nat} {s : Store}
    (hs : fits s.endpoint) (hfirst : k = 0 → ((env 0).edit s.endpoint).enabled) :
    let run := attemptRun (deliverWebhook lib settings job) env k s
    (acts run.events = Verdict.retried.acts job.correlationId k ∧
        (∃ countdown, run.value = .retry (k + 1) countdown) ∧ fits run.store.endpoint) ∨
      Trace job.correlationId k [acts run.events] ∧ run.value = .returned := by
  let m := (env k).momentBefore s
  cases henabled : m.row.enabled with
  | false =>
    have hk : k ≠ 0 := by
      rintro rfl
      exact absurd (henabled.symm.trans (hfirst rfl)) (by simp)
    obtain ⟨hacts, -, hvalue⟩ := attemptRun_course (dropped lib (h.loads k) henabled)
    exact .inr ⟨hacts ▸ .dropped hk, hvalue⟩
  | true =>
    obtain ⟨⟨payload, shouldSend⟩, hshape⟩ := h.shapes k s.endpoint hs henabled
    cases shouldSend with
    | false =>
      obtain ⟨hacts, -, hvalue⟩ := attemptRun_course (skipped lib (h.loads k) henabled hshape)
      exact .inr ⟨hacts ▸ .skipped, hvalue⟩
    | true =>
      have hpasses : passes job k m.row := passes_iff.mpr ⟨payload, hshape⟩
      cases hgate : letThrough k m with
      | none =>
        obtain ⟨hacts, -, hvalue⟩ := attemptRun_course
          (rejected lib (h.loads k) henabled hpasses hgate)
        exact .inr ⟨hacts ▸ .rejected, hvalue⟩
      | some row =>
        obtain ⟨hacts, hmoment, hvalue⟩ := attemptRun_course (sends lib (h.loads k) henabled
          hpasses hgate (h.builds k s.endpoint hs henabled) (h.secret k) (h.handled k))
        have hrow : fits row := by
          rcases letThrough_cases hgate with rfl | rfl
          · exact h.edited k _ hs
          · exact h.trial _ (h.edited k _ hs)
        simp only [Verdict.course] at hacts hmoment hvalue
        have hrecorded := h.records k s.endpoint hs henabled
        change (verdict m.row.maxRetries k (recordError job k m.row)
          (env k).outside.outcome).isUnrecorded = false at hrecorded
        generalize verdict m.row.maxRetries k (recordError job k m.row) (env k).outside.outcome =
          v at hacts hmoment hvalue hrecorded
        cases v with
        | retried =>
          have hstored : (attemptRun (deliverWebhook lib settings job) env k s).store.endpoint =
            row := congrArg Moment.row hmoment
          exact .inl ⟨hacts, ⟨_, hvalue⟩, hstored ▸ hrow⟩
        | succeeded => exact .inr ⟨hacts ▸ .sent _ (by simp) rfl, hvalue⟩
        | exhausted => exact .inr ⟨hacts ▸ .sent _ (by simp) rfl, hvalue⟩
        | unrecorded e => cases hrecorded

/-- A chain that raises nothing has a trace, and no exception escapes from it. -/
theorem trace_of_chain (h : Raiseless settings job env fits) {fuel k : Nat} {s : Store}
    {r : ChainResult} (hs : fits s.endpoint)
    (hfirst : k = 0 → ((env 0).edit s.endpoint).enabled)
    (hr : runChain (deliverWebhook lib settings job) env fuel k s = some r) :
    Trace job.correlationId k (r.events.map acts) ∧ r.finish = .returned := by
  induction fuel generalizing k s r with
  | zero => cases hr
  | succ fuel ih =>
    rcases attempt_cases lib h hs hfirst with ⟨hacts, ⟨countdown, hvalue⟩, hnext⟩ | ⟨htrace, hvalue⟩
    · rw [runChain_retry hvalue] at hr
      obtain ⟨rest, hrest, rfl⟩ := Option.map_eq_some_iff.mp hr
      obtain ⟨htrace, hfinish⟩ := ih hnext (by simp) hrest
      exact ⟨by simpa [hacts] using htrace.retried, hfinish⟩
    · rw [runChain_last (fun _ _ => by simp [hvalue])] at hr
      obtain rfl := Option.some.inj hr
      exact ⟨by simpa using htrace, hvalue⟩

end Chain

/-! ## Reading a trace -/

/-- The rows of a trace, by correlation id, number and status. -/
def written (steps : List (List Act)) : List (String × Nat × AttemptStatus) :=
  steps.flatten.filterMap Act.written

@[simp] theorem written_nil : written [] = [] := rfl

@[simp] theorem written_cons (as : List Act) (steps : List (List Act)) :
    written (as :: steps) = as.filterMap Act.written ++ written steps := by
  simp [written]

/-- The status of the row that goes with a verdict. -/
def Verdict.status? : Verdict → Option AttemptStatus
  | .retried => some .retrying
  | .succeeded => some .succeeded
  | .exhausted => some .exhausted
  | .unrecorded _ => none

theorem Verdict.status?_isSome {v : Verdict} (h : v.isUnrecorded = false) :
    ∃ status, v.status? = some status := by
  cases v with
  | unrecorded e => cases h
  | _ => exact ⟨_, rfl⟩

@[simp] theorem Verdict.written_acts (v : Verdict) (correlationId : String) (k : Nat) :
    (v.acts correlationId k).filterMap Act.written =
      (v.status?.map fun status => (correlationId, k + 1, status)).toList := by
  cases v <;> rfl

theorem Verdict.dropped_not_mem (v : Verdict) (correlationId : String) (k : Nat) :
    .dropped ∉ v.acts correlationId k := by
  cases v <;> simp [Verdict.acts]

namespace Trace

variable {correlationId : String} {k : Nat} {steps : List (List Act)}

theorem correlationId_eq (h : Trace correlationId k steps) :
    ∀ row ∈ written steps, row.1 = correlationId := by
  induction h with
  | retried _ ih => simpa [Verdict.status?] using ih
  | sent v _ hrecorded =>
    obtain ⟨status, hstatus⟩ := v.status?_isSome hrecorded
    simp [hstatus]
  | skipped | rejected | dropped _ => simp [Act.written]

/-- A trace has exactly one terminal row, or it was dropped and has none. -/
theorem terminal (h : Trace correlationId k steps) :
    if .dropped ∈ steps.flatten then ∀ row ∈ written steps, row.2.2 = .retrying
    else (written steps).countP (fun row => row.2.2.terminal) = 1 := by
  induction h with
  | @retried k _ _ ih =>
    have hnot := Verdict.dropped_not_mem .retried correlationId k
    simpa [hnot, Verdict.status?, AttemptStatus.terminal] using ih
  | @sent k v hv hrecorded =>
    have hnot := v.dropped_not_mem correlationId k
    cases v with
    | retried => exact absurd rfl hv
    | unrecorded e => cases hrecorded
    | _ => simp [hnot, Verdict.status?, AttemptStatus.terminal]
  | skipped | rejected | dropped _ => simp [Act.written, AttemptStatus.terminal]

/-- The rows of a trace are numbered from its first attempt on. -/
theorem number_gt (h : Trace correlationId k steps) : ∀ row ∈ written steps, k < row.2.1 := by
  induction h with
  | retried _ ih =>
    simp only [written_cons, Verdict.written_acts, Verdict.status?, Option.map_some,
      Option.toList_some, List.mem_append, List.mem_singleton]
    rintro row (rfl | hrow)
    · exact Nat.lt_succ_self _
    · exact Nat.lt_of_succ_lt (ih row hrow)
  | sent v _ hrecorded =>
    obtain ⟨status, hstatus⟩ := v.status?_isSome hrecorded
    simp [hstatus]
  | skipped | rejected | dropped _ => simp [Act.written]

/-- An attempt of a trace that sends a request writes the only row with its number. -/
theorem own_row (h : Trace correlationId k steps) {i : Nat} {as : List Act}
    (hi : steps[i]? = some as) (has : .request ∈ as) :
    (written steps).countP (fun row => row.2.1 = k + i + 1) = 1 := by
  induction h generalizing i with
  | @retried k rest htail ih =>
    cases i with
    | zero =>
      have hlater : (written rest).countP (fun row => row.2.1 = k + 0 + 1) = 0 := by
        refine List.countP_eq_zero.mpr fun row hrow => ?_
        have := htail.number_gt row hrow
        simp only [decide_eq_true_eq]
        omega
      simp [hlater, Verdict.status?]
    | succ i =>
      have hnumber : k + (i + 1) + 1 = k + 1 + i + 1 := by omega
      have hother : ¬ k = k + 1 + i := by omega
      simpa [List.countP_cons, Verdict.status?, hnumber, hother] using ih (by simpa using hi)
  | sent v _ hrecorded =>
    obtain rfl : i = 0 := by
      by_contra hne
      simp [hne] at hi
    obtain ⟨status, hstatus⟩ := v.status?_isSome hrecorded
    simp [hstatus]
  | skipped | rejected | dropped _ =>
    rcases i with _ | i
    · obtain rfl := Option.some.inj hi
      simp at has
    · cases hi

end Trace

/-! ## The audit trail -/

/-- A chain whose first attempt finds the endpoint enabled and that raises nothing leaves
exactly one terminal row, unless a retry found the endpoint disabled and was dropped: then
its rows all say `RETRYING`. Every attempt that sent a request has a row of its own. -/
theorem delivery_accounted (lib : Primitives) (settings : Settings) (job : Job)
    (env : Nat → Surroundings) (fits : WebhookEndpoint → Prop)
    (h : Raiseless settings job env fits) (s : Store) (hs : fits s.endpoint)
    (hfirst : ((env 0).edit s.endpoint).enabled) (fuel : Nat) (r : ChainResult)
    (hr : runChain (deliverWebhook lib settings job) env fuel 0 s = some r) :
    ∃ rows, r.store.attempts = s.attempts ++ rows ∧
      (∀ row ∈ rows, row.correlationId = job.correlationId) ∧
      (if .dropped ∈ acts r.events.flatten then ∀ row ∈ rows, row.status = .retrying
        else rows.countP (fun row => row.status.terminal) = 1) ∧
      ∀ k events, r.events[k]? = some events → .request ∈ acts events →
        rows.countP (fun row => row.attemptNumber = k + 1) = 1 := by
  obtain ⟨htrace, -⟩ := trace_of_chain lib h hs (fun _ => hfirst) hr
  have hwritten : written (r.events.map acts) = (rowsOf r.events.flatten).map
      fun row => (row.correlationId, row.attemptNumber, row.status) := by
    rw [← written_acts, acts_flatten, written]
  refine ⟨rowsOf r.events.flatten, (runChain_audit hr).1, fun row hrow => ?_, ?_,
    fun k events hevents hrequest => ?_⟩
  · have hmem := List.mem_map_of_mem (f := fun row : WebhookDeliveryAttempt =>
      (row.correlationId, row.attemptNumber, row.status)) hrow
    exact htrace.correlationId_eq _ (hwritten ▸ hmem)
  · have hterminal := htrace.terminal
    rw [hwritten, List.countP_map, ← acts_flatten] at hterminal
    split at hterminal
    · next hdropped =>
      rw [if_pos hdropped]
      exact fun row hrow => hterminal _ (List.mem_map_of_mem hrow)
    · next hdropped =>
      rw [if_neg hdropped]
      exact hterminal
  · have hown := htrace.own_row (by rw [List.getElem?_map, hevents]; rfl) hrequest
    rw [hwritten, List.countP_map, Nat.zero_add] at hown
    exact hown

theorem delivery_accounted_unavailableTwice :
    ∃ r rows, runChain (deliverWebhook emptyLib {} emptyJob) unavailableTwice 3 0
        { endpoint := newEndpoint } = some r ∧ r.store.attempts = [] ++ rows ∧
      (∀ row ∈ rows, row.correlationId = emptyJob.correlationId) ∧
      (if .dropped ∈ acts r.events.flatten then ∀ row ∈ rows, row.status = .retrying
        else rows.countP (fun row => row.status.terminal) = 1) ∧
      ∀ k events, r.events[k]? = some events → .request ∈ acts events →
        rows.countP (fun row => row.attemptNumber = k + 1) = 1 := by
  have hhandled : ∀ k, (unavailableTwice k).outside.outcome.handled := by
    intro k
    by_cases hk : k < 2 <;> simp [unavailableTwice, hk, PostOutcome.handled]
  have hrecorded : ∀ k, (verdict newEndpoint.maxRetries k none
      (unavailableTwice k).outside.outcome).isUnrecorded = false := by
    intro k
    generalize (unavailableTwice k).outside.outcome = outcome
    unfold verdict
    repeat' split
    all_goals rfl
  obtain ⟨rows, h⟩ := delivery_accounted emptyLib {} emptyJob unavailableTwice (fun _ => True)
    ⟨fun _ _ _ => trivial, fun _ _ => trivial, fun _ => rfl, fun _ _ _ _ => ⟨_, rfl⟩,
      fun _ _ _ _ => rfl, fun _ => by simp [unavailableTwice], hhandled,
      fun k _ _ _ => hrecorded k⟩
    { endpoint := newEndpoint } trivial rfl 3 _ rfl
  exact ⟨_, rows, rfl, h⟩

/-- An unavailable receiver, whose endpoint is disabled while the first retry is pending. -/
def disabledMidway (k : Nat) : Surroundings where
  edit row := { row with enabled := k = 0 }
  outside := { outcome := .response 503 "" }

/-- Disabling the endpoint ends a chain without a terminal row. -/
theorem retry_dropped_by_disabling :
    ∃ r, runChain (deliverWebhook emptyLib {} emptyJob) disabledMidway 2 0
        { endpoint := newEndpoint } = some r ∧ r.finish = .returned ∧
      (disabledMidway 0).edit newEndpoint = newEndpoint ∧ newEndpoint.enabled ∧
      r.store.attempts.map (·.status) = [.retrying] :=
  ⟨_, rfl, rfl, rfl, rfl, rfl⟩

end WebhookRelay
