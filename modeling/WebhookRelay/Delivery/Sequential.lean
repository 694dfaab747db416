import WebhookRelay.Delivery.Retries

/-!
# Chains one after the other

The circuit breaker as its decision record describes it is a machine with two states. It
is closed, with the number of failures since the last success, or open since some time.
The stored row goes through more: it is half-open during a trial, and its count goes on
growing while the circuit is open. When no two chains overlap, nobody can tell, as long as a
chain that fails can write the row that says so: otherwise it ends before it counts the failure.

## Main results

* `chain_step` — one chain, with all its retries, is one step of the circuit if it can record its
  end.
* `chains_refine_circuit_iff` — so is each of any number of chains that do not overlap, exactly
  if those that are let through can record their end.
-/

namespace WebhookRelay

open Interleaving

/-! ## The circuit -/

inductive Circuit where
  | closed (failures : Nat)
  | «open» (since : Time)
  deriving DecidableEq, Repr

/-- What becomes of a chain: it is held back, or it sends its requests and ends with a
success or a failure. -/
inductive Passage where
  | heldBack
  | sent (succeeded : Bool)
  deriving DecidableEq, Repr

/-- The circuit after a chain, `none` if the circuit does not treat it so. -/
def Circuit.step (threshold : Nat) (cooldown start stop : Time) :
    Circuit → Passage → Option Circuit
  | .closed _, .heldBack => none
  | .closed _, .sent true => some (.closed 0)
  | .closed failures, .sent false =>
    some (if failures + 1 < threshold then .closed (failures + 1) else .open stop)
  | .open since, .heldBack => if start - since < cooldown then some (.open since) else none
  | .open since, .sent succeeded =>
    if start - since < cooldown then none
    else some (if succeeded then .closed 0 else .open stop)

/-! ## Chains -/

/-- A delivery and what surrounds its attempts. -/
structure DeliveryChain where
  job : Job
  env : Nat → Surroundings

/-- Run chains one after the other, each to its end. -/
def runChains (lib : Primitives) (settings : Settings) (fuel : Nat) :
    List DeliveryChain → Store → Option (List ChainResult)
  | [], _ => some []
  | chain :: chains, s => do
    let r ← runChain (deliverWebhook lib settings chain.job) chain.env fuel 0 s
    let results ← runChains lib settings fuel chains r.store
    return r :: results

/-- Nobody edits the endpoint during the chain, the payload passes the filter, no exception
is raised before a request and every outcome is one that the task handles. -/
structure DeliveryChain.Regular (settings : Settings) (row : WebhookEndpoint)
    (chain : DeliveryChain) : Prop where
  unedited : ∀ k, (chain.env k).edit = id
  loads : ∀ k, (chain.env k).outside.keyError = none
  delivers : ∀ k, deliverable settings chain.job k row
  secret : ∀ k, (chain.env k).outside.secret ≠ .failed
  handled : ∀ k, (chain.env k).outside.outcome.handled

/-- The verdict of an attempt of the chain on a row with this configuration. -/
def DeliveryChain.verdict (row : WebhookEndpoint) (chain : DeliveryChain) (k : Nat) : Verdict :=
  verdictAt chain.env (fun _ => row.maxRetries) (fun k => recordError chain.job k row) k

/-- The attempt that ends the chain is not left without a row. -/
def DeliveryChain.Recordable (row : WebhookEndpoint) (chain : DeliveryChain) : Prop :=
  ∀ last, (∀ k < last, chain.verdict row k = .retried) →
    (chain.verdict row last).isUnrecorded = false

/-- If the breaker lets the chain through, it can record its end. -/
def DeliveryChain.RecordableFrom (row : WebhookEndpoint) (chain : DeliveryChain) (s : Store) :
    Prop :=
  (admitted s.endpoint (s.clock + (chain.env 0).wait)).isSome → chain.Recordable row

/-- So can each of a number of chains, in the store it finds. -/
def EachRecordable (row : WebhookEndpoint) :
    Store → List DeliveryChain → List ChainResult → Prop
  | s, chain :: chains, r :: results =>
    chain.RecordableFrom row s ∧ EachRecordable row r.store chains results
  | _, _, _ => True

/-- The trace of a chain that has `retried` attempts retried and then ends with `verdict`. -/
def sentTrace (correlationId : String) (retried : Nat) (verdict : Verdict) : List (List Act) :=
  (List.range' 0 retried).map (Verdict.acts correlationId · .retried) ++
    [verdict.acts correlationId retried]

/-- The traces of the chains that a passage describes. -/
def Passage.Traced (correlationId : String) (trace : List (List Act)) : Passage → Prop
  | .heldBack => trace = [[.row correlationId 1 .circuitOpen]]
  | .sent true => ∃ retried, trace = sentTrace correlationId retried .succeeded
  | .sent false => ∃ retried, trace = sentTrace correlationId retried .exhausted

theorem getLast?_sentTrace (correlationId : String) (retried : Nat) (v : Verdict) :
    (sentTrace correlationId retried v).getLast? = some (v.acts correlationId retried) := by
  simp [sentTrace]

/-- The trace of a chain that ends without its row is that of no passage. -/
theorem recorded_of_traced {correlationId : String} {retried : Nat} {v : Verdict}
    {passage : Passage} (h : passage.Traced correlationId (sentTrace correlationId retried v)) :
    v.isUnrecorded = false := by
  have hlast := getLast?_sentTrace correlationId retried v
  cases v with
  | unrecorded e =>
    rcases passage with _ | (_ | _)
    · rw [h] at hlast
      simp [Verdict.acts] at hlast
    · obtain ⟨n, htrace⟩ := h
      rw [htrace, getLast?_sentTrace] at hlast
      simp [Verdict.acts] at hlast
    · obtain ⟨n, htrace⟩ := h
      rw [htrace, getLast?_sentTrace] at hlast
      simp [Verdict.acts] at hlast
  | _ => rfl

/-! ## Circuits and rows -/

/-- The row stores the circuit. -/
def Circuit.Stored (threshold : Nat) (row : WebhookEndpoint) : Circuit → Prop
  | .closed failures =>
    row.circuitState = .closed ∧ row.consecutiveFailures = failures ∧ failures < threshold
  | .open since =>
    row.circuitState = .open ∧ row.circuitOpenedAt = some since ∧
      threshold ≤ row.consecutiveFailures

theorem Circuit.Stored.ne_halfOpen {threshold : Nat} {row : WebhookEndpoint} {circuit : Circuit}
    (h : circuit.Stored threshold row) : row.circuitState ≠ .halfOpen := by
  cases circuit with
  | closed failures => simp [h.1]
  | «open» since => simp [h.1]

/-- The stores and the traces of chains, one after the other, and the circuits that go with
them: every chain is a step of the circuit, from its first attempt to its last. -/
inductive Simulates (threshold : Nat) (cooldown : Time) :
    Circuit → Store → List DeliveryChain → List ChainResult → Prop where
  | nil {circuit : Circuit} {s : Store} : circuit.Stored threshold s.endpoint →
      Simulates threshold cooldown circuit s [] []
  | cons {circuit next : Circuit} {s : Store} {chain : DeliveryChain} {r : ChainResult}
      {chains : List DeliveryChain} {results : List ChainResult} (passage : Passage) :
      circuit.Stored threshold s.endpoint →
      passage.Traced chain.job.correlationId (r.events.map acts) →
      circuit.step threshold cooldown (s.clock + (chain.env 0).wait) r.store.clock passage =
        some next →
      Simulates threshold cooldown next r.store chains results →
      Simulates threshold cooldown circuit s (chain :: chains) (r :: results)

theorem Simulates.stored {threshold : Nat} {cooldown : Time} {circuit : Circuit} {s : Store}
    {chains : List DeliveryChain} {results : List ChainResult}
    (h : Simulates threshold cooldown circuit s chains results) :
    circuit.Stored threshold s.endpoint := by
  cases h with
  | nil hstored => exact hstored
  | cons _ hstored => exact hstored

/-- Between the chains the row is never half-open. -/
theorem Simulates.ne_halfOpen {threshold : Nat} {cooldown : Time} {circuit : Circuit} {s : Store}
    {chains : List DeliveryChain} {results : List ChainResult}
    (h : Simulates threshold cooldown circuit s chains results) :
    ∀ r ∈ results, r.store.endpoint.circuitState ≠ .halfOpen := by
  induction h with
  | nil => simp
  | cons passage _ _ _ htail ih =>
    simp only [List.mem_cons, forall_eq_or_imp]
    exact ⟨htail.stored.ne_halfOpen, ih⟩

/-- The row with other values of the breaker's fields. -/
def WebhookEndpoint.withCircuit (row : WebhookEndpoint) (state : CircuitState) (failures : Nat)
    (openedAt : Option Time) : WebhookEndpoint :=
  { row with
    circuitState := state, consecutiveFailures := failures, circuitOpenedAt := openedAt }

/-- The rows with the configuration of `row`. -/
def WebhookEndpoint.Configured (row other : WebhookEndpoint) : Prop :=
  ∃ state failures openedAt, other = row.withCircuit state failures openedAt

namespace WebhookEndpoint.Configured

variable {row other : WebhookEndpoint}

theorem refl (row : WebhookEndpoint) : row.Configured row := ⟨_, _, _, rfl⟩

theorem halfOpened (h : row.Configured other) : row.Configured other.halfOpened := by
  obtain ⟨state, failures, openedAt, rfl⟩ := h
  exact ⟨_, _, _, rfl⟩

theorem settle (v : Verdict) (threshold : Nat) (time : Time) (h : row.Configured other) :
    row.Configured (v.settle threshold time other) := by
  obtain ⟨state, failures, openedAt, rfl⟩ := h
  cases v with
  | retried | unrecorded e | succeeded => exact ⟨_, _, _, rfl⟩
  | exhausted =>
    simp only [Verdict.settle, WebhookEndpoint.failing]
    split <;> exact ⟨_, _, _, rfl⟩

/-- What does not depend on the breaker's fields is the same. -/
theorem same {β : Type} (h : row.Configured other) (part : WebhookEndpoint → β)
    (hpart : ∀ state failures openedAt,
      part (row.withCircuit state failures openedAt) = part row) : part other = part row := by
  obtain ⟨state, failures, openedAt, rfl⟩ := h
  exact hpart state failures openedAt

end WebhookEndpoint.Configured

/-! ## One chain -/

section Step

variable (lib : Primitives) {settings : Settings} {row : WebhookEndpoint}

theorem recordable_iff {chain : DeliveryChain} {last : Nat}
    (hretry : ∀ k < last, chain.verdict row k = .retried)
    (hlast : chain.verdict row last ≠ .retried) :
    chain.Recordable row ↔ (chain.verdict row last).isUnrecorded = false := by
  refine ⟨fun h => h last hretry, fun h other hother => ?_⟩
  rcases lt_trichotomy other last with hlt | rfl | hlt
  · rw [hretry other hlt]
    rfl
  · exact h
  · exact absurd (hother last hlt) hlast

/-- A regular chain that is let through sends its requests and settles the row it has found or
the one with which it was let through. -/
theorem sent_chain (henabled : row.enabled) {chain : DeliveryChain}
    (h : chain.Regular settings row) {s : Store} (hs : row.Configured s.endpoint)
    {admittedRow : WebhookEndpoint}
    (hgate : admitted s.endpoint (s.clock + (chain.env 0).wait) = some admittedRow) :
    ∃ r retried v other, (∀ fuel, max row.maxRetries 1 ≤ fuel →
        runChain (deliverWebhook lib settings chain.job) chain.env fuel 0 s = some r) ∧
      v ≠ .retried ∧ (chain.Recordable row ↔ v.isUnrecorded = false) ∧
      r.events.map acts = sentTrace chain.job.correlationId retried v ∧
      (other = s.endpoint ∨ other = admittedRow) ∧ row.Configured other ∧
      r.store.endpoint = v.settle row.circuitBreakerFailureThreshold r.store.clock other := by
  have hgate' : letThrough 0 ((chain.env 0).momentBefore s) = some admittedRow := by
    rw [letThrough, if_pos rfl, Surroundings.momentBefore, h.unedited 0]
    exact hgate
  have hadmitted : row.Configured admittedRow := by
    rcases letThrough_cases hgate' with rfl | rfl <;>
      rw [Surroundings.momentBefore, h.unedited 0]
    · exact hs
    · exact hs.halfOpened
  let fits (other : WebhookEndpoint) := other = s.endpoint ∨ other = admittedRow
  have hfits : ∀ other, fits other → row.Configured other := fun other hother =>
    hother.elim (· ▸ hs) (· ▸ hadmitted)
  have hunhindered : Unhindered settings chain.job chain.env fits := by
    refine ⟨fun k other hother => ?_, fun k other hother => ?_, h.loads, fun k other hother => ?_,
      h.secret, h.handled⟩ <;> rw [h.unedited k]
    · exact hother
    · exact ((hfits other hother).same (·.enabled) fun _ _ _ => rfl).trans henabled
    · exact ((hfits other hother).same (deliverable settings chain.job k) fun _ _ _ => rfl).trans
        (h.delivers k)
  have hlimit : ∀ k other, fits other →
      ((chain.env k).edit other).maxRetries = row.maxRetries := fun k other hother => by
    rw [h.unedited k]
    exact (hfits other hother).same (·.maxRetries) fun _ _ _ => rfl
  have hfailure : ∀ k other, fits other →
      recordError chain.job k ((chain.env k).edit other) = recordError chain.job k row :=
    fun k other hother => by
      rw [h.unedited k]
      exact (hfits other hother).same (recordError chain.job k) fun _ _ _ => rfl
  obtain ⟨last, hbound, hretry, hlast⟩ := exists_last chain.env
    (fun k => recordError chain.job k row) fun _ => le_refl row.maxRetries
  obtain ⟨r, other, hrun, htrace, -, -, hother, hsettled⟩ := chain_law lib hunhindered hlimit
    hfailure hretry hlast last 0 (Nat.zero_add last) s admittedRow (.inl rfl) (.inr rfl) hgate'
  refine ⟨r, last, chain.verdict row last, other,
    fun fuel hfuel => hrun fuel (lt_of_lt_of_le hbound hfuel), hlast, recordable_iff hretry hlast,
    htrace, hother, hfits other hother, ?_⟩
  rw [DeliveryChain.verdict, hsettled,
    (hfits other hother).same (·.circuitBreakerFailureThreshold) fun _ _ _ => rfl]

/-- A chain that the breaker holds back ends with its first attempt. -/
theorem heldBack_chain (henabled : row.enabled) {chain : DeliveryChain}
    (h : chain.Regular settings row) {s : Store} (hs : row.Configured s.endpoint)
    (hgate : admitted s.endpoint (s.clock + (chain.env 0).wait) = none) :
    ∃ r, (∀ fuel, 1 ≤ fuel →
        runChain (deliverWebhook lib settings chain.job) chain.env fuel 0 s = some r) ∧
      r.events.map acts = [[.row chain.job.correlationId 1 .circuitOpen]] ∧
      r.store.endpoint = s.endpoint := by
  have henabled' : s.endpoint.enabled := (hs.same (·.enabled) fun _ _ _ => rfl).trans henabled
  have hdeliverable :=
    (hs.same (deliverable settings chain.job 0) fun _ _ _ => rfl).trans (h.delivers 0)
  simp only [deliverable, Bool.and_eq_true] at hdeliverable
  have hmoment : (chain.env 0).momentBefore s = ⟨s.endpoint, s.clock + (chain.env 0).wait⟩ := by
    rw [Surroundings.momentBefore, h.unedited 0]
    rfl
  have hcourse : course (chain.env 0).outside ((chain.env 0).momentBefore s)
      (deliverWebhook lib settings chain.job 0) =
        ⟨[.row chain.job.correlationId 1 .circuitOpen], (chain.env 0).momentBefore s,
          .returned⟩ := by
    rw [hmoment]
    exact rejected lib (h.loads 0) henabled' hdeliverable.1 hgate
  obtain ⟨hacts, hstore, hvalue⟩ := attemptRun_course hcourse
  let run := attemptRun (deliverWebhook lib settings chain.job) chain.env 0 s
  refine ⟨⟨run.store, [run.events], [], run.value⟩, fun fuel hfuel => ?_, ?_, ?_⟩
  · obtain ⟨fuel, rfl⟩ := Nat.exists_eq_succ_of_ne_zero (Nat.one_le_iff_ne_zero.mp hfuel)
    exact runChain_last (fun next countdown => by simp [hvalue]) fuel
  · simp [run, hacts]
  · rw [hmoment] at hstore
    exact congrArg Moment.row hstore

/-- The circuit steps with a chain that was let through and recorded its end. -/
theorem Circuit.Stored.step_sent (hbreaker : row.circuitBreakerEnabled)
    (hthreshold : 1 ≤ row.circuitBreakerFailureThreshold) {found admittedRow other : WebhookEndpoint}
    (hfound : row.Configured found) {circuit : Circuit}
    (hcircuit : circuit.Stored row.circuitBreakerFailureThreshold found) {start stop : Time}
    (hgate : admitted found start = some admittedRow)
    (hother : other = found ∨ other = admittedRow) {v : Verdict} (hv : v ≠ .retried)
    (hrecorded : v.isUnrecorded = false) (correlationId : String) (retried : Nat) :
    ∃ passage next, passage.Traced correlationId (sentTrace correlationId retried v) ∧
      circuit.step row.circuitBreakerFailureThreshold row.cooldown start stop passage =
        some next ∧
      next.Stored row.circuitBreakerFailureThreshold
        (v.settle row.circuitBreakerFailureThreshold stop other) := by
  have hbreaker' : found.circuitBreakerEnabled = true :=
    (hfound.same (·.circuitBreakerEnabled) fun _ _ _ => rfl).trans hbreaker
  have hcooldown : found.cooldown = row.cooldown := hfound.same (·.cooldown) fun _ _ _ => rfl
  cases circuit with
  | closed failures =>
    obtain ⟨hclosed, hcount, hbelow⟩ := hcircuit
    have hsame : other = found := by
      rw [admitted, hclosed] at hgate
      exact hother.elim id (·.trans (Option.some.inj (by simpa using hgate)).symm)
    subst hsame
    cases v with
    | retried => exact absurd rfl hv
    | unrecorded e => cases hrecorded
    | succeeded => exact ⟨.sent true, .closed 0, ⟨retried, rfl⟩, rfl, rfl, rfl, hthreshold⟩
    | exhausted =>
      refine ⟨.sent false, _, ⟨retried, rfl⟩, rfl, ?_⟩
      rw [Verdict.settle, WebhookEndpoint.failing, hcount]
      by_cases hreach : failures + 1 < row.circuitBreakerFailureThreshold
      · rw [if_pos hreach, if_neg (Nat.not_le.mpr hreach)]
        exact ⟨hclosed, rfl, hreach⟩
      · rw [if_neg hreach, if_pos (Nat.not_lt.mp hreach)]
        exact ⟨rfl, rfl, Nat.not_lt.mp hreach⟩
  | «open» since =>
    obtain ⟨hopen, hsince, hreached⟩ := hcircuit
    have helapsed : ¬ start - since < row.cooldown := by
      intro helapsed
      simp [admitted, hbreaker', hopen, hsince, hcooldown, helapsed] at hgate
    have htrial : admittedRow = found.halfOpened := by
      simpa [admitted, hbreaker', hopen, hsince, hcooldown, helapsed, eq_comm] using hgate
    -- whether the row is still open or half-open does not matter to the verdict
    have hcount : row.circuitBreakerFailureThreshold ≤ other.consecutiveFailures := by
      rcases hother with rfl | rfl
      · exact hreached
      · exact htrial ▸ hreached
    cases v with
    | retried => exact absurd rfl hv
    | unrecorded e => cases hrecorded
    | succeeded =>
      exact ⟨.sent true, .closed 0, ⟨retried, rfl⟩, if_neg helapsed, rfl, rfl, hthreshold⟩
    | exhausted =>
      refine ⟨.sent false, .open stop, ⟨retried, rfl⟩, if_neg helapsed, ?_⟩
      rw [Verdict.settle, WebhookEndpoint.failing, if_pos (Nat.le_succ_of_le hcount)]
      exact ⟨rfl, rfl, Nat.le_succ_of_le hcount⟩

/-- A regular chain ends. Whatever circuit the row stores, the chain is a step of it if it is held
back or can record its end, and has a trace that no step has otherwise. -/
theorem chain_step (henabled : row.enabled) (hbreaker : row.circuitBreakerEnabled)
    (hthreshold : 1 ≤ row.circuitBreakerFailureThreshold) {chain : DeliveryChain}
    (h : chain.Regular settings row) {s : Store} (hs : row.Configured s.endpoint) :
    ∃ r, (∀ fuel, max row.maxRetries 1 ≤ fuel →
        runChain (deliverWebhook lib settings chain.job) chain.env fuel 0 s = some r) ∧
      row.Configured r.store.endpoint ∧
      ∀ circuit : Circuit, circuit.Stored row.circuitBreakerFailureThreshold s.endpoint →
        (chain.RecordableFrom row s → ∃ passage next,
          passage.Traced chain.job.correlationId (r.events.map acts) ∧
          circuit.step row.circuitBreakerFailureThreshold row.cooldown
            (s.clock + (chain.env 0).wait) r.store.clock passage = some next ∧
          next.Stored row.circuitBreakerFailureThreshold r.store.endpoint) ∧
        ((∃ passage : Passage, passage.Traced chain.job.correlationId (r.events.map acts)) →
          chain.RecordableFrom row s) := by
  cases hgate : admitted s.endpoint (s.clock + (chain.env 0).wait) with
  | none =>
    have hvacuous : chain.RecordableFrom row s := fun hsends => by simp [hgate] at hsends
    obtain ⟨r, hrun, htrace, hstored⟩ := heldBack_chain lib henabled h hs hgate
    refine ⟨r, fun fuel hfuel => hrun fuel (le_trans (le_max_right _ _) hfuel), hstored ▸ hs,
      fun circuit hcircuit => ⟨fun _ => ?_, fun _ => hvacuous⟩⟩
    cases circuit with
    | closed failures => simp [admitted, hcircuit.1] at hgate
    | «open» since =>
      have hcooldown : s.endpoint.cooldown = row.cooldown :=
        hs.same (·.cooldown) fun _ _ _ => rfl
      have helapsed : s.clock + (chain.env 0).wait - since < row.cooldown := by
        by_contra helapsed
        simp only [admitted, hcircuit.1, hcircuit.2.1, hcooldown, helapsed] at hgate
        split at hgate <;> cases hgate
      exact ⟨.heldBack, .open since, htrace, if_pos helapsed, hstored ▸ hcircuit⟩
  | some admittedRow =>
    obtain ⟨r, retried, v, other, hrun, hv, hrecordable, htrace, hother, hconfigured, hstored⟩ :=
      sent_chain lib henabled h hs hgate
    have hfrom : chain.RecordableFrom row s ↔ v.isUnrecorded = false := by
      rw [← hrecordable, DeliveryChain.RecordableFrom, hgate]
      exact ⟨fun himp => himp rfl, fun hall _ => hall⟩
    refine ⟨r, hrun, hstored ▸ hconfigured.settle v _ _, fun circuit hcircuit => ⟨?_, ?_⟩⟩
    · intro hrecorded
      rw [htrace, hstored]
      exact hcircuit.step_sent hbreaker hthreshold hs hgate hother hv (hfrom.mp hrecorded) _ _
    · rintro ⟨passage, htraced⟩
      exact hfrom.mpr (recorded_of_traced (htrace ▸ htraced))

/-- From any circuit that the row stores, chains that do not overlap are steps of it exactly if
every one of them that is let through can record its end. -/
theorem chains_simulate_iff (henabled : row.enabled) (hbreaker : row.circuitBreakerEnabled)
    (hthreshold : 1 ≤ row.circuitBreakerFailureThreshold) (chains : List DeliveryChain) :
    ∀ s : Store, (∀ chain ∈ chains, chain.Regular settings row) → row.Configured s.endpoint →
      ∃ results, (∀ fuel, max row.maxRetries 1 ≤ fuel →
          runChains lib settings fuel chains s = some results) ∧
        ∀ circuit : Circuit, circuit.Stored row.circuitBreakerFailureThreshold s.endpoint →
          (Simulates row.circuitBreakerFailureThreshold row.cooldown circuit s chains results ↔
            EachRecordable row s chains results) := by
  induction chains with
  | nil =>
    exact fun s _ _ => ⟨[], fun fuel _ => rfl, fun circuit hcircuit =>
      ⟨fun _ => trivial, fun _ => .nil hcircuit⟩⟩
  | cons chain chains ih =>
    intro s h hs
    obtain ⟨r, hrun, hconfigured, hstep⟩ :=
      chain_step lib henabled hbreaker hthreshold (h chain List.mem_cons_self) hs
    obtain ⟨results, hruns, hsimulates⟩ := ih r.store
      (fun other hother => h other (List.mem_cons_of_mem _ hother)) hconfigured
    refine ⟨r :: results, fun fuel hfuel => ?_, fun circuit hcircuit => ⟨fun hall => ?_, ?_⟩⟩
    · simp [runChains, hrun fuel hfuel, hruns fuel hfuel]
    · cases hall with
      | cons passage _ htraced _ htail =>
        exact ⟨(hstep circuit hcircuit).2 ⟨passage, htraced⟩,
          (hsimulates _ htail.stored).mp htail⟩
    · rintro ⟨hfirst, hrest⟩
      obtain ⟨passage, next, htraced, hnext, hstored⟩ := (hstep circuit hcircuit).1 hfirst
      exact .cons passage hcircuit htraced hnext ((hsimulates next hstored).mpr hrest)

/-- Any number of regular chains that do not overlap end. They are steps of the circuit, with a
row that is never half-open between them, exactly if every chain that is let through can record
its end. -/
theorem chains_refine_circuit_iff (s : Store) (henabled : s.endpoint.enabled)
    (hbreaker : s.endpoint.circuitBreakerEnabled)
    (hthreshold : 1 ≤ s.endpoint.circuitBreakerFailureThreshold)
    (hclosed : s.endpoint.circuitState = .closed) (hcount : s.endpoint.consecutiveFailures = 0)
    (chains : List DeliveryChain) (h : ∀ chain ∈ chains, chain.Regular settings s.endpoint) :
    ∃ results, (∀ fuel, max s.endpoint.maxRetries 1 ≤ fuel →
        runChains lib settings fuel chains s = some results) ∧
      (Simulates s.endpoint.circuitBreakerFailureThreshold s.endpoint.cooldown (.closed 0) s
          chains results ∧ (∀ r ∈ results, r.store.endpoint.circuitState ≠ .halfOpen) ↔
        EachRecordable s.endpoint s chains results) := by
  obtain ⟨results, hruns, hsimulates⟩ := chains_simulate_iff lib henabled hbreaker hthreshold
    chains s h (.refl _)
  have hiff := hsimulates (.closed 0) ⟨hclosed, hcount, hthreshold⟩
  exact ⟨results, hruns, fun hboth => hiff.mp hboth.1, fun hall =>
    ⟨hiff.mpr hall, (hiff.mpr hall).ne_halfOpen⟩⟩

end Step

/-- A delivery that the receiver answers with the given status after the given wait. -/
def answered (statusCode wait : Nat) : DeliveryChain where
  job := emptyJob
  env _ := { wait, outside := { outcome := .response statusCode "" } }

theorem answered_regular (statusCode wait : Nat) :
    (answered statusCode wait).Regular {} brittle.endpoint :=
  ⟨fun _ => rfl, fun _ => rfl, fun _ => rfl, fun _ => by simp [answered], fun _ => by
    simp [answered, PostOutcome.handled]⟩

/-- A failure, a chain that comes too early, a trial that fails and one that succeeds. -/
theorem chains_refine_circuit_iff_brittle :
    ∃ results, (∀ fuel, max 5 1 ≤ fuel → runChains emptyLib {} fuel
        [answered 404 0, answered 200 1, answered 404 300000000, answered 200 300000000]
        brittle = some results) ∧
      (Simulates 1 300000000 (.closed 0) brittle
          [answered 404 0, answered 200 1, answered 404 300000000, answered 200 300000000]
          results ∧ (∀ r ∈ results, r.store.endpoint.circuitState ≠ .halfOpen) ↔
        EachRecordable brittle.endpoint brittle
          [answered 404 0, answered 200 1, answered 404 300000000, answered 200 300000000]
          results) :=
  chains_refine_circuit_iff emptyLib brittle rfl rfl le_rfl rfl rfl _ (by simp [answered_regular])

/-- An event that an endpoint keeping snapshots cannot store, rejected by the receiver. -/
def stamped (wait : Nat) : DeliveryChain where
  job := stampedJob
  env _ := { wait, outside := { outcome := .response 400 "" } }

/-- Such a rejection is not counted, and when it ends a trial the row remains half-open: after a
failure that opens the circuit at once, the chain with the event is let through as the trial, and
the row it leaves is neither closed nor open. -/
theorem chains_not_refined :
    ∃ results, runChains emptyLib {} 5 [answered 404 0, stamped 300000000]
        { endpoint := { brittle.endpoint with retainPayloadSnapshot := true } } = some results ∧
      results.map (·.store.endpoint.circuitState) = [.open, .halfOpen] ∧
      ¬ (Simulates 1 300000000 (.closed 0)
          { endpoint := { brittle.endpoint with retainPayloadSnapshot := true } }
          [answered 404 0, stamped 300000000] results ∧
        ∀ r ∈ results, r.store.endpoint.circuitState ≠ .halfOpen) := by
  refine ⟨_, rfl, rfl, fun hboth => ?_⟩
  exact hboth.2 _ (List.mem_cons_of_mem _ List.mem_cons_self) rfl

end WebhookRelay
