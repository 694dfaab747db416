import Mathlib.Data.List.Infix
import WebhookRelay.Model.Celery

/-!
# The stored circuit state as an automaton over the log

Whatever programs share the row, the log of performed operations determines the stored
circuit state: `CircuitState.after` is the automaton of the three statements that write
it. Counting along the automaton bounds the acquisitions by the openings.

## Main results

* `stored_circuitState` — the stored state is the automaton's state after the log.
* `trials_bounded_by_openings` — any workers calling the breaker methods on copies of any
  age win at most as many trials as the circuit was opened, and one per opening.
-/

namespace WebhookRelay

open Interleaving

/-- The circuit state that an operation leaves, given its answer; `none` when the
conditional update reports a row it cannot have matched. -/
def CircuitState.after (state : CircuitState) : Event relay → Option CircuitState
  | ⟨.setHalfOpen, true⟩ => if state = .open then some .halfOpen else none
  | ⟨.resetCircuit, _⟩ => some .closed
  | ⟨.openCircuit _, _⟩ => some .open
  | _ => some state

/-- The conditional update moved the row from `OPEN` to `HALF_OPEN`. -/
def isTrial : Event relay → Bool
  | ⟨.setHalfOpen, true⟩ => true
  | _ => false

/-- `record_circuit_failure` wrote `OPEN`. -/
def isOpening : Event relay → Bool
  | ⟨.openCircuit _, _⟩ => true
  | _ => false

/-- `record_circuit_success` reset the breaker. -/
def isReset : Event relay → Bool
  | ⟨.resetCircuit, _⟩ => true
  | _ => false

theorem isOpening_iff {op : Op} {answer : op.Answer} :
    isOpening ⟨op, answer⟩ ↔ ∃ openedAt, op = .openCircuit openedAt := by
  cases op <;> simp [isOpening]

theorem after_respond (outside : Outside) (op : Op) (s : Store) :
    s.endpoint.circuitState.after ⟨op, (respond outside op s).1⟩ =
      some (respond outside op s).2.endpoint.circuitState := by
  cases op with
  | setHalfOpen =>
    by_cases h : s.endpoint.circuitState = .open <;>
      simp [CircuitState.after, respond, WebhookEndpoint.halfOpened, h]
  | _ => rfl

section Respond

variable {outside : Outside} {op : Op} {s : Store}

/-- Only the conditional update on an open row wins a trial. -/
theorem isTrial_respond : isTrial ⟨op, (respond outside op s).1⟩ ↔
    op = .setHalfOpen ∧ s.endpoint.circuitState = .open := by
  cases op with
  | setHalfOpen => by_cases h : s.endpoint.circuitState = .open <;> simp [respond, isTrial, h]
  | _ => simp [isTrial]

/-- How the circuit can be open after an operation. -/
theorem open_respond (h : (respond outside op s).2.endpoint.circuitState = .open) :
    (∃ openedAt, op = .openCircuit openedAt) ∨
      s.endpoint.circuitState = .open ∧ op ≠ .setHalfOpen := by
  cases op with
  | setHalfOpen =>
    by_cases hopen : s.endpoint.circuitState = .open <;>
      simp [respond, hopen, WebhookEndpoint.halfOpened] at h
  | resetCircuit => simp [respond, WebhookEndpoint.reset] at h
  | openCircuit openedAt => exact .inl ⟨openedAt, rfl⟩
  | _ => exact .inr ⟨h, by simp⟩

/-- How the circuit can be half-open after an operation. -/
theorem halfOpen_respond (h : (respond outside op s).2.endpoint.circuitState = .halfOpen) :
    isTrial ⟨op, (respond outside op s).1⟩ ∨
      s.endpoint.circuitState = .halfOpen ∧ op ≠ .resetCircuit ∧
        ∀ openedAt, op ≠ .openCircuit openedAt := by
  rw [isTrial_respond]
  cases op with
  | setHalfOpen =>
    by_cases hopen : s.endpoint.circuitState = .open
    · exact .inl ⟨rfl, hopen⟩
    · exact .inr (by simpa [respond, hopen] using h)
  | resetCircuit => simp [respond, WebhookEndpoint.reset] at h
  | openCircuit openedAt => simp [respond, WebhookEndpoint.opened] at h
  | _ => exact .inr ⟨h, by simp, by simp⟩

end Respond

theorem disturb_circuitState (disturbance : Disturbance) (s : Store) :
    (disturb disturbance s).endpoint.circuitState = s.endpoint.circuitState := by
  cases disturbance <;> rfl

/-! ## Counting along the automaton -/

/-- Run the automaton over a log. -/
def CircuitState.afterLog {ι : Type} (state : CircuitState) (log : List (ι × Event relay)) :
    Option CircuitState :=
  log.foldlM (fun state entry => state.after entry.2) state

variable {ι : Type}

/-- How many operations of the log won a trial. -/
def trials (log : List (ι × Event relay)) : Nat := log.countP fun entry => isTrial entry.2

/-- How many operations of the log opened the circuit. -/
def openings (log : List (ι × Event relay)) : Nat := log.countP fun entry => isOpening entry.2

/-- The trials that a state still allows before the next opening. -/
def CircuitState.credit (state : CircuitState) : Nat := if state = .open then 1 else 0

theorem credit_after {state next : CircuitState} {ev : Event relay}
    (h : state.after ev = some next) :
    (if isTrial ev then 1 else 0) + next.credit ≤
      (if isOpening ev then 1 else 0) + state.credit := by
  unfold CircuitState.after at h
  split at h
  · obtain ⟨rfl, rfl⟩ : state = .open ∧ .halfOpen = next := by simpa using h
    simp [isTrial, isOpening, CircuitState.credit]
  · obtain rfl := Option.some.inj h
    simp [isTrial, CircuitState.credit]
  · obtain rfl := Option.some.inj h
    simp [isTrial, isOpening, CircuitState.credit]
  · obtain rfl := Option.some.inj h
    simp_all [isTrial]

/-- Every trial uses up the credit of an opening. -/
theorem trials_add_credit {state last : CircuitState} {log : List (ι × Event relay)}
    (h : state.afterLog log = some last) :
    trials log + last.credit ≤ openings log + state.credit := by
  induction log generalizing state with
  | nil =>
    obtain rfl : state = last := by simpa [CircuitState.afterLog] using h
    simp [trials, openings]
  | cons entry log ih =>
    obtain ⟨next, hnext, hrest⟩ := Option.bind_eq_some_iff.mp h
    have hstep := credit_after hnext
    have hlog := ih hrest
    simp only [trials, openings, List.countP_cons] at hlog ⊢
    omega

/-- In a log that the automaton accepts from a closed circuit the trials of every prefix
are covered by its openings, and a stretch without an opening has at most one trial. -/
theorem trials_of_afterLog {last : CircuitState} {log : List (ι × Event relay)}
    (h : CircuitState.closed.afterLog log = some last) :
    (∀ p, p <+: log → trials p ≤ openings p) ∧
      ∀ p q r, log = p ++ q ++ r → openings q = 0 → trials q ≤ 1 := by
  constructor
  · rintro p ⟨r, rfl⟩
    rw [CircuitState.afterLog, List.foldlM_append] at h
    obtain ⟨mid, hp, -⟩ := Option.bind_eq_some_iff.mp h
    have := trials_add_credit hp
    have : CircuitState.closed.credit = 0 := rfl
    omega
  · rintro p q r rfl hq
    rw [CircuitState.afterLog, List.append_assoc, List.foldlM_append] at h
    obtain ⟨mid, -, h⟩ := Option.bind_eq_some_iff.mp h
    rw [List.foldlM_append] at h
    obtain ⟨mid', hmid, -⟩ := Option.bind_eq_some_iff.mp h
    have := trials_add_credit hmid
    have : mid.credit ≤ 1 := by
      unfold CircuitState.credit
      split <;> omega
    omega

/-! ## Any pool over the database keeps the automaton in step -/

section Pool

variable [DecidableEq ι] {α : Type} {sys : System relay Outside Disturbance ι Store α}
  {G : Config relay ι Store α → Label Outside Disturbance ι → Prop}
  {init c : Config relay ι Store α}

/-- The stored circuit state is the automaton's state after the log. -/
theorem stored_circuitState (hhandle : sys.handle = database) (henv : sys.environment = disturb)
    (hlog : init.log = []) (h : sys.Reaches G init c) :
    init.store.endpoint.circuitState.afterLog c.log = some c.store.endpoint.circuitState := by
  induction h with
  | refl => simp [hlog, CircuitState.afterLog]
  | @step c d label _ _ hs ih =>
    cases label with
    | run i outside =>
      obtain ⟨op, rest, -, rfl⟩ := System.step_run.mp hs
      rw [CircuitState.afterLog] at ih ⊢
      simp only [System.advance, List.foldlM_append, ih, hhandle]
      simpa [database] using after_respond outside op c.store
    | relaunch i =>
      obtain ⟨_, _, -, -, rfl⟩ := System.step_relaunch.mp hs
      exact ih
    | environment a =>
      obtain rfl := System.step_environment.mp hs
      simpa [henv, disturb_circuitState] using ih

end Pool

/-! ## Workers that call the breaker -/

/-- What a worker does with the breaker: any calls in any order, each on a copy of any
age and chosen after what the calls before it returned. -/
inductive Session where
  | done
  | load (next : Except PyError (Option WebhookEndpoint) → Session)
  | tryAcquireDeliverySlot (self : WebhookEndpoint) (next : Bool × WebhookEndpoint → Session)
  | recordCircuitSuccess (self : WebhookEndpoint) (next : WebhookEndpoint → Session)
  | recordCircuitFailure (self : WebhookEndpoint) (next : WebhookEndpoint → Session)

/-- The statements of a session. -/
def Session.run : Session → Delivery Unit
  | .done => return
  | .load next => Delivery.getEnabled >>= fun r => (next r).run
  | .tryAcquireDeliverySlot self next => self.tryAcquireDeliverySlot >>= fun r => (next r).run
  | .recordCircuitSuccess self next => self.recordCircuitSuccess >>= fun r => (next r).run
  | .recordCircuitFailure self next => self.recordCircuitFailure >>= fun r => (next r).run

/-- Workers that each run one session. -/
def callers : System relay Outside Disturbance ι Store Unit where
  handle := database
  environment := disturb
  relaunch _ _ := none

/-- Every session is about to start. -/
def sessions (session : ι → Session) (s : Store) : Config relay ι Store Unit where
  store := s
  program i := (session i).run
  log := []

/-- Each opening admits at most one trial: at every point of every interleaving, from a
closed circuit, the trials won so far are at most the openings written so far, and a
stretch of the run without an opening has at most one trial. -/
theorem trials_bounded_by_openings [DecidableEq ι] (session : ι → Session) (s : Store)
    (hclosed : s.endpoint.circuitState = .closed) {c : Config relay ι Store Unit}
    (h : callers.Reaches (fun _ _ => True) (sessions session s) c) :
    (∀ p, p <+: c.log → trials p ≤ openings p) ∧
      ∀ p q r, c.log = p ++ q ++ r → openings q = 0 → trials q ≤ 1 := by
  have hstored : s.endpoint.circuitState.afterLog c.log = some c.store.endpoint.circuitState :=
    stored_circuitState rfl rfl rfl h
  exact trials_of_afterLog (hclosed ▸ hstored)

/-- One worker opens the circuit, then two workers with the same stale copy of the open
row race for the trial. -/
def racingSessions : Fin 3 → Session
  | 0 => .recordCircuitFailure { newEndpoint with circuitBreakerFailureThreshold := 1 }
      fun _ => .done
  | _ => .tryAcquireDeliverySlot (newEndpoint.opened (-300000000)) fun _ => .done

theorem trials_bounded_by_openings_racing :
    ∃ c : Config relay (Fin 3) Store Unit, trials c.log = 1 ∧ c.log.length = 8 ∧
      (∀ p, p <+: c.log → trials p ≤ openings p) ∧
      ∀ p q r, c.log = p ++ q ++ r → openings q = 0 → trials q ≤ 1 := by
  let turns : List (Fin 3) := [0, 0, 0, 0, 1, 2, 2, 1]
  have hrun : (callers.schedule (sessions racingSessions { endpoint := newEndpoint })
      (turns.map (turn 200))).map (fun c => (trials c.log, c.log.length)) = some (1, 8) := by decide
  obtain ⟨c, hc, hcounts⟩ := Option.map_eq_some_iff.mp hrun
  have hcounts := Prod.mk.inj hcounts
  exact ⟨c, hcounts.1, hcounts.2, trials_bounded_by_openings racingSessions
    { endpoint := newEndpoint } rfl (System.reaches_of_schedule hc .refl)⟩

end WebhookRelay
