import Mathlib.Data.Fintype.Basic
import WebhookRelay.Breaker.Transitions
import WebhookRelay.Breaker.View

/-!
# A circuit that is not closed has reached its threshold

A failed trial reopens the circuit because its failure is counted on top of a count that
has reached the threshold. The count is read back and compared in one statement, and the
circuit opened in another: a success recorded in between leaves an open circuit behind
whose count starts over.

## Main results

* `count_reached_iff` — the stored count backs every state but `CLOSED` throughout a run
  exactly if every opening finds it still at the threshold; that is so whenever no success
  is recorded while another chain is about to open the circuit.
-/

namespace WebhookRelay

open Interleaving Program

section

variable {ι : Type}

/-- A circuit that is not closed has a stored count at the threshold or above. -/
def CountReached (c : Config relay ι Store TaskEnd) : Prop :=
  c.store.endpoint.circuitState ≠ .closed →
    c.store.endpoint.circuitBreakerFailureThreshold ≤ c.store.endpoint.consecutiveFailures

/-- If the step opens the circuit, the stored count is at the threshold or above. -/
def OpensAtThreshold (c : Config relay ι Store TaskEnd)
    (label : Label Outside Disturbance ι) : Prop :=
  ∀ entry ∈ System.performed database c label, isOpening entry.2 →
    c.store.endpoint.circuitBreakerFailureThreshold ≤ c.store.endpoint.consecutiveFailures

/-- The step does not edit the endpoint. -/
def Fixed : Label Outside Disturbance ι → Prop
  | .environment (.edit ..) => False
  | _ => True

instance (c : Config relay ι Store TaskEnd) : Decidable (CountReached c) :=
  inferInstanceAs (Decidable (_ → _))

/-- What one operation does to the state and the count. -/
theorem countReached_respond (outside : Outside) (op : Op) (s : Store)
    (hop : ∀ openedAt, op ≠ .openCircuit openedAt)
    (h : s.endpoint.circuitState ≠ .closed →
      s.endpoint.circuitBreakerFailureThreshold ≤ s.endpoint.consecutiveFailures) :
    (respond outside op s).2.endpoint.circuitState ≠ .closed →
      (respond outside op s).2.endpoint.circuitBreakerFailureThreshold ≤
        (respond outside op s).2.endpoint.consecutiveFailures := by
  cases op with
  | setHalfOpen =>
    by_cases hstate : s.endpoint.circuitState = .open
    · simpa [respond, hstate, WebhookEndpoint.halfOpened] using h
    · simpa [respond, hstate] using h
  | resetCircuit => simp [respond, WebhookEndpoint.reset]
  | incrementFailures =>
    intro hstate
    have := h hstate
    simp only [respond, WebhookEndpoint.counting]
    omega
  | openCircuit openedAt => exact absurd rfl (hop openedAt)
  | _ => exact h

variable [DecidableEq ι] {lib : Primitives} {settings : Settings} {jobs : ι → Job} {s : Store}
  {c d : Config relay ι Store TaskEnd} {label : Label Outside Disturbance ι}

/-- A step keeps the count reached exactly if it opens the circuit at the threshold. -/
theorem countReached_step (hfixed : Fixed label) (h : CountReached c)
    (hs : (workers lib settings jobs).step c label = some d) :
    CountReached d ↔ OpensAtThreshold c label := by
  cases label with
  | run i outside =>
    obtain ⟨op, rest, hp, rfl⟩ := System.step_run.mp hs
    simp only [OpensAtThreshold, System.performed_run hp, Option.mem_some_iff, forall_eq']
    by_cases hop : ∃ openedAt, op = .openCircuit openedAt
    · obtain ⟨openedAt, rfl⟩ := hop
      simp [CountReached, isOpening, System.advance, workers, database, respond,
        WebhookEndpoint.opened]
    · exact iff_of_true (countReached_respond outside op c.store (by simpa using hop) h)
        fun hopening => absurd (isOpening_iff.mp hopening) hop
  | relaunch i =>
    obtain ⟨_, _, -, -, rfl⟩ := System.step_relaunch.mp hs
    exact iff_of_true h fun _ hentry => by cases hentry
  | environment a =>
    obtain rfl := System.step_environment.mp hs
    cases a with
    | tick duration => exact iff_of_true h fun _ hentry => by cases hentry
    | edit => cases hfixed

/-! ## Openings nobody gets in the way of -/

/-- The chain has read back a count at the threshold and not opened the circuit yet. -/
def View.AboutToOpen (view : View) : Prop :=
  view.concluded = false ∧ ∃ copy ∈ view.copy, ∃ failures ∈ view.reread,
    copy.circuitBreakerFailureThreshold ≤ failures

/-- If the step records a success, no chain is about to open the circuit. -/
def Undisturbed (settings : Settings) (jobs : ι → Job) (c : Config relay ι Store TaskEnd)
    (label : Label Outside Disturbance ι) : Prop :=
  ∀ entry ∈ System.performed database c label, isReset entry.2 →
    ∀ j, ¬ (viewOf settings jobs j c.log).AboutToOpen

instance (view : View) : Decidable view.AboutToOpen :=
  inferInstanceAs (Decidable (_ ∧ ∃ copy ∈ view.copy, ∃ failures ∈ view.reread, _ ≤ failures))

instance [Fintype ι] (c : Config relay ι Store TaskEnd) (label : Label Outside Disturbance ι) :
    Decidable (Undisturbed settings jobs c label) :=
  inferInstanceAs (Decidable (∀ entry ∈ System.performed database c label,
    isReset entry.2 → ∀ j, ¬ (viewOf settings jobs j c.log).AboutToOpen))

/-- A chain gets about to open the circuit only by reading the count back. -/
theorem View.aboutToOpen_track {job : Job} {view : View} {op : Op} {answer : op.Answer}
    (hpermits : view.permits settings op)
    (h : (view.track settings job ⟨op, answer⟩).AboutToOpen) :
    view.AboutToOpen ∧ op ≠ .resetCircuit ∨ ∃ copy failures, view.copy = some copy ∧
      (⟨op, answer⟩ : Event relay) = ⟨.refreshFailures, failures⟩ ∧
        copy.circuitBreakerFailureThreshold ≤ failures := by
  have hobserve : (view.observe ⟨op, answer⟩).AboutToOpen := by
    unfold View.track at h
    split at h <;> exact h
  obtain ⟨hopen, copy, hcopy, failures, hreread, hreach⟩ := hobserve
  cases op with
  | getEnabled => exact absurd (hpermits.2.symm.trans hreread) (by simp)
  | refreshFailures => exact .inr ⟨copy, answer, hcopy, rfl, Option.some.inj hreread ▸ hreach⟩
  | resetCircuit => cases hopen
  | openCircuit openedAt => cases hopen
  | _ => exact .inl ⟨⟨hopen, copy, hcopy, failures, hreread, hreach⟩, by simp⟩

/-- Only a recorded success lowers the stored count. -/
theorem failures_respond_le {outside : Outside} {op : Op} (hop : op ≠ .resetCircuit) (s : Store) :
    s.endpoint.consecutiveFailures ≤ (respond outside op s).2.endpoint.consecutiveFailures := by
  cases op with
  | setHalfOpen => by_cases h : s.endpoint.circuitState = .open <;>
      simp [respond, h, WebhookEndpoint.halfOpened]
  | resetCircuit => exact absurd rfl hop
  | incrementFailures => simp [respond, WebhookEndpoint.counting]
  | _ => exact Nat.le_refl _

/-- The count that is read back is the stored one. -/
theorem respond_rereads {outside : Outside} {op : Op} {s : Store} {failures : Nat}
    (h : (⟨op, (respond outside op s).1⟩ : Event relay) = ⟨.refreshFailures, failures⟩) :
    failures = s.endpoint.consecutiveFailures := by
  cases op with
  | refreshFailures => simpa [respond, eq_comm] using h
  | _ => cases h

/-- Without edits the row and all copies keep the threshold they started with. -/
theorem fixed_threshold
    (h : (workers lib settings jobs).Reaches
      (fun c l => Fixed l ∧ Undisturbed settings jobs c l) (launch lib settings jobs s) c) :
    c.store.endpoint.circuitBreakerFailureThreshold =
        s.endpoint.circuitBreakerFailureThreshold ∧
      ∀ i copy, (viewOf settings jobs i c.log).copy = some copy →
        copy.circuitBreakerFailureThreshold = s.endpoint.circuitBreakerFailureThreshold :=
  configuration ⟨fun _ => rfl, fun _ => rfl, fun _ _ => rfl, fun _ _ => rfl⟩
    (fun _ a hG _ => by cases a with
      | tick => rfl
      | edit => cases hG.1) h

/-- As long as nobody gets in the way, the stored count backs every chain that is about to
open the circuit. -/
theorem failures_of_aboutToOpen
    (h : (workers lib settings jobs).Reaches
      (fun c l => Fixed l ∧ Undisturbed settings jobs c l) (launch lib settings jobs s) c) :
    ∀ i, (viewOf settings jobs i c.log).AboutToOpen →
      s.endpoint.circuitBreakerFailureThreshold ≤ c.store.endpoint.consecutiveFailures := by
  refine h.invariant (I := fun c => ∀ i, (viewOf settings jobs i c.log).AboutToOpen →
    s.endpoint.circuitBreakerFailureThreshold ≤ c.store.endpoint.consecutiveFailures)
    (fun i habout => by cases habout.2.choose_spec.1) ?_
  rintro c label d hc ih ⟨hfixed, hundisturbed⟩ hs i habout
  have hthreshold := (fixed_threshold hc).2
  cases label with
  | run j outside =>
    obtain ⟨op, rest, hp, rfl⟩ := System.step_run.mp hs
    simp only [System.advance, viewOf_snoc] at habout ⊢
    by_cases hreset : op = .resetCircuit
    · subst hreset
      have hundisturbed := hundisturbed _ (System.performed_run hp database outside) rfl
      by_cases hij : j = i
      · rw [if_pos hij] at habout
        cases habout.1
      · rw [if_neg hij] at habout
        exact absurd habout (hundisturbed i)
    · refine Nat.le_trans ?_ (failures_respond_le hreset c.store)
      by_cases hij : j = i
      · subst hij
        rw [if_pos rfl] at habout
        rcases View.aboutToOpen_track (permitted hc hp) habout with
          ⟨hbefore, -⟩ | ⟨copy, failures, hcopy, hread, hreach⟩
        · exact ih j hbefore
        · rw [respond_rereads hread, hthreshold j copy hcopy] at hreach
          exact hreach
      · rw [if_neg hij] at habout
        exact ih i habout
  | relaunch j =>
    obtain ⟨_, _, -, -, rfl⟩ := System.step_relaunch.mp hs
    exact ih i habout
  | environment a =>
    obtain rfl := System.step_environment.mp hs
    cases a with
    | tick => exact ih i habout
    | edit => cases hfixed

/-- The stored count backs every state but `CLOSED` throughout a run exactly if each opening
finds it at the threshold, and each opening does if no success is recorded while a chain
is about to open the circuit. -/
theorem count_reached_iff (lib : Primitives) (settings : Settings) (jobs : ι → Job) (s : Store)
    (labels : List (Label Outside Disturbance ι)) (hfixed : ∀ label ∈ labels, Fixed label)
    (hs : CountReached (launch lib settings jobs s)) :
    ((workers lib settings jobs).Always CountReached (launch lib settings jobs s) labels ↔
      (workers lib settings jobs).Each OpensAtThreshold (launch lib settings jobs s) labels) ∧
    ((workers lib settings jobs).Each (Undisturbed settings jobs)
        (launch lib settings jobs s) labels →
      (workers lib settings jobs).Each OpensAtThreshold (launch lib settings jobs s) labels) := by
  constructor
  · exact System.always_iff_each (fun c label hl d hc hstep =>
      countReached_step (hfixed label hl) hc hstep) hs
  · intro hundisturbed
    refine (hundisturbed.and_labels hfixed).mono (fun c label d hc hG hstep => ?_) .refl
    rintro ⟨i, ev⟩ hentry hopening
    obtain ⟨outside, op, rest, -, hp, rfl⟩ := System.mem_performed.mp hentry
    obtain ⟨openedAt, rfl⟩ := isOpening_iff.mp hopening
    obtain ⟨hopen, copy, failures, hcopy, hreread, hreach⟩ := permitted hc hp
    rw [(fixed_threshold hc).1]
    exact failures_of_aboutToOpen hc i ⟨hopen, copy, hcopy, failures, hreread, hreach⟩

end

/-! ## A success between the reading and the opening

Both workers have loaded the closed row. Worker 0 fails, counts and reads back a count of
one; worker 1 succeeds and resets the count; worker 0 opens the circuit. -/

theorem opened_without_failures :
    ¬ (workers emptyLib {} fun _ : Fin 2 => emptyJob).Always CountReached
      (launch emptyLib {} (fun _ => emptyJob) brittle)
      (List.replicate 9 (turn 400 0) ++ List.replicate 7 (turn 200 1) ++ [turn 400 0]) := by
  decide

/-- Chain 0 opens the circuit, chain 1 closes it by its trial, and chain 2 opens it again. -/
theorem count_reached_twice :
    (workers emptyLib {} fun _ : Fin 3 => emptyJob).Always CountReached
      (launch emptyLib {} (fun _ => emptyJob) brittle)
      (List.replicate 10 (turn 400 0) ++ .environment (.tick 300000000) ::
        List.replicate 9 (turn 200 1) ++ List.replicate 10 (turn 400 2)) := by
  have hreached := count_reached_iff emptyLib {} (fun _ : Fin 3 => emptyJob) brittle
  refine (hreached _ ?_ (by decide)).1.mpr ((hreached _ ?_ (by decide)).2 (by decide)) <;>
    simp [turn, Fixed]

end WebhookRelay
