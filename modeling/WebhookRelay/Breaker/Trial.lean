import Mathlib.Data.Fintype.Basic
import WebhookRelay.Breaker.Transitions
import WebhookRelay.Breaker.View

/-!
# The half-open trial

The chain that wins the conditional update is on trial until it has ended. There should be at
most one trial at a time, which rests on chains keeping out of each other's way.

## Main results

* `one_trial_at_a_time` — there is at most one trial throughout a run in which the circuit
  is opened only while no other chain is on trial.
-/

namespace WebhookRelay

open Interleaving Program

variable {ι : Type}

/-! ## At most one trial -/

/-- The chain has won a trial. -/
def wonTrial [DecidableEq ι] (i : ι) (log : List (ι × Event relay)) : Bool :=
  log.any fun entry => entry.1 = i ∧ isTrial entry.2

@[simp] theorem wonTrial_snoc [DecidableEq ι] (i j : ι) (log : List (ι × Event relay))
    (ev : Event relay) :
    wonTrial i (log ++ [(j, ev)]) = (wonTrial i log || (j = i && isTrial ev)) := by
  simp [wonTrial]

section Pool

variable [DecidableEq ι]

/-- The chain has won a trial and is not over. -/
def OnTrial (c : Config relay ι Store TaskEnd) (i : ι) : Prop :=
  wonTrial i c.log ∧ finished (c.program i) = false

def AtMostOneTrial (c : Config relay ι Store TaskEnd) : Prop :=
  ∀ i j, OnTrial c i → OnTrial c j → i = j

/-- If the step opens the circuit, no other chain is on trial. -/
def OpensAfterTrials (c : Config relay ι Store TaskEnd)
    (label : Label Outside Disturbance ι) : Prop :=
  ∀ entry ∈ System.performed database c label, isOpening entry.2 →
    ∀ j, OnTrial c j → j = entry.1

instance (c : Config relay ι Store TaskEnd) (i : ι) : Decidable (OnTrial c i) :=
  inferInstanceAs (Decidable (_ ∧ _))

instance [Fintype ι] (c : Config relay ι Store TaskEnd) : Decidable (AtMostOneTrial c) :=
  inferInstanceAs (Decidable (∀ i j, _ → _ → i = j))

instance [Fintype ι] (c : Config relay ι Store TaskEnd) (label : Label Outside Disturbance ι) :
    Decidable (OpensAfterTrials c label) :=
  inferInstanceAs (Decidable (∀ entry ∈ System.performed database c label, _))

variable {lib : Primitives} {settings : Settings} {jobs : ι → Job} {s : Store}
  {G : Config relay ι Store TaskEnd → Label Outside Disturbance ι → Prop}
  {c d : Config relay ι Store TaskEnd}

/-- A chain that has closed or opened the circuit is over. -/
theorem finished_of_concluded
    (h : (workers lib settings jobs).Reaches G (launch lib settings jobs s) c) {i : ι}
    (hconcluded : (viewOf settings jobs i c.log).concluded) : finished (c.program i) := by
  cases hp : c.program i with
  | call op rest => exact absurd ((permitted h hp).1.symm.trans hconcluded) (by simp)
  | ret finish =>
    cases finish with
    | retry retries countdown =>
      have hready := (ended h hp).again retries countdown rfl
      exact absurd (hready.concluded.symm.trans hconcluded) (by simp)
    | _ => rfl

/-- A chain is on trial after a step if it was before or has just won. -/
theorem onTrial_advance {i j : ι} {outside : Outside} {op : Op}
    {rest : op.Answer → Delivery TaskEnd} (hp : c.program i = .call op rest)
    (h : OnTrial ((workers lib settings jobs).advance c i outside op rest) j) :
    OnTrial c j ∨ j = i ∧ isTrial ⟨op, (respond outside op c.store).1⟩ := by
  obtain ⟨hwon, hunfinished⟩ := h
  simp only [System.advance, workers, database, wonTrial_snoc, Bool.or_eq_true, Bool.and_eq_true,
    decide_eq_true_eq] at hwon hunfinished
  rcases hwon with hwon | ⟨rfl, htrial⟩
  · refine .inl ⟨hwon, ?_⟩
    by_cases hij : j = i
    · rw [hij, hp]
      rfl
    · rwa [Function.update_of_ne hij] at hunfinished
  · exact .inr ⟨rfl, htrial⟩

/-- While the circuit is open no chain is on trial, and otherwise at most one is. -/
theorem trials_excluded
    (h : (workers lib settings jobs).Reaches OpensAfterTrials (launch lib settings jobs s) c) :
    (c.store.endpoint.circuitState = .open → ∀ i, ¬ OnTrial c i) ∧ AtMostOneTrial c := by
  refine h.invariant (I := fun c => (c.store.endpoint.circuitState = .open → ∀ i, ¬ OnTrial c i) ∧
    AtMostOneTrial c) ⟨fun _ i hi => by simp [OnTrial, launch, wonTrial] at hi,
      fun i j hi => by simp [OnTrial, launch, wonTrial] at hi⟩ ?_
  rintro c label d hc ⟨hopen, hone⟩ hG hs
  have hd := hc.step hG hs
  cases label with
  | run i outside =>
    obtain ⟨op, rest, hp, rfl⟩ := System.step_run.mp hs
    refine ⟨fun hstate j hj => ?_, fun j k hj hk => ?_⟩
    · rcases open_respond hstate with ⟨openedAt, rfl⟩ | ⟨hstate', hop⟩
      · -- the opener itself is over, and by the condition nobody else is on trial
        have hG := hG _ (System.performed_run hp database outside) rfl
        rcases onTrial_advance hp hj with hbefore | ⟨-, htrial⟩
        · obtain rfl := hG j hbefore
          have hover := finished_of_concluded hd (i := j) (by simp [System.advance])
          exact absurd (hj.2.symm.trans hover) (by simp)
        · exact absurd (isTrial_respond.mp htrial).1 (by simp)
      · rcases onTrial_advance hp hj with hbefore | ⟨-, htrial⟩
        · exact hopen hstate' j hbefore
        · exact hop (isTrial_respond.mp htrial).1
    · rcases onTrial_advance hp hj with hj' | ⟨rfl, htrial⟩ <;>
        rcases onTrial_advance hp hk with hk' | ⟨hki, htrial'⟩
      · exact hone j k hj' hk'
      · exact absurd hj' (hopen (isTrial_respond.mp htrial').2 j)
      · exact absurd hk' (hopen (isTrial_respond.mp htrial).2 k)
      · exact hki.symm
  | relaunch i =>
    obtain ⟨value, p, hp, hlaunch, rfl⟩ := System.step_relaunch.mp hs
    have hbefore : ∀ j, OnTrial { c with program := Function.update c.program i p } j →
        OnTrial c j := by
      intro j hj
      refine ⟨hj.1, ?_⟩
      by_cases hij : j = i
      · rw [hij, hp]
        cases value with
        | retry retries countdown => rfl
        | _ => cases hlaunch
      · simpa [Function.update_of_ne hij] using hj.2
    exact ⟨fun hstate j hj => hopen hstate j (hbefore j hj),
      fun j k hj hk => hone j k (hbefore j hj) (hbefore k hk)⟩
  | environment a =>
    obtain rfl := System.step_environment.mp hs
    exact ⟨fun hstate => hopen (disturb_circuitState a c.store ▸ hstate), hone⟩

/-- There is at most one trial throughout a run in which the circuit is opened only while
no other chain is on trial. -/
theorem one_trial_at_a_time (lib : Primitives) (settings : Settings) (jobs : ι → Job) (s : Store)
    (labels : List (Label Outside Disturbance ι))
    (h : (workers lib settings jobs).Each OpensAfterTrials (launch lib settings jobs s) labels) :
    (workers lib settings jobs).Always AtMostOneTrial (launch lib settings jobs s) labels :=
  h.always (fun _ hc => (trials_excluded hc).2) .refl

end Pool

/-! ## Runs that go wrong and runs that do not -/

/-- Chain 0 is accepted while the circuit is closed. Chain 1 fails and opens it; after the
cooldown chain 2 wins the trial. While it is waiting for an answer chain 0 fails as well and
opens the circuit again; after another cooldown chain 3 wins a second trial. -/
def overlappingTrials : List (Label Outside Disturbance (Fin 4)) :=
  List.replicate 2 (turn 400 0) ++ List.replicate 10 (turn 400 1) ++
    .environment (.tick 300000000) :: List.replicate 3 (turn 400 2) ++
      List.replicate 8 (turn 400 0) ++
        .environment (.tick 300000000) :: List.replicate 3 (turn 400 3)

theorem two_trials_at_once :
    ¬ (workers emptyLib {} fun _ : Fin 4 => emptyJob).Always AtMostOneTrial
      (launch emptyLib {} (fun _ => emptyJob) brittle) overlappingTrials := by
  decide

theorem one_trial_at_a_time_reopened :
    (workers emptyLib {} fun _ : Fin 2 => emptyJob).Always AtMostOneTrial
      (launch emptyLib {} (fun _ => emptyJob) brittle)
      (List.replicate 10 (turn 400 0) ++
        .environment (.tick 300000000) :: List.replicate 12 (turn 400 1)) :=
  one_trial_at_a_time _ _ _ _ _ (by decide)

end WebhookRelay
