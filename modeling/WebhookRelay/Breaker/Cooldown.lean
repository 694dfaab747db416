import WebhookRelay.Breaker.Transitions
import WebhookRelay.Breaker.View

/-!
# The cooldown of an open circuit

The elapsed time is measured from the `circuit_opened_at` of the loaded copy, while the
conditional update only looks at the stored state. An acquisition honours the cooldown of
the stored opening whenever the row has not been reopened since it was loaded, and need
not otherwise.
-/

namespace WebhookRelay

open Interleaving

section

variable {ι : Type} [DecidableEq ι] (settings : Settings) (jobs : ι → Job)

/-- If the step wins a trial on behalf of a check made at some time, the stored opening is
at least a cooldown older than that. -/
def HonoursCooldown (cooldown : Time) (c : Config relay ι Store TaskEnd)
    (label : Label Outside Disturbance ι) : Prop :=
  ∀ entry ∈ System.performed database c label, isTrial entry.2 →
    ∃ time ∈ (viewOf settings jobs entry.1 c.log).checked,
      ∃ openedAt ∈ c.store.endpoint.circuitOpenedAt, openedAt ≤ time - cooldown

/-- If the step wins a trial, the stored opening is the one that the chain has loaded. -/
def LoadedOpening (c : Config relay ι Store TaskEnd) (label : Label Outside Disturbance ι) :
    Prop :=
  ∀ entry ∈ System.performed database c label, isTrial entry.2 →
    ∃ copy ∈ (viewOf settings jobs entry.1 c.log).copy,
      c.store.endpoint.circuitOpenedAt = copy.circuitOpenedAt

instance (cooldown : Time) (c : Config relay ι Store TaskEnd)
    (label : Label Outside Disturbance ι) :
    Decidable (HonoursCooldown settings jobs cooldown c label) :=
  inferInstanceAs (Decidable (∀ entry ∈ System.performed database c label, _))

instance (c : Config relay ι Store TaskEnd) (label : Label Outside Disturbance ι) :
    Decidable (LoadedOpening settings jobs c label) :=
  inferInstanceAs (Decidable (∀ entry ∈ System.performed database c label, _))

variable {settings jobs} {lib : Primitives} {s : Store} {c : Config relay ι Store TaskEnd}
  {G : Config relay ι Store TaskEnd → Label Outside Disturbance ι → Prop}

/-- An acquisition was checked against the cooldown of the copy it loaded. -/
theorem checked_of_isTrial
    (h : (workers lib settings jobs).Reaches G (launch lib settings jobs s) c)
    {label : Label Outside Disturbance ι} {i : ι} {ev : Event relay}
    (hperformed : (i, ev) ∈ System.performed database c label) (htrial : isTrial ev) :
    ∃ copy openedAt time, (viewOf settings jobs i c.log).copy = some copy ∧
      copy.circuitOpenedAt = some openedAt ∧
      (viewOf settings jobs i c.log).checked = some time ∧
      s.endpoint.cooldown ≤ time - openedAt := by
  obtain ⟨outside, op, rest, -, hp, rfl⟩ := System.mem_performed.mp hperformed
  obtain ⟨rfl, -⟩ := isTrial_respond.mp htrial
  obtain ⟨-, copy, openedAt, time, hcopy, hopenedAt, hchecked, hcooldown, -⟩ := permitted h hp
  have hunwritten : Unwritten WebhookEndpoint.cooldown :=
    ⟨fun _ => rfl, fun _ => rfl, fun _ _ => rfl, fun _ _ => rfl⟩
  have hconfiguration :=
    (configuration hunwritten (fun _ a _ s => by cases a <;> rfl) h).2 i copy hcopy
  exact ⟨copy, openedAt, time, hcopy, hopenedAt, hchecked, hconfiguration ▸ hcooldown⟩

/-- In a run whose acquisitions all find the opening that was loaded, all of them honour
the cooldown of the stored opening. -/
theorem cooldown_honoured (lib : Primitives) (settings : Settings) (jobs : ι → Job) (s : Store)
    (labels : List (Label Outside Disturbance ι))
    (h : (workers lib settings jobs).Each (LoadedOpening settings jobs)
      (launch lib settings jobs s) labels) :
    (workers lib settings jobs).Each (HonoursCooldown settings jobs s.endpoint.cooldown)
      (launch lib settings jobs s) labels := by
  refine h.mono (fun c label d hc hloaded _ entry hentry htrial => ?_) .refl
  obtain ⟨copy, openedAt, time, hcopy, hopenedAt, hchecked, hcooldown⟩ :=
    checked_of_isTrial hc hentry htrial
  obtain ⟨copy', hcopy', hstored⟩ := hloaded entry hentry htrial
  obtain rfl : copy = copy' := Option.some.inj (hcopy.symm.trans hcopy')
  exact ⟨time, hchecked, openedAt, hstored.trans hopenedAt,
    Int.le_sub_left_of_add_le (Int.add_le_of_le_sub_right hcooldown)⟩

end

/-! ## A stale acquisition

Worker 0 loads a row whose cooldown has just elapsed. Before it goes on, worker 1 wins the
trial, fails it and reopens the circuit; the copy of worker 0 still shows the old opening. -/

theorem stale_acquisition_ignores_cooldown :
    ¬ (workers emptyLib {} fun _ : Fin 2 => emptyJob).Each
      (HonoursCooldown {} (fun _ => emptyJob) cooledDown.endpoint.cooldown)
      (launch emptyLib {} (fun _ => emptyJob) cooledDown)
      (turn 400 0 :: List.replicate 12 (turn 400 1) ++ List.replicate 2 (turn 400 0)) := by
  decide

/-- Worker 0 reopens the circuit after its trial, and worker 1 finds that opening. -/
theorem cooldown_honoured_twice :
    (workers emptyLib {} fun _ : Fin 2 => emptyJob).Each
      (HonoursCooldown {} (fun _ => emptyJob) cooledDown.endpoint.cooldown)
      (launch emptyLib {} (fun _ => emptyJob) cooledDown)
      (List.replicate 12 (turn 400 0) ++
        .environment (.tick 300000000) :: List.replicate 3 (turn 200 1)) :=
  cooldown_honoured _ _ _ _ _ (by decide)

end WebhookRelay
