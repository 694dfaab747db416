import Mathlib.Data.Fintype.Card
import Mathlib.Data.List.DropRight
import WebhookRelay.Breaker.Transitions

/-!
# The count of failures

The count is incremented in the database and read back in another statement, so a worker
may see the increments of others in its reading. It never misses one of its own, and that is
enough: of several workers that count a failure, the last one to read back sees them all.

## Main results

* `stored_failures` — the stored count is the number of increments since the last reset.
* `no_failure_lost` — besides, once as many calls of `record_circuit_failure` as the
  threshold have run from start to end without a reset, the circuit is not closed.
-/

namespace WebhookRelay

open Interleaving Program

variable {ι : Type}

/-! ## The stored count -/

/-- `record_circuit_failure` incremented the count. -/
def isIncrement : Event relay → Bool
  | ⟨.incrementFailures, _⟩ => true
  | _ => false

/-- How many operations of the log incremented the count. -/
def increments (log : List (ι × Event relay)) : Nat :=
  log.countP fun entry => isIncrement entry.2

/-- The part of the log after its last reset. -/
def sinceReset (log : List (ι × Event relay)) : List (ι × Event relay) :=
  log.rtakeWhile fun entry => !isReset entry.2

theorem failures_respond (outside : Outside) (op : Op) (s : Store) :
    (respond outside op s).2.endpoint.consecutiveFailures =
      if isReset ⟨op, (respond outside op s).1⟩ then 0
      else s.endpoint.consecutiveFailures +
        if isIncrement ⟨op, (respond outside op s).1⟩ then 1 else 0 := by
  cases op with
  | setHalfOpen =>
    by_cases h : s.endpoint.circuitState = .open <;>
      simp [respond, h, WebhookEndpoint.halfOpened, isReset, isIncrement]
  | _ => rfl

theorem disturb_failures (disturbance : Disturbance) (s : Store) :
    (disturb disturbance s).endpoint.consecutiveFailures = s.endpoint.consecutiveFailures := by
  cases disturbance <;> rfl

/-- The count that a log leaves: its increments since the last reset, on top of the count at
the start if there was none. -/
def failuresAfter (start : Nat) (log : List (ι × Event relay)) : Nat :=
  increments (sinceReset log) + if log.any fun entry => isReset entry.2 then 0 else start

theorem failuresAfter_snoc (start : Nat) (log : List (ι × Event relay)) (i : ι)
    (ev : Event relay) :
    failuresAfter start (log ++ [(i, ev)]) =
      if isReset ev then 0
      else failuresAfter start log + if isIncrement ev then 1 else 0 := by
  cases h : isReset ev with
  | true => simp [failuresAfter, sinceReset, increments, h]
  | false =>
    have hlast : sinceReset (log ++ [(i, ev)]) = sinceReset log ++ [(i, ev)] :=
      List.rtakeWhile_concat_pos _ _ _ (by simp [h])
    have hany : ((log ++ [(i, ev)]).any fun entry => isReset entry.2) =
        log.any fun entry => isReset entry.2 := by
      rw [List.any_append, List.any_cons, h]
      simp
    simp only [failuresAfter, hlast, hany, increments, List.countP_append, List.countP_singleton]
    rw [if_neg Bool.false_ne_true]
    omega

section Pool

variable [DecidableEq ι] {α : Type} {sys : System relay Outside Disturbance ι Store α}
  {G : Config relay ι Store α → Label Outside Disturbance ι → Prop}
  {init c : Config relay ι Store α}

/-- Whatever programs share the row, no increment is lost. -/
theorem stored_failures (hhandle : sys.handle = database) (henv : sys.environment = disturb)
    (hlog : init.log = []) (h : sys.Reaches G init c) :
    c.store.endpoint.consecutiveFailures =
      failuresAfter init.store.endpoint.consecutiveFailures c.log := by
  induction h with
  | refl => simp [hlog, failuresAfter, sinceReset, increments]
  | @step c d label _ _ hs ih =>
    cases label with
    | run i outside =>
      obtain ⟨op, rest, -, rfl⟩ := System.step_run.mp hs
      simp only [System.advance, hhandle, failuresAfter_snoc, database, ← ih]
      exact failures_respond outside op c.store
    | relaunch i =>
      obtain ⟨_, _, -, -, rfl⟩ := System.step_relaunch.mp hs
      exact ih
    | environment a =>
      obtain rfl := System.step_environment.mp hs
      simpa [henv, disturb_failures] using ih

end Pool

/-! ## Calls of the breaker methods -/

/-- One call of a breaker method on a copy of the row of any age. -/
inductive Call where
  | tryAcquireDeliverySlot (self : WebhookEndpoint)
  | recordCircuitSuccess (self : WebhookEndpoint)
  | recordCircuitFailure (self : WebhookEndpoint)

namespace Call

/-- The session that makes the call and nothing else. -/
def session : Call → Session
  | .tryAcquireDeliverySlot self => .tryAcquireDeliverySlot self fun _ => .done
  | .recordCircuitSuccess self => .recordCircuitSuccess self fun _ => .done
  | .recordCircuitFailure self => .recordCircuitFailure self fun _ => .done

/-- The threshold that the call compares with. -/
def threshold : Call → Nat
  | .tryAcquireDeliverySlot self | .recordCircuitSuccess self | .recordCircuitFailure self =>
    self.circuitBreakerFailureThreshold

def recordsFailure : Call → Bool
  | .recordCircuitFailure _ => true
  | _ => false

end Call

/-- How far a call of `record_circuit_failure` has come. -/
structure Progress where
  recordsFailure : Bool
  counted : Bool := false
  reread : Option Nat := none
  opened : Bool := false

namespace Progress

def track (progress : Progress) : Event relay → Progress
  | ⟨.incrementFailures, _⟩ => { progress with counted := true }
  | ⟨.refreshFailures, failures⟩ => { progress with reread := some failures }
  | ⟨.openCircuit _, _⟩ => { progress with opened := true }
  | _ => progress

/-- The count is read back only after it has been incremented. -/
def permits (progress : Progress) (op : Op) : Prop := op = .refreshFailures → progress.counted

def course : Discipline relay Progress := ⟨track, permits⟩

theorem track_recordsFailure (progress : Progress) (ev : Event relay) :
    (progress.track ev).recordsFailure = progress.recordsFailure := by
  obtain ⟨op, answer⟩ := ev
  cases op <;> rfl

theorem track_counted (progress : Progress) (ev : Event relay) :
    (progress.track ev).counted = (progress.counted || isIncrement ev) := by
  obtain ⟨op, answer⟩ := ev
  cases op <;> simp [track, isIncrement]

theorem track_opened (progress : Progress) (ev : Event relay) :
    (progress.track ev).opened = (progress.opened || isOpening ev) := by
  obtain ⟨op, answer⟩ := ev
  cases op <;> simp [track, isOpening]

theorem track_reread {op : Op} (h : op ≠ .refreshFailures) (progress : Progress)
    (answer : op.Answer) : (progress.track ⟨op, answer⟩).reread = progress.reread := by
  cases op <;> first | rfl | exact absurd rfl h

/-- If only counted calls have read the count back, that stays so. -/
theorem orderly_track {progress : Progress} {op : Op} (hpermits : progress.permits op)
    (h : progress.reread.isSome → progress.counted) (answer : op.Answer)
    (hreread : (progress.track ⟨op, answer⟩).reread.isSome) :
    (progress.track ⟨op, answer⟩).counted := by
  rw [track_counted, Bool.or_eq_true]
  by_cases hop : op = .refreshFailures
  · exact .inl (hpermits hop)
  · rw [track_reread hop] at hreread
    exact .inl (h hreread)

/-- A failure that has been recorded was read back, and has opened the circuit unless the
count was below the threshold. -/
def Recorded (threshold : Nat) (progress : Progress) (_ : Unit) : Prop :=
  progress.recordsFailure →
    ∃ failures ∈ progress.reread, threshold ≤ failures → progress.opened

end Progress

/-- A call that records no failure may return wherever it stands. -/
theorem Progress.recorded_of_other {threshold : Nat} {progress : Progress}
    (h : progress.recordsFailure = false) (value : Unit) :
    progress.Recorded threshold value := by
  intro hfailure
  cases h.symm.trans hfailure

theorem Call.session_follows (call : Call) :
    call.session.run.Follows Progress.course (Progress.Recorded call.threshold)
      { recordsFailure := call.recordsFailure } := by
  cases call with
  | tryAcquireDeliverySlot self =>
    rw [Call.session, Session.run, WebhookEndpoint.tryAcquireDeliverySlot_bind]
    repeat' split
    · exact Progress.recorded_of_other rfl ()
    · exact Progress.recorded_of_other rfl ()
    · exact Progress.recorded_of_other rfl ()
    · refine ⟨nofun, fun time => ?_⟩
      beta_reduce
      split
      · exact Progress.recorded_of_other rfl ()
      · refine ⟨nofun, fun won => ?_⟩
        cases won <;> exact Progress.recorded_of_other rfl ()
  | recordCircuitSuccess self => exact ⟨nofun, fun _ => Progress.recorded_of_other rfl ()⟩
  | recordCircuitFailure self =>
    rw [Call.session, Session.run, WebhookEndpoint.recordCircuitFailure_bind]
    refine ⟨nofun, fun _ => ⟨fun _ => rfl, fun (failures : Nat) => ?_⟩⟩
    beta_reduce
    split
    · exact ⟨nofun, fun _ => ⟨nofun, fun _ _ => ⟨failures, rfl, fun _ => rfl⟩⟩⟩
    · next hbelow => exact fun _ => ⟨failures, rfl, fun hreach => absurd hreach hbelow⟩

/-! ## A stretch without a reset -/

section Stretch

variable [DecidableEq ι] {call : ι → Call} {threshold : Nat} {s : Store}
  {c d : Config relay ι Store Unit}

/-- The step does not record a success. -/
def KeepsCount (c : Config relay ι Store Unit) (label : Label Outside Disturbance ι) : Prop :=
  ∀ entry ∈ System.performed database c label, isReset entry.2 = false

instance (c : Config relay ι Store Unit) (label : Label Outside Disturbance ι) :
    Decidable (KeepsCount c label) :=
  inferInstanceAs (Decidable (∀ entry ∈ System.performed database c label, _))

/-- How far the call of a worker has come. -/
def progressOf (call : ι → Call) (i : ι) (log : List (ι × Event relay)) : Progress :=
  System.ghost Progress.course { recordsFailure := (call i).recordsFailure } i log

theorem progressOf_snoc (i j : ι) (log : List (ι × Event relay)) (ev : Event relay) :
    progressOf call i (log ++ [(j, ev)]) =
      if j = i then (progressOf call i log).track ev else progressOf call i log :=
  System.ghost_snoc _ _ _ _ _ _

theorem progressOf_recordsFailure {i : ι} {log : List (ι × Event relay)} :
    (progressOf call i log).recordsFailure = (call i).recordsFailure := by
  induction log using List.reverseRecOn with
  | nil => rfl
  | append_singleton log entry ih =>
    rw [progressOf_snoc]
    split
    · exact (Progress.track_recordsFailure _ _).trans ih
    · exact ih

theorem progressOf_unstarted {i : ι} {log : List (ι × Event relay)}
    (h : ∀ entry ∈ log, entry.1 ≠ i) :
    progressOf call i log = { recordsFailure := (call i).recordsFailure } := by
  induction log using List.reverseRecOn with
  | nil => rfl
  | append_singleton log entry ih =>
    rw [progressOf_snoc, if_neg (h entry (by simp))]
    exact ih fun entry hentry => h entry (by simp [hentry])

/-- In every interleaving a call is where its course puts it. -/
theorem progressOf_follows (hthreshold : ∀ i, (call i).threshold = threshold)
    {G : Config relay ι Store Unit → Label Outside Disturbance ι → Prop}
    (h : callers.Reaches G (sessions (fun i => (call i).session) s) c) (i : ι) :
    (c.program i).Follows Progress.course (Progress.Recorded threshold)
      (progressOf call i c.log) :=
  h.follows rfl (fun i => hthreshold i ▸ (call i).session_follows)
    (fun _ _ _ _ _ hlaunch => by cases hlaunch) i

/-- What holds of some failing calls that began in a stretch without a reset: the count has
seen all that have been counted, an opened circuit is not closed, and if as many as the
threshold have read the count back, then one of them has read the threshold. -/
structure Tally (call : ι → Call) (threshold : Nat) (failing : Finset ι)
    (c : Config relay ι Store Unit) : Prop where
  counted : (failing.filter fun i => (progressOf call i c.log).counted).card ≤
    c.store.endpoint.consecutiveFailures
  opened : ∀ i ∈ failing, (progressOf call i c.log).opened →
    c.store.endpoint.circuitState ≠ .closed
  orderly : ∀ i ∈ failing, (progressOf call i c.log).reread.isSome →
    (progressOf call i c.log).counted
  reread : threshold ≤ (failing.filter fun i => (progressOf call i c.log).reread.isSome).card →
    ∃ i ∈ failing, ∃ failures ∈ (progressOf call i c.log).reread, threshold ≤ failures

/-- What a step that records no success does to the stored count and state. -/
theorem respond_keeps {outside : Outside} {op : Op} {s : Store}
    (hkeeps : isReset ⟨op, (respond outside op s).1⟩ = false) :
    (respond outside op s).2.endpoint.consecutiveFailures = s.endpoint.consecutiveFailures +
        (if isIncrement ⟨op, (respond outside op s).1⟩ then 1 else 0) ∧
      (s.endpoint.circuitState ≠ .closed ∨ isOpening ⟨op, (respond outside op s).1⟩ →
        (respond outside op s).2.endpoint.circuitState ≠ .closed) := by
  refine ⟨by rw [failures_respond, if_neg (by simp [hkeeps])], ?_⟩
  cases op with
  | setHalfOpen =>
    by_cases h : s.endpoint.circuitState = .open <;>
      simp [respond, h, WebhookEndpoint.halfOpened, isOpening]
  | resetCircuit => cases hkeeps
  | openCircuit openedAt => simp [respond, WebhookEndpoint.opened]
  | _ => simp [respond, isOpening, WebhookEndpoint.counting]

section Advance

variable {failing : Finset ι} {i : ι} {outside : Outside} {op : Op}
  {rest : op.Answer → Delivery Unit}

theorem progressOf_advance (j : ι) :
    progressOf call j (callers.advance c i outside op rest).log =
      if i = j then (progressOf call j c.log).track ⟨op, (respond outside op c.store).1⟩
      else progressOf call j c.log :=
  progressOf_snoc j i c.log _

/-- A step counts one call at most, and that by an increment. -/
theorem card_counted_advance (failing : Finset ι) :
    (failing.filter fun j =>
      (progressOf call j (callers.advance c i outside op rest).log).counted).card ≤
    (failing.filter fun j => (progressOf call j c.log).counted).card +
      if isIncrement ⟨op, (respond outside op c.store).1⟩ then 1 else 0 := by
  set before := failing.filter fun j => (progressOf call j c.log).counted
  have hsub : (failing.filter fun j =>
      (progressOf call j (callers.advance c i outside op rest).log).counted) ⊆
      if isIncrement ⟨op, (respond outside op c.store).1⟩ then insert i before else before := by
    intro j hj
    rw [Finset.mem_filter, progressOf_advance] at hj
    split at hj <;> split <;> grind [Progress.track_counted]
  have hinsert := Finset.card_insert_le i before
  refine (Finset.card_le_card hsub).trans ?_
  split <;> omega

/-- Whoever reads the count back last finds all that have read it before. -/
theorem Tally.reread_advance (h : Tally call threshold failing c)
    (hpermits : (progressOf call i c.log).permits op)
    (hreach : threshold ≤ (failing.filter fun j =>
      (progressOf call j (callers.advance c i outside op rest).log).reread.isSome).card) :
    ∃ j ∈ failing, ∃ failures ∈
      (progressOf call j (callers.advance c i outside op rest).log).reread,
        threshold ≤ failures := by
  by_cases hread : i ∈ failing ∧ op = .refreshFailures
  · -- all that have read the count back were counted before this reading
    obtain ⟨hi, rfl⟩ := hread
    refine ⟨i, hi, c.store.endpoint.consecutiveFailures, ?_, ?_⟩
    · rw [progressOf_advance, if_pos rfl]
      rfl
    · refine hreach.trans ((Finset.card_le_card fun j hj => ?_).trans h.counted)
      rw [Finset.mem_filter, progressOf_advance] at hj
      refine Finset.mem_filter.mpr ⟨hj.1, ?_⟩
      by_cases hij : i = j
      · exact hij ▸ hpermits rfl
      · rw [if_neg hij] at hj
        exact h.orderly j hj.1 hj.2
  · have hsame : ∀ j ∈ failing,
        (progressOf call j (callers.advance c i outside op rest).log).reread =
          (progressOf call j c.log).reread := by
      intro j hj
      rw [progressOf_advance]
      split
      · next hij => exact Progress.track_reread (fun hop => hread ⟨hij ▸ hj, hop⟩) _ _
      · rfl
    rw [Finset.filter_congr fun j hj => by rw [hsame j hj]] at hreach
    obtain ⟨j, hj, hfailures⟩ := h.reread hreach
    exact ⟨j, hj, by rwa [hsame j hj]⟩

/-- A step that records no success keeps the tally. -/
theorem Tally.run (h : Tally call threshold failing c)
    (hpermits : (progressOf call i c.log).permits op)
    (hkeeps : isReset ⟨op, (respond outside op c.store).1⟩ = false) :
    Tally call threshold failing (callers.advance c i outside op rest) := by
  obtain ⟨hcount, hstate⟩ := respond_keeps hkeeps
  constructor
  · change _ ≤ (respond outside op c.store).2.endpoint.consecutiveFailures
    rw [hcount]
    exact (card_counted_advance failing).trans (Nat.add_le_add_right h.counted _)
  · intro j hj hopened
    rw [progressOf_advance] at hopened
    apply hstate
    split at hopened
    · rw [Progress.track_opened, Bool.or_eq_true] at hopened
      exact hopened.imp_left (h.opened j hj)
    · exact .inl (h.opened j hj hopened)
  · intro j hj hreread
    rw [progressOf_advance] at hreread ⊢
    by_cases hij : i = j
    · subst hij
      rw [if_pos rfl] at hreread ⊢
      exact Progress.orderly_track hpermits (h.orderly i hj) _ hreread
    · rw [if_neg hij] at hreread ⊢
      exact h.orderly j hj hreread
  · exact h.reread_advance hpermits

end Advance

/-- The tally of calls that had not begun when the stretch did. -/
theorem tally (hthreshold : 1 ≤ threshold) (hcalls : ∀ i, (call i).threshold = threshold)
    {failing : Finset ι} (hbegin : ∀ i ∈ failing, ∀ entry ∈ c.log, entry.1 ≠ i)
    (hc : callers.Reaches (fun _ _ => True) (sessions (fun i => (call i).session) s) c)
    (hd : callers.Reaches KeepsCount c d) : Tally call threshold failing d := by
  refine hd.invariant (I := Tally call threshold failing) ?_ ?_
  · have hstart : ∀ i ∈ failing, progressOf call i c.log =
        { recordsFailure := (call i).recordsFailure } :=
      fun i hi => progressOf_unstarted (hbegin i hi)
    constructor
    · rw [Finset.filter_false_of_mem fun i hi => by simp [hstart i hi]]
      exact Nat.zero_le _
    · intro i hi hopened
      simp [hstart i hi] at hopened
    · intro i hi hreread
      simp [hstart i hi] at hreread
    · intro hreach
      rw [Finset.filter_false_of_mem fun i hi => by simp [hstart i hi]] at hreach
      exact absurd (hthreshold.trans hreach) (by simp)
  · intro u label v hu ih hkeeps hs
    cases label with
    | run i outside =>
      obtain ⟨op, rest, hp, rfl⟩ := System.step_run.mp hs
      have hfollows := progressOf_follows hcalls (hc.trans hu fun _ _ _ => trivial) i
      rw [hp] at hfollows
      exact ih.run hfollows.1 (hkeeps _ (System.performed_run hp database outside))
    | relaunch i =>
      obtain ⟨_, _, -, hlaunch, -⟩ := System.step_relaunch.mp hs
      cases hlaunch
    | environment a =>
      obtain rfl := System.step_environment.mp hs
      have hcount : (disturb a u.store).endpoint.consecutiveFailures = _ :=
        disturb_failures a u.store
      exact ⟨hcount ▸ ih.counted,
        fun i hi hopened => disturb_circuitState a u.store ▸ ih.opened i hi hopened,
        ih.orderly, ih.reread⟩

/-- No failure is lost and the breaker always trips: the stored count is the number of
increments since the last recorded success (on top of the count at the start before the
first one), and where as many calls of `record_circuit_failure` as the threshold begin and
end in a stretch in which no success is recorded, the circuit is not closed at its end. -/
theorem no_failure_lost (call : ι → Call) (threshold : Nat) (hthreshold : 1 ≤ threshold)
    (hcalls : ∀ i, (call i).threshold = threshold) (s : Store)
    (hc : callers.Reaches (fun _ _ => True) (sessions (fun i => (call i).session) s) c) :
    c.store.endpoint.consecutiveFailures =
        failuresAfter s.endpoint.consecutiveFailures c.log ∧
      ∀ d, callers.Reaches KeepsCount c d → ∀ failing : Finset ι, threshold ≤ failing.card →
        (∀ i ∈ failing, (call i).recordsFailure ∧ (∀ entry ∈ c.log, entry.1 ≠ i) ∧
          d.program i = .ret ()) →
        d.store.endpoint.circuitState ≠ .closed := by
  refine ⟨stored_failures rfl rfl rfl hc, fun d hd failing hcard hfailing => ?_⟩
  have htally := tally hthreshold hcalls (fun i hi => (hfailing i hi).2.1) hc hd
  have hrecorded : ∀ i ∈ failing, ∃ failures ∈ (progressOf call i d.log).reread,
      threshold ≤ failures → (progressOf call i d.log).opened := by
    intro i hi
    have hfollows := progressOf_follows hcalls (hc.trans hd fun _ _ _ => trivial) i
    rw [(hfailing i hi).2.2] at hfollows
    exact hfollows (progressOf_recordsFailure.trans (hfailing i hi).1)
  have hall : (failing.filter fun i => (progressOf call i d.log).reread.isSome) = failing := by
    refine Finset.filter_true_of_mem fun i hi => ?_
    obtain ⟨failures, hreread, -⟩ := hrecorded i hi
    exact Option.isSome_of_mem hreread
  obtain ⟨i, hi, failures, hreread, hreach⟩ := htally.reread (by rwa [hall])
  obtain ⟨failures', hreread', hopens⟩ := hrecorded i hi
  obtain rfl := Option.mem_unique hreread hreread'
  exact htally.opened i hi (hopens hreach)

end Stretch

/-- Two failures at a threshold of two: both workers count before either reads back. -/
def pairOfFailures : Fin 2 → Call :=
  fun _ => .recordCircuitFailure { newEndpoint with circuitBreakerFailureThreshold := 2 }

theorem no_failure_lost_pair :
    ∃ d : Config relay (Fin 2) Store Unit, d.store.endpoint.consecutiveFailures = 2 ∧
      d.store.endpoint.circuitState ≠ .closed := by
  let init := sessions (fun i => (pairOfFailures i).session) { endpoint := newEndpoint }
  let turns : List (Fin 2) := [0, 1, 0, 0, 0, 1, 1, 1]
  obtain ⟨d, hd, hcount, hends⟩ : ∃ d, callers.schedule init (turns.map (turn 500)) = some d ∧
      d.store.endpoint.consecutiveFailures = 2 ∧ ∀ i, d.program i = .ret () :=
    ⟨_, rfl, rfl, Fin.forall_fin_two.mpr ⟨rfl, rfl⟩⟩
  have hkeeps : callers.Each KeepsCount init (turns.map (turn 500)) := by decide
  have hstretch := hkeeps.reaches hd .refl
  have hlaw := no_failure_lost pairOfFailures 2 (by decide) (fun _ => rfl)
    { endpoint := newEndpoint } (c := init) .refl
  exact ⟨d, hcount, hlaw.2 d hstretch Finset.univ (by decide)
    fun i _ => ⟨rfl, by simp [init, sessions], hends i⟩⟩

end WebhookRelay
