import WebhookRelay.System.Provenance

/-!
# Every row is reported once

`_record_attempt` writes a row and then sends the signal `webhook_delivery_recorded`. Whoever
listens to the signal hears of each row of the audit trail exactly once, and of nothing else.

## Main results

* `metrics_match` — what was reported is part of what was written, and all of it when no worker is
  in the middle of a turn.
-/

namespace WebhookRelay

open Interleaving Program Books

deriving instance DecidableEq for DeliveryMetric

/-- What an operation has reported. -/
def signalSent : Event deployment → Option DeliveryMetric
  | ⟨.statement _ (.sendSignal metric), _⟩ => some metric
  | _ => none

theorem signals_execute (outside : Outside) (pk : Nat) (op : Op) (s : Deployment)
    (message : Message) : (execute outside pk op s).2.signals = s.signals ++
      (signalSent ⟨.statement message op, (execute outside pk op s).1⟩).toList := by
  cases op with
  | sendSignal metric => rfl
  | setHalfOpen | createAttempt row | getEnabled =>
    rw [execute]
    split <;> exact (List.append_nil _).symm
  | _ => exact (List.append_nil _).symm

section Deployed

variable {ι : Type} [DecidableEq ι] {site : Site} {duties : ι → Duty} {s : Deployment}
  {G : Config deployment ι Deployment Unit → Label Circumstances Intervention ι → Prop}
  {c : Config deployment ι Deployment Unit}

def signalsSent (log : List (ι × Event deployment)) : List DeliveryMetric :=
  log.filterMap fun entry => signalSent entry.2

/-- The listeners have heard what was reported. -/
theorem signals_eq (h : (deployed site duties).Reaches G (boot site duties s) c) :
    c.store.signals = s.signals ++ signalsSent c.log := by
  refine h.account (I := fun t log => t.signals = s.signals ++ signalsSent log)
    (List.append_nil _).symm ?_ ?_
  · intro c i e op rest _ _ ih
    change (serve e op c.store).2.signals =
      s.signals ++ signalsSent (c.log ++ [(i, ⟨op, (serve e op c.store).1⟩)])
    have hsent : (serve e op c.store).2.signals =
        c.store.signals ++ (signalSent ⟨op, (serve e op c.store).1⟩).toList := by
      cases op with
      | statement message op => exact signals_execute ..
      | publish message =>
        rw [serve]
        split <;> exact (List.append_nil _).symm
      | _ => exact (List.append_nil _).symm
    rw [hsent, ih, List.append_assoc, signalsSent, signalsSent, List.filterMap_append]
    cases hsignal : signalSent ⟨op, (serve e op c.store).1⟩ <;> simp [hsignal]
  · intro t log a ih
    cases a <;> exact ih

/-- A worker has to report the row that it has written last, or nothing. -/
def unreported (metric : DeliveryMetric) (progress : WorkerProgress) : Nat :=
  (decide (progress.attempt.unreported = some metric)).toNat

theorem unreported_track {lib : Primitives} {progress : WorkerProgress} (metric : DeliveryMetric)
    (op : SystemOp) (answer : op.Answer) (h : progress.permits lib op) :
    unreported metric (progress.track ⟨op, answer⟩) +
        (decide (signalSent ⟨op, answer⟩ = some metric)).toNat =
      unreported metric progress +
        (decide ((rowWritten ⟨op, answer⟩).map WebhookDeliveryAttempt.metric =
          some metric)).toNat := by
  cases op with
  | reserve =>
    obtain rfl : progress = {} := h
    rfl
  | statement message op =>
    obtain ⟨-, hpermits, -⟩ := h
    cases op with
    | createAttempt row =>
      obtain ⟨-, hnone, -⟩ := hpermits
      cases answer <;> simp [unreported, WorkerProgress.track, Op.read, AttemptProgress.track,
        hnone, signalSent, rowWritten]
    | sendSignal metric' =>
      have hreport : progress.attempt.unreported = some metric' := hpermits
      simp [unreported, WorkerProgress.track, Op.read, AttemptProgress.track, hreport, signalSent,
        rowWritten]
    | getEnabled => rcases answer with e | _ | endpoint <;> rfl
    | refreshFailures => cases answer <;> rfl
    | _ => rfl
  | publish next => rfl
  | acknowledge tag message state =>
    obtain ⟨-, hnone, -⟩ := h
    simp [unreported, WorkerProgress.track, hnone, signalSent, rowWritten]
  | _ => exact h.elim

/-- What was reported is what was written but for what the workers have yet to report. -/
theorem reported_balance (h : (deployed site duties).Reaches G (boot site duties s) c)
    (metric : DeliveryMetric) (i : ι) :
    (part i c.log).countP (fun ev => signalSent ev = some metric) +
        unreported metric (progressIn site duties i c.log) =
      (part i c.log).countP fun ev =>
        (rowWritten ev).map WebhookDeliveryAttempt.metric = some metric := by
  refine balance_of_track rfl (fun _ => unreported_track metric) (fun op answer hpermits => ?_) h i
  cases op <;> first | rfl | exact hpermits.elim

omit [DecidableEq ι] in
theorem count_filterMap (f : Event deployment → Option DeliveryMetric) (metric : DeliveryMetric)
    (log : List (ι × Event deployment)) :
    (log.filterMap fun entry => f entry.2).count metric =
      total (fun ev => f ev = some metric) log := by
  rw [List.count, List.countP_filterMap, total]
  refine List.countP_congr fun entry _ => ?_
  cases f entry.2 <;> simp

omit [DecidableEq ι] in
theorem count_written (metric : DeliveryMetric) (log : List (ι × Event deployment)) :
    ((rowsWritten log).map WebhookDeliveryAttempt.metric).count metric =
      total (fun ev => (rowWritten ev).map WebhookDeliveryAttempt.metric = some metric) log := by
  rw [rowsWritten, List.map_filterMap]
  exact count_filterMap (fun ev => (rowWritten ev).map WebhookDeliveryAttempt.metric) metric log

/-- What the listeners have heard is part of what the rows say, one report for each row; and it is
all of it when no worker is in the middle of a turn. -/
theorem metrics_match (site : Site) (duties : ι → Duty) (s : Deployment)
    (h : (deployed site duties).Reaches (fun _ _ => True) (boot site duties s) c) :
    ∃ heard, c.store.signals = s.signals ++ heard ∧
      heard.Subperm ((rowsWritten c.log).map WebhookDeliveryAttempt.metric) ∧
      (Quiescent site duties c →
        heard.Perm ((rowsWritten c.log).map WebhookDeliveryAttempt.metric)) := by
  refine ⟨signalsSent c.log, signals_eq h, ?_, fun hquiet => ?_⟩
  · refine List.subperm_ext_iff.mpr fun metric _ => ?_
    rw [count_written, signalsSent, count_filterMap]
    exact total_le_of_parts fun i => Nat.le.intro (reported_balance h metric i)
  · refine List.perm_iff_count.mpr fun metric => ?_
    rw [count_written, signalsSent, count_filterMap]
    refine total_eq_of_parts fun i => ?_
    have hi := reported_balance h metric i
    rwa [progressIn_quiescent h hquiet] at hi

end Deployed

/-- The worker stops for good between a row and its report. -/
theorem metrics_match_abandoned : ∃ c heard,
    (deployed emptySite receiverAndWorker).schedule (boot emptySite receiverAndWorker oneSubscriber)
      (servedOnce 200 6) = some c ∧
    (rowsWritten c.log).length = 1 ∧ c.store.signals = heard ∧ heard.length ≤ 1 := by
  have hrun : ((deployed emptySite receiverAndWorker).schedule
      (boot emptySite receiverAndWorker oneSubscriber) (servedOnce 200 6)).map
        (fun c => (rowsWritten c.log).length) = some 1 := by
    decide +kernel
  obtain ⟨c, hc, hlength⟩ := Option.map_eq_some_iff.mp hrun
  obtain ⟨heard, hsignals, hpart, -⟩ := metrics_match emptySite receiverAndWorker oneSubscriber
    (System.reaches_of_schedule hc .refl)
  have hle := hpart.length_le
  rw [List.length_map, hlength] at hle
  exact ⟨c, heard, hc, hlength, hsignals, hle⟩

end WebhookRelay
