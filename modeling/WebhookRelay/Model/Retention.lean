import WebhookRelay.Model.Deployment

/-!
# The retention of the audit trail

`retention.py` with its two callers, the command `purge_old_delivery_attempts` and the task
`purge_old_delivery_attempts_task`. What they write to the terminal and to the log is left out.
-/

namespace WebhookRelay

open Interleaving Process

/-- The settings that the retention reads, with the code's own defaults. -/
structure RetentionSettings where
  auditRetentionDays : Int := 90
  autoPurgeEnabled : Bool := true

/-- The outcome of a pass. -/
structure PurgeResult where
  matched : Nat
  deleted : Nat
  cutoff : Time
  days : Int
  statusFilter : Option AttemptStatus

/-- `resolve_retention_days`. -/
def resolveRetentionDays (settings : RetentionSettings) (days : Option Int) : Int :=
  days.getD settings.auditRetentionDays

/-- `timezone.timedelta(days=…)`. -/
def timedelta (days : Int) : Time := days * 86400000000

/-- `purge_old_delivery_attempts` of `retention.py`. -/
def purgeOldDeliveryAttempts (settings : RetentionSettings) (days : Option Int)
    (status : Option AttemptStatus) (dryRun : Bool) : Process PurgeResult := do
  let resolvedDays := resolveRetentionDays settings days
  let cutoff := (← now) - timedelta resolvedDays
  let matched ← countAttempts cutoff status
  if dryRun || matched = 0 then
    return { matched, deleted := 0, cutoff, days := resolvedDays, statusFilter := status }
  let deleted ← deleteAttempts cutoff status
  return { matched, deleted, cutoff, days := resolvedDays, statusFilter := status }

/-- The options of the command. -/
structure PurgeOptions where
  days : Option Int := none
  status : Option AttemptStatus := none
  yes : Bool := false

/-- The command `purge_old_delivery_attempts`. -/
def purgeOldDeliveryAttemptsCommand (settings : RetentionSettings) (options : PurgeOptions) :
    Process PurgeResult :=
  purgeOldDeliveryAttempts settings options.days options.status !options.yes

/-- `purge_old_delivery_attempts_task`; `none` if the purge is switched off. -/
def purgeOldDeliveryAttemptsTask (settings : RetentionSettings) : Process (Option PurgeResult) := do
  if !settings.autoPurgeEnabled then return none
  let result ← purgeOldDeliveryAttempts settings none none false
  return some result

end WebhookRelay
