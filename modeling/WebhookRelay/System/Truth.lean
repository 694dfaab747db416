import Mathlib.Data.List.DropRight
import WebhookRelay.System.Provenance

/-!
# What the rows of the audit trail say

A row is written by a worker in the middle of an attempt. Since the worker took its message it has
loaded the endpoint once and sent one request at most, so the row can be compared with what the
attempt has really done.

## Main results

* `rows_truthful` — every row is the only one of its attempt and tells which payload the attempt
  has sent and how the request ended, or why it has sent none.
-/

namespace WebhookRelay

open Interleaving Program

/-! ## An attempt in the log -/

/-- The worker does not turn to another message. -/
def staysWith : Event deployment → Bool
  | ⟨.reserve, _⟩ => false
  | _ => true

/-- What a process has done since it took its message. -/
def underway {ι : Type} [DecidableEq ι] (i : ι) (log : List (ι × Event deployment)) :
    List (Event deployment) :=
  (part i log).rtakeWhile staysWith

theorem mem_log_of_underway {ι : Type} [DecidableEq ι] {i : ι} {log : List (ι × Event deployment)}
    {ev : Event deployment} (h : ev ∈ underway i log) : (i, ev) ∈ log :=
  mem_part.mp ((List.rtakeWhile_suffix _ _).subset h)

/-- What a process does until it takes another message. -/
def remainder {ι : Type} [DecidableEq ι] (i : ι) (log : List (ι × Event deployment)) :
    List (Event deployment) :=
  (part i log).takeWhile staysWith

/-- What is done in the remainder is done with everything before it underway. -/
theorem underway_of_remainder {ι : Type} [DecidableEq ι] {i : ι}
    (before : List (ι × Event deployment)) {later : List (ι × Event deployment)}
    {first ev : Event deployment} (hfirst : staysWith first) (h : ev ∈ remainder i later) :
    ∃ between rest, later = between ++ (i, ev) :: rest ∧
      first ∈ underway i (before ++ (i, first) :: between) := by
  obtain ⟨xs, ys, hsplit⟩ := List.append_of_mem h
  have hpart : part i later = xs ++ ev :: (ys ++ (part i later).dropWhile staysWith) := by
    rw [← List.cons_append, ← List.append_assoc, ← hsplit]
    exact List.takeWhile_append_dropWhile.symm
  obtain ⟨between, rest, hlater, rfl⟩ := part_eq_append_cons hpart
  refine ⟨between, rest, hlater, ?_⟩
  have hstays : ∀ ev ∈ (part i between).reverse, staysWith ev := fun ev hev =>
    List.mem_takeWhile_imp (hsplit ▸ List.mem_append_left _ (List.mem_reverse.mp hev) :
      ev ∈ remainder i later)
  rw [underway, part_append, part_cons_self, List.rtakeWhile, List.reverse_append,
    List.reverse_cons, List.append_assoc, List.takeWhile_append_of_pos hstays,
    List.singleton_append, List.takeWhile_cons_of_pos hfirst]
  simp

/-- The request that an operation has sent, and how it ended. -/
def requestSent : Event deployment → Option (Request × PostOutcome)
  | ⟨.statement _ (.post request), outcome⟩ => some (request, outcome)
  | _ => none

theorem eq_of_requestSent {ev : Event deployment} {sent : Request × PostOutcome}
    (h : requestSent ev = some sent) :
    ∃ message request outcome, ev = ⟨.statement message (.post request), outcome⟩ := by
  unfold requestSent at h
  split at h
  · exact ⟨_, _, _, rfl⟩
  · cases h

variable {lib : Primitives} {message : Message} {events : List (Event deployment)}

namespace AttemptProgress

variable {attempt : AttemptProgress}

/-- The attempt for the message is as far as its operations say. -/
structure KnownFrom (lib : Primitives) (message : Message) (events : List (Event deployment))
    (attempt : AttemptProgress) : Prop where
  loaded : ∀ endpoint, attempt.loaded = some endpoint →
    ⟨.statement message .getEnabled, .ok (some endpoint)⟩ ∈ events
  unsent : attempt.outcome = none → events.filterMap requestSent = []
  sent : ∀ outcome, attempt.outcome = some outcome → ∃ endpoint request,
    attempt.loaded = some endpoint ∧ Carries lib message endpoint request ∧
      events.filterMap requestSent = [(request, outcome)]
  unwritten : attempt.fate = none → events.filterMap rowWritten = []
  reread : ∀ failures, attempt.reread = some failures →
    ⟨.statement message .refreshFailures, some failures⟩ ∈ events

/-- An operation that neither sends a request nor writes a row. -/
theorem KnownFrom.aside (h : attempt.KnownFrom lib message events) {ev : Event deployment}
    (hsent : requestSent ev = none) (hwritten : rowWritten ev = none) :
    attempt.KnownFrom lib message (events ++ [ev]) := by
  have hrequests : (events ++ [ev]).filterMap requestSent = events.filterMap requestSent := by
    simp [hsent]
  have hrows : (events ++ [ev]).filterMap rowWritten = events.filterMap rowWritten := by
    simp [hwritten]
  constructor
  · exact fun endpoint hloaded => List.mem_append_left _ (h.loaded endpoint hloaded)
  · exact fun hnone => hrequests.trans (h.unsent hnone)
  · rw [hrequests]
    exact h.sent
  · exact fun hfate => hrows.trans (h.unwritten hfate)
  · exact fun failures hreread => List.mem_append_left _ (h.reread failures hreread)

/-- A statement of the attempt. -/
theorem KnownFrom.track (h : attempt.KnownFrom lib message events) {op : Op} {reply : op.Reply}
    {answer : op.Answer} (hread : op.read reply = .ok answer)
    (hpermits : attempt.permits lib message op) :
    (attempt.track ⟨op, answer⟩).KnownFrom lib message
      (events ++ [⟨.statement message op, reply⟩]) := by
  have haside : requestSent ⟨.statement message op, reply⟩ = none →
      rowWritten ⟨.statement message op, reply⟩ = none → attempt.KnownFrom lib message
        (events ++ [⟨.statement message op, reply⟩]) := fun hsent hwritten =>
    h.aside hsent hwritten
  cases op with
  | getEnabled =>
    obtain rfl : attempt = {} := hpermits
    cases hread
    have hnext := haside rfl rfl
    rcases reply with e | _ | endpoint
    · exact hnext
    · exact ⟨nofun, hnext.unsent, nofun, fun _ => hnext.unwritten rfl, nofun⟩
    · refine ⟨fun endpoint' hloaded => ?_, hnext.unsent, nofun, hnext.unwritten, nofun⟩
      obtain rfl := Option.some.inj hloaded
      exact List.mem_append_right _ (List.mem_singleton_self _)
  | createAttempt row =>
    let ev : Event deployment := ⟨.statement message (.createAttempt row), reply⟩
    have hrequests : (events ++ [ev]).filterMap requestSent = events.filterMap requestSent := by
      rw [List.filterMap_append]
      exact List.append_nil _
    constructor
    · exact fun endpoint hloaded => List.mem_append_left _ (h.loaded endpoint hloaded)
    · exact fun hnone => hrequests.trans (h.unsent hnone)
    · rw [hrequests]
      exact h.sent
    · exact nofun
    · exact fun failures hreread => List.mem_append_left _ (h.reread failures hreread)
  | post request =>
    obtain ⟨-, hnone, endpoint, hloaded, hcarries⟩ := hpermits
    cases hread
    constructor
    · exact fun endpoint hloaded => List.mem_append_left _ (h.loaded endpoint hloaded)
    · exact nofun
    · intro outcome hsome
      obtain rfl := Option.some.inj hsome
      refine ⟨endpoint, request, hloaded, hcarries, ?_⟩
      rw [List.filterMap_append, h.unsent hnone]
      rfl
    · intro hfate
      rw [List.filterMap_append, h.unwritten hfate]
      rfl
    · exact fun failures hreread => List.mem_append_left _ (h.reread failures hreread)
  | refreshFailures =>
    have hnext := haside rfl rfl
    refine ⟨hnext.loaded, hnext.unsent, hnext.sent, hnext.unwritten, fun failures hreread => ?_⟩
    cases reply with
    | none => cases hread
    | some failures' =>
      obtain rfl := Except.ok.inj hread
      obtain rfl := Option.some.inj hreread
      exact List.mem_append_right _ (List.mem_singleton_self _)
  | _ =>
    have hnext := haside rfl rfl
    exact ⟨hnext.loaded, hnext.unsent, hnext.sent, hnext.unwritten, hnext.reread⟩

end AttemptProgress

namespace WorkerProgress

variable {progress : WorkerProgress}

/-- So is the attempt of the worker, if it holds a message. -/
def KnownFrom (lib : Primitives) (events : List (Event deployment)) (progress : WorkerProgress) :
    Prop :=
  ∀ tag message, progress.holding = some (tag, message) →
    progress.attempt.KnownFrom lib message events

theorem KnownFrom.statement (h : progress.KnownFrom lib events) {op : Op}
    (reply : (SystemOp.statement message op).Answer)
    (hpermits : progress.permits lib (.statement message op)) :
    (progress.track ⟨.statement message op, reply⟩).KnownFrom lib
      (events ++ [⟨.statement message op, reply⟩]) := by
  obtain ⟨⟨tag, hholding⟩, hop, -⟩ := hpermits
  have hattempt := h tag message hholding
  intro tag' message' hholding'
  cases hread : op.read reply with
  | ok answer =>
    simp only [WorkerProgress.track, hread] at hholding' ⊢
    obtain ⟨rfl, rfl⟩ := Prod.mk.inj (Option.some.inj (hholding'.symm.trans hholding))
    exact hattempt.track hread hop
  | error e =>
    simp only [WorkerProgress.track, hread] at hholding' ⊢
    obtain ⟨rfl, rfl⟩ := Prod.mk.inj (Option.some.inj (hholding'.symm.trans hholding))
    cases op with
    | createAttempt row =>
      cases reply with
      | true => cases hread
      | false => exact hattempt.aside rfl rfl
    | refreshFailures => exact hattempt.aside rfl rfl
    | _ => cases hread

theorem KnownFrom.track (h : progress.KnownFrom lib (events.rtakeWhile staysWith)) (op : SystemOp)
    (answer : op.Answer) (hpermits : progress.permits lib op) :
    (progress.track ⟨op, answer⟩).KnownFrom lib
      ((events ++ [(⟨op, answer⟩ : Event deployment)]).rtakeWhile staysWith) := by
  cases op with
  | reserve =>
    rw [List.rtakeWhile_concat_neg _ _ _ (by simp [staysWith])]
    intro tag message hholding
    exact ⟨nofun, fun _ => rfl, nofun, fun _ => rfl, nofun⟩
  | statement message op =>
    rw [List.rtakeWhile_concat_pos _ _ _ rfl]
    exact h.statement answer hpermits
  | publish next =>
    rw [List.rtakeWhile_concat_pos _ _ _ rfl]
    exact fun tag message hholding => (h tag message hholding).aside rfl rfl
  | acknowledge tag message state => exact nofun
  | _ => exact hpermits.elim

end WorkerProgress

section Deployed

variable {ι : Type} [DecidableEq ι] {site : Site} {duties : ι → Duty} {s : Deployment}
  {G : Config deployment ι Deployment Unit → Label Circumstances Intervention ι → Prop}
  {c : Config deployment ι Deployment Unit}

/-- Every worker knows what its attempt has done. -/
theorem knownFrom (h : (deployed site duties).Reaches G (boot site duties s) c) {i : ι}
    (hduty : duties i = .worker) :
    (progressIn site duties i c.log).KnownFrom site.lib (underway i c.log) := by
  refine h.course (I := fun i progress events => duties i = .worker →
    progress.KnownFrom site.lib (events.rtakeWhile staysWith)) rfl
    (fun i => (duties i).follows_program site) again_follows
    (fun i _ tag message hholding => by cases hholding)
    (fun i progress events op answer ih hpermits hduty => ?_) i hduty
  rw [hduty] at hpermits ⊢
  exact (ih hduty).track op answer hpermits

/-- A statement is one of an attempt that knows what it has done. -/
def Known (lib : Primitives) (before : List (ι × Event deployment))
    (entry : ι × Event deployment) : Prop :=
  ∀ message op reply, entry.2 = ⟨.statement message op, reply⟩ → ∃ attempt,
    AttemptProgress.KnownFrom lib message (underway entry.1 before) attempt ∧
      attempt.permits lib message op

theorem known (h : (deployed site duties).Reaches G (boot site duties s) c) :
    Justified (Known site.lib) c.log := by
  refine h.justified rfl fun c i e op rest hr hp => ?_
  intro message statement reply hev
  obtain ⟨rfl, -⟩ := Event.mk.inj hev
  have hpermits := conduct_permitted hr hp
  cases hduty : duties i with
  | worker =>
    rw [hduty] at hpermits
    obtain ⟨⟨tag, hholding⟩, hop, -⟩ := hpermits
    exact ⟨_, knownFrom hr hduty tag message hholding, hop⟩
  | _ =>
    rw [hduty] at hpermits
    exact hpermits.elim

omit [DecidableEq ι] in
/-- A request and a row of an attempt come before its row. -/
theorem Known.unwritten [DecidableEq ι] {before : List (ι × Event deployment)} {i : ι}
    {ev : Event deployment} (h : Known lib before (i, ev))
    (hev : (requestSent ev).isSome ∨ (rowWritten ev).isSome) :
    (underway i before).filterMap rowWritten = [] := by
  rcases hev with hev | hev
  · obtain ⟨sent, hsent⟩ := Option.isSome_iff_exists.mp hev
    obtain ⟨message, request, outcome, rfl⟩ := eq_of_requestSent hsent
    obtain ⟨attempt, hknown, hfate, -⟩ := h message _ _ rfl
    exact hknown.unwritten hfate
  · obtain ⟨row, hwritten⟩ := Option.isSome_iff_exists.mp hev
    obtain ⟨message, rfl⟩ := eq_of_rowWritten hwritten
    obtain ⟨attempt, hknown, hfate, -⟩ := h message _ _ rfl
    exact hknown.unwritten hfate

/-- After its row an attempt neither sends a request nor writes another row. -/
theorem quiet_after_row {before later log : List (ι × Event deployment)} {i : ι}
    {message : Message} {row : WebhookDeliveryAttempt} (hknown : Justified (Known lib) log)
    (hlog : log = before ++ (i, ⟨.statement message (.createAttempt row), true⟩) :: later) :
    (remainder i later).filterMap requestSent = [] ∧
      (remainder i later).filterMap rowWritten = [] := by
  have hquiet : ∀ ev ∈ remainder i later,
      ¬ ((requestSent ev).isSome ∨ (rowWritten ev).isSome) := by
    intro ev hmem hev
    have hrow : staysWith ⟨.statement message (.createAttempt row), true⟩ := rfl
    obtain ⟨between, rest, rfl, hunderway⟩ := underway_of_remainder before hrow hmem
    rw [← List.cons_append, ← List.append_assoc] at hlog
    have hnone := (hknown _ _ _ hlog).unwritten hev
    cases List.filterMap_eq_nil_iff.mp hnone _ hunderway
  constructor <;> refine List.filterMap_eq_nil_iff.mpr fun ev hmem => ?_
  · simpa using fun h => hquiet ev hmem (.inl h)
  · simpa using fun h => hquiet ev hmem (.inr h)

/-- The audit trail tells the truth: a row is the only one of its attempt, from when the worker
has taken the message until it takes another one, and it is about the endpoint as the attempt has
loaded it and the payload as its lists leave it. Either the attempt sends one request, with this
payload to this endpoint, and the row tells how it ended; or it sends none, neither before the
row nor after it, and the row tells why. -/
theorem rows_truthful (site : Site) (duties : ι → Duty) (s : Deployment)
    (h : (deployed site duties).Reaches (fun _ _ => True) (boot site duties s) c)
    (before later : List (ι × Event deployment)) (i : ι) (message : Message)
    (row : WebhookDeliveryAttempt)
    (hlog : c.log = before ++ (i, ⟨.statement message (.createAttempt row), true⟩) :: later) :
    message.Writes row ∧ (underway i before).filterMap rowWritten = [] ∧
      (remainder i later).filterMap rowWritten = [] ∧
      (remainder i later).filterMap requestSent = [] ∧
      ∃ endpoint payload shouldSend,
        ⟨.statement message .getEnabled, .ok (some endpoint)⟩ ∈ underway i before ∧
        row.endpointId = endpoint.pk ∧
        shapeAndCheck message.rawPayload endpoint = .ok (payload, shouldSend) ∧
        row.payloadFingerprint = payloadFingerprint site.lib payload ∧
        ((underway i before).filterMap requestSent = [] ∧
            AttemptProgress.Explains message endpoint payload shouldSend none row ∨
          ∃ request outcome, (underway i before).filterMap requestSent = [(request, outcome)] ∧
            request.url = endpoint.webhookUrl ∧
            request.data = serializePayload site.lib payload ∧
            AttemptProgress.Explains message endpoint payload shouldSend (some outcome) row) := by
  obtain ⟨attempt, hknown, hfate, -, ⟨endpoint, hloaded, hrecords⟩, hwrites⟩ :=
    known h _ _ _ hlog message _ _ rfl
  obtain ⟨payload, shouldSend, hshape, hfingerprint, hexplains⟩ := hrecords.explained
  obtain ⟨hunsent, hunwritten⟩ := quiet_after_row (known h) hlog
  refine ⟨hwrites, hknown.unwritten hfate, hunwritten, hunsent, endpoint, payload, shouldSend,
    hknown.loaded endpoint hloaded, hrecords.endpointId, hshape, hfingerprint, ?_⟩
  cases houtcome : attempt.outcome with
  | none =>
    rw [houtcome] at hexplains
    exact .inl ⟨hknown.unsent houtcome, hexplains⟩
  | some outcome =>
    rw [houtcome] at hexplains
    obtain ⟨endpoint', request, hloaded', ⟨hurl, payload', hshape', hdata⟩, hsent⟩ :=
      hknown.sent outcome houtcome
    obtain rfl : endpoint = endpoint' := Option.some.inj (hloaded.symm.trans hloaded')
    obtain ⟨rfl, -⟩ := Prod.mk.inj (Except.ok.inj (hshape.symm.trans hshape'))
    exact .inr ⟨request, outcome, hsent, hurl, hdata, hexplains⟩

end Deployed

/-- The endpoint is unavailable once. -/
theorem rows_truthful_unavailableOnce : ∃ c before i message row later request outcome,
    (deployed emptySite receiverAndWorker).schedule (boot emptySite receiverAndWorker oneSubscriber)
      (servedOnce 500 9 ++ .relaunch 1 :: List.replicate 9 (onward 200 1)) = some c ∧
    c.log = before ++ (i, ⟨.statement message (.createAttempt row), true⟩) :: later ∧
    row.status = .retrying ∧ (underway i before).filterMap requestSent = [(request, outcome)] ∧
    row.httpStatusCode = outcome.statusCode := by
  have hrun : ((deployed emptySite receiverAndWorker).schedule
      (boot emptySite receiverAndWorker oneSubscriber)
        (servedOnce 500 9 ++ .relaunch 1 :: List.replicate 9 (onward 200 1))).map
        (fun c => (rowsWritten c.log).map (·.status)) = some [.retrying, .succeeded] := by
    decide +kernel
  obtain ⟨c, hc, hstatuses⟩ := Option.map_eq_some_iff.mp hrun
  obtain ⟨row, rest, hrows, hstatus, -⟩ := List.map_eq_cons_iff.mp hstatuses
  obtain ⟨before, ⟨i, ev⟩, later, hlog, -, hwritten, -⟩ := List.filterMap_eq_cons_iff.mp hrows
  obtain ⟨message, rfl⟩ := eq_of_rowWritten hwritten
  obtain ⟨-, -, -, -, endpoint, payload, shouldSend, -, -, -, -, hrequest⟩ := rows_truthful emptySite
    receiverAndWorker oneSubscriber (System.reaches_of_schedule hc .refl) before later i message row
    hlog
  rcases hrequest with ⟨-, hnone⟩ | ⟨request, outcome, hsent, -, -, hanswered⟩
  · cases hnone with
    | filtered _ hskipped => cases hskipped.symm.trans hstatus
    | refused _ _ _ _ hrefused => cases hrefused.symm.trans hstatus
  · cases hanswered with
    | answered _ htells =>
      exact ⟨c, before, i, message, row, later, request, outcome, hc, hlog, hstatus, hsent,
        htells.httpStatusCode⟩

end WebhookRelay
