import WebhookRelay.System.Truth

/-!
# Who is served

A request is sent in the middle of an attempt, so it is about the message that the worker has
taken and the row that the attempt has loaded since then. The causes of the message lead back to a
receiver.

## Main results

* `only_subscribers_served` — every request carries the payload of a published message to the URL
  of its endpoint, as its attempt has loaded it, and a receiver of that event has found this
  endpoint enabled and subscribed before.
-/

namespace WebhookRelay

open Interleaving Program

section Deployed

variable {ι : Type} [DecidableEq ι] {site : Site} {duties : ι → Duty} {s : Deployment}
  {c : Config deployment ι Deployment Unit} {log : List (ι × Event deployment)} {lib : Primitives}

omit [DecidableEq ι] in
/-- Whoever a message or a row is for was found enabled and subscribed by a receiver. -/
theorem subscribed (hcaused : Justified (Cause lib []) log) {message : Message}
    (hpublished : Published log message) :
    Subscribed log message.event message.endpointId := by
  obtain ⟨i, publication, -, hmem⟩ := hpublished
  -- along the causes, through the rows that operators send again
  let P : ι × Event deployment → Prop := fun entry =>
    (∀ message publication, entry.2 = ⟨.publish message, publication⟩ →
      Subscribed log message.event message.endpointId) ∧
    (∀ message row, entry.2 = ⟨.statement message (.createAttempt row), true⟩ →
      Subscribed log message.event message.endpointId) ∧
    ∀ selects rows, entry.2 = ⟨.selectAttempts selects, rows⟩ →
      ∀ row ∈ rows, Subscribed log row.event row.endpointId
  refine (hcaused.induct (P := P) (fun before entry hsub ih hcause => ?_) _ hmem).1 message
    publication rfl
  obtain ⟨j, op, answer⟩ := entry
  refine ⟨?_, ?_, ?_⟩
  · rintro message publication ⟨⟩
    rcases hcause with ⟨-, ⟨k, pks, hpks, hpk⟩ | ⟨row, ⟨k, selects, rows, hrows, hrow⟩, hsame⟩⟩ |
      ⟨previous, row, hsucceeds, ⟨k, publication, -, hprevious⟩, -⟩
    · exact ⟨k, pks, hsub hpks, hpk⟩
    · have hsubscribed := (ih _ hrows).2.2 selects rows rfl row hrow
      rwa [hsame.1, hsame.2]
    · have hsubscribed := (ih _ hprevious).1 previous publication rfl
      rwa [hsucceeds.event, hsucceeds.endpointId]
  · rintro message row ⟨⟩
    obtain ⟨⟨k, publication, -, hmessage⟩, -⟩ := hcause
    exact (ih _ hmessage).1 message publication rfl
  · rintro selects rows ⟨⟩ row hrow
    obtain ⟨message, k, hmem⟩ := (hcause row hrow).resolve_left (by simp)
    obtain ⟨hwrites, hpk⟩ := writes_of_writtenFor hcaused ⟨k, hsub hmem⟩
    have hsubscribed := (ih _ hmem).2.1 message row rfl
    rwa [hwrites.event, hpk]

/-- An event is sent only to endpoints that a receiver of this event has found enabled and
subscribed. Every request is for a message that was published; it goes to the URL of the message's
endpoint as the attempt, since the worker has taken the message, has loaded it, enabled; and it
carries the payload of the message as the lists of this endpoint leave it. -/
theorem only_subscribers_served (site : Site) (duties : ι → Duty) (s : Deployment)
    (hbroker : s.broker = .empty) (hattempts : s.attempts = [])
    (h : (deployed site duties).Reaches (fun _ _ => True) (boot site duties s) c)
    (before later : List (ι × Event deployment)) (i : ι) (message : Message) (request : Request)
    (outcome : PostOutcome)
    (hlog : c.log = before ++ (i, ⟨.statement message (.post request), outcome⟩) :: later) :
    Published before message ∧ Subscribed before message.event message.endpointId ∧
      ∃ endpoint, ⟨.statement message .getEnabled, .ok (some endpoint)⟩ ∈ underway i before ∧
        endpoint.enabled ∧ endpoint.pk = message.endpointId ∧
        AttemptProgress.Carries site.lib message endpoint request := by
  have hcaused := caused hbroker h
  rw [hattempts] at hcaused
  obtain ⟨hpublished, -⟩ := hcaused _ _ _ hlog
  have hbefore : Justified (Cause site.lib []) before := (hlog ▸ hcaused).left
  obtain ⟨attempt, hknown, -, -, endpoint, hloaded, hcarries⟩ := known h _ _ _ hlog message _ _ rfl
  have hfound := hknown.loaded endpoint hloaded
  obtain ⟨henabled, hpk⟩ := enabled_of_found h
    (hlog ▸ List.mem_append_left _ (mem_log_of_underway hfound))
  exact ⟨hpublished, subscribed hbefore hpublished, endpoint, hfound, henabled, hpk, hcarries⟩

end Deployed

/-- The one request of a delivery. -/
theorem only_subscribers_served_once : ∃ c before later i message request outcome,
    (deployed emptySite receiverAndWorker).schedule (boot emptySite receiverAndWorker oneSubscriber)
      (servedOnce 200 9) = some c ∧
    c.log = before ++ (i, ⟨.statement message (.post request), outcome⟩) :: later ∧
    Published before message ∧ Subscribed before message.event message.endpointId := by
  have hrun : ((deployed emptySite receiverAndWorker).schedule
      (boot emptySite receiverAndWorker oneSubscriber) (servedOnce 200 9)).map
        (fun c => total (fun ev => (requestSent ev).isSome) c.log) = some 1 := by
    decide +kernel
  obtain ⟨c, hc, hcount⟩ := Option.map_eq_some_iff.mp hrun
  obtain ⟨⟨i, ev⟩, hmem, hev⟩ := total_pos_iff.mp (hcount ▸ Nat.one_pos)
  obtain ⟨sent, hsent⟩ := Option.isSome_iff_exists.mp hev
  obtain ⟨message, request, outcome, rfl⟩ := eq_of_requestSent hsent
  obtain ⟨before, later, hlog⟩ := List.append_of_mem hmem
  obtain ⟨hpublished, hsubscribed, -⟩ := only_subscribers_served emptySite receiverAndWorker
    oneSubscriber rfl rfl (System.reaches_of_schedule hc .refl) before later i message request
    outcome hlog
  exact ⟨c, before, later, i, message, request, outcome, hc, hlog, hpublished, hsubscribed⟩

end WebhookRelay
