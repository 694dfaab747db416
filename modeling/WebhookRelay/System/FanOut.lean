import WebhookRelay.System.Conservation

/-!
# One delivery for each subscriber

A receiver performs the operations of an `announcement` one after the other, whatever happens in
between. Together with the books of the deployment this accounts for every delivery of its event:
each endpoint that was subscribed when the receiver looked is served once, and no other, up to the
first message that could not be published.

## Main results

* `subscribers_settled` — when nothing is under way, the settled deliveries of an event to an
  endpoint are one if it was subscribed, and those that operators or the broker have added.
-/

namespace WebhookRelay

open Interleaving Program Messaging Books

/-! ## What a receiver does -/

/-- The operations of a loop that publishes messages, up to the first publication that fails. -/
inductive Publishes : List Message → List (Event deployment) → Prop where
  | nil : Publishes [] []
  | confirmed {message : Message} {messages : List Message} {events : List (Event deployment)} :
      Publishes messages events →
        Publishes (message :: messages) (⟨.publish message, .confirmed⟩ :: events)
  | failed {message : Message} {messages : List Message} {publication : Publication} :
      publication ≠ .confirmed → Publishes (message :: messages) [⟨.publish message, publication⟩]

theorem Publishes.mem {messages : List Message} {events : List (Event deployment)}
    (h : Publishes messages events) {ev : Event deployment} (hev : ev ∈ events) :
    ∃ message ∈ messages, ∃ publication, ev = ⟨.publish message, publication⟩ := by
  induction h with
  | nil => cases hev
  | confirmed _ ih =>
    rcases List.mem_cons.mp hev with rfl | hev
    · exact ⟨_, List.mem_cons_self, _, rfl⟩
    · obtain ⟨message, hmem, publication, rfl⟩ := ih hev
      exact ⟨message, List.mem_cons_of_mem _ hmem, publication, rfl⟩
  | failed _ =>
    obtain rfl := List.mem_singleton.mp hev
    exact ⟨_, List.mem_cons_self, _, rfl⟩

/-- The first of the messages reach the broker, and all of them if no publication fails. -/
theorem Publishes.reached {messages : List Message} {events : List (Event deployment)}
    (h : Publishes messages events) (hfirst : ∀ m ∈ messages, m.retries = 0) :
    ∃ reached, reached <+: messages ∧
      (∀ pk correlationId, events.countP (started pk correlationId) =
        reached.countP (Message.isFor pk correlationId)) ∧
      ((∀ message publication, ⟨.publish message, publication⟩ ∈ events →
        publication = .confirmed) → reached = messages) := by
  induction h with
  | nil => exact ⟨[], List.prefix_rfl, fun _ _ => rfl, fun _ => rfl⟩
  | @confirmed message messages events _ ih =>
    obtain ⟨reached, hprefix, hcount, hall⟩ := ih fun m hm => hfirst m (List.mem_cons_of_mem _ hm)
    refine ⟨message :: reached, (List.prefix_cons_inj _).mpr hprefix, fun pk correlationId => ?_,
      fun hconfirmed => congrArg _ (hall fun m p hmem => hconfirmed m p
        (List.mem_cons_of_mem _ hmem))⟩
    have hzero := hfirst message List.mem_cons_self
    rw [List.countP_cons, List.countP_cons, hcount]
    simp [hzero, Publication.arrives]
  | @failed message messages publication hfailed =>
    have hzero := hfirst message List.mem_cons_self
    refine ⟨if publication.arrives then [message] else [], ?_, fun pk correlationId => ?_,
      fun hconfirmed => absurd (hconfirmed message publication (List.mem_singleton_self _)) hfailed⟩
    · cases publication.arrives
      · exact List.nil_prefix
      · exact ⟨messages, rfl⟩
    · cases harrives : publication.arrives <;>
        simp [List.countP_cons, hzero, harrives]

/-- What `_process_event` performs when it finds these endpoints, draws this identifier and goes on
to publish like this. -/
def announcement (eventName : String) (pks : List Nat) (correlationId : String)
    (published : List (Event deployment)) : List (Event deployment) :=
  ⟨.endpointIds eventName, pks⟩ ::
    if pks.isEmpty then [] else ⟨.uuid4, correlationId⟩ :: published

theorem publishes_confirmed (messages : List Message) :
    Publishes messages (messages.map fun message => ⟨.publish message, .confirmed⟩) := by
  induction messages with
  | nil => exact .nil
  | cons message messages ih => exact .confirmed ih

theorem trace_publishEach {messages : List Message} {events : List (Event deployment)}
    {p : Process Unit} (h : (publishEach messages).Trace events p) :
    ∃ published, Publishes messages published ∧ events <+: published ∧
      (p = .ret () → events = published) := by
  induction messages generalizing events with
  | nil =>
    obtain ⟨rfl, -⟩ := trace_ret.mp h
    exact ⟨[], .nil, List.prefix_rfl, fun _ => rfl⟩
  | cons message messages ih =>
    rcases trace_call.mp h with ⟨rfl, rfl⟩ | ⟨publication, later, rfl, hlater⟩
    · exact ⟨_, publishes_confirmed _, List.nil_prefix, nofun⟩
    · have hfails : publication ≠ .confirmed → later = [] := by
        cases publication with
        | confirmed => exact fun h => absurd rfl h
        | _ => exact fun _ => (trace_ret.mp hlater).1
      by_cases hconfirmed : publication = .confirmed
      · subst hconfirmed
        obtain ⟨published, hpublished, hbefore, hall⟩ := ih hlater
        exact ⟨_, .confirmed hpublished, (List.prefix_cons_inj _).mpr hbefore,
          fun hp => congrArg _ (hall hp)⟩
      · rw [hfails hconfirmed]
        exact ⟨_, .failed hconfirmed, List.prefix_rfl, fun _ => rfl⟩

theorem trace_processEvent {eventName : String} {event : EventData}
    {events : List (Event deployment)} {p : Process Unit}
    (h : (processEvent eventName event).Trace events p) :
    ∃ pks correlationId published, Publishes (event.messages eventName pks correlationId) published ∧
      events <+: announcement eventName pks correlationId published ∧
      (p = .ret () → events = announcement eventName pks correlationId published) := by
  rw [processEvent_eq] at h
  rcases trace_call.mp h with ⟨rfl, rfl⟩ | ⟨(pks : List Nat), later, rfl, hfound⟩
  · exact ⟨[], "", _, publishes_confirmed _, List.nil_prefix, nofun⟩
  refine ⟨pks, ?_⟩
  simp only [announcement, List.prefix_cons_inj, List.cons.injEq, true_and]
  split at hfound
  · next hnone =>
    obtain ⟨rfl, -⟩ := trace_ret.mp hfound
    exact ⟨"", _, publishes_confirmed _, List.nil_prefix, fun _ => by rw [if_pos hnone]⟩
  next hsome =>
  simp only [if_neg hsome]
  rcases trace_call.mp hfound with ⟨rfl, rfl⟩ | ⟨correlationId, later, rfl, hdrawn⟩
  · exact ⟨"", _, publishes_confirmed _, List.nil_prefix, nofun⟩
  refine ⟨correlationId, ?_⟩
  simpa only [List.prefix_cons_inj, List.cons.injEq, true_and] using trace_publishEach hdrawn

/-! ## Receivers in the deployment -/

section Deployed

variable {ι : Type} [DecidableEq ι] {site : Site} {duties : ι → Duty} {s : Deployment}
  {G : Config deployment ι Deployment Unit → Label Circumstances Intervention ι → Prop}
  {c : Config deployment ι Deployment Unit}

def Duty.announces : Duty → Bool
  | .receiver _ _ => true
  | _ => false

/-- In every interleaving a receiver performs its announcement. -/
theorem part_receiver (h : (deployed site duties).Reaches G (boot site duties s) c) {i : ι}
    {eventName : String} {event : EventData} (hduty : duties i = .receiver eventName event) :
    ∃ pks correlationId published, Publishes (event.messages eventName pks correlationId) published ∧
      part i c.log <+: announcement eventName pks correlationId published ∧
      (c.program i = .ret () →
        part i c.log = announcement eventName pks correlationId published) := by
  have htrace := h.trace rfl (i := i) fun value => by simp [deployed, hduty, Duty.repeats]
  simp only [boot, hduty] at htrace
  exact trace_processEvent htrace

/-- The endpoints that a receiver finds are distinct. -/
theorem nodup_of_found (h : (deployed site duties).Reaches G (boot site duties s) c) {i : ι}
    {eventName : String} {pks : List Nat} (hmem : (i, ⟨.endpointIds eventName, pks⟩) ∈ c.log) :
    pks.Nodup := by
  revert hmem
  let ev : Event deployment := ⟨.endpointIds eventName, pks⟩
  refine h.account (I := fun _ log => (i, ev) ∈ log → pks.Nodup) (by simp [boot]) ?_
    fun _ _ _ h => h
  intro c j e op rest _ _ ih hmem
  rcases List.mem_append.mp hmem with hmem | hmem
  · exact ih hmem
  · obtain ⟨-, hev⟩ := Prod.mk.inj (List.mem_singleton.mp hmem)
    obtain ⟨rfl, hanswer⟩ := Event.mk.inj hev
    rw [eq_of_heq hanswer]
    exact c.store.endpoints.nodup_enabledFor eventName

/-- This identifier was drawn. -/
@[simp] def drawn (correlationId : String) : Event deployment → Bool
  | ⟨.uuid4, answer⟩ => answer = correlationId
  | _ => false

theorem any_drawn {correlationId : String} {events : List (Event deployment)} :
    events.any (drawn correlationId) ↔ ⟨.uuid4, correlationId⟩ ∈ events := by
  rw [List.any_eq_true]
  constructor
  · rintro ⟨⟨op, answer⟩, hmem, h⟩
    cases op with
    | uuid4 => exact of_decide_eq_true h ▸ hmem
    | _ => cases h
  · exact fun h => ⟨_, h, decide_eq_true rfl⟩

section Announcement

variable {eventName : String} {event : EventData} {pks : List Nat}
  {correlationId correlationId' : String} {published events : List (Event deployment)}
  (hpublishes : Publishes (event.messages eventName pks correlationId') published)
include hpublishes

/-- What an announcement starts it starts under the identifier that it draws. -/
theorem drawn_of_started {pk : Nat}
    (hevents : events <+: announcement eventName pks correlationId' published)
    {ev : Event deployment} (hev : ev ∈ events) (h : started pk correlationId ev) :
    ⟨.uuid4, correlationId⟩ ∈ events := by
  rcases List.prefix_cons_iff.mp hevents with rfl | ⟨later, rfl, hlater⟩
  · cases hev
  rcases List.mem_cons.mp hev with rfl | hev
  · cases h
  split at hlater
  · rw [List.prefix_nil.mp hlater] at hev
    cases hev
  rcases List.prefix_cons_iff.mp hlater with rfl | ⟨reached, rfl, hreached⟩
  · cases hev
  rcases List.mem_cons.mp hev with rfl | hev
  · cases h
  obtain ⟨message, hmessage, publication, rfl⟩ := hpublishes.mem (hreached.subset hev)
  obtain ⟨-, -, rfl, -⟩ := EventData.mem_messages hmessage
  simp only [started, Message.isFor, Bool.and_eq_true, decide_eq_true_eq] at h
  obtain ⟨⟨⟨-, hid⟩, -⟩, -⟩ := h
  exact hid ▸ List.mem_cons_of_mem _ List.mem_cons_self

theorem eq_of_drawn
    (h : ⟨.uuid4, correlationId⟩ ∈ announcement eventName pks correlationId' published) :
    correlationId = correlationId' := by
  rcases List.mem_cons.mp h with h | h
  · cases h
  split at h
  · cases h
  rcases List.mem_cons.mp h with h | h
  · cases h
    rfl
  obtain ⟨message, -, publication, hmessage⟩ := hpublishes.mem h
  cases hmessage

theorem mem_messages_of_announced {message : Message} {publication : Publication}
    (h : ⟨.publish message, publication⟩ ∈ announcement eventName pks correlationId' published) :
    message ∈ event.messages eventName pks correlationId' := by
  rcases List.mem_cons.mp h with h | h
  · cases h
  split at h
  · cases h
  rcases List.mem_cons.mp h with h | h
  · cases h
  obtain ⟨message', hmem, publication', hmessage⟩ := hpublishes.mem h
  cases hmessage
  exact hmem

/-- An announcement starts one delivery for each of the endpoints that it has reached. -/
theorem countP_announcement (hnodup : pks.Nodup) : ∃ reached, reached <+: pks ∧
    (∀ pk, (announcement eventName pks correlationId' published).countP
        (started pk correlationId') = (event.rawPayload.isSome && pk ∈ reached).toNat) ∧
    ((∀ message publication, ⟨.publish message, publication⟩ ∈
        announcement eventName pks correlationId' published → publication = .confirmed) →
      reached = pks) := by
  by_cases hnone : pks.isEmpty
  · obtain rfl := List.isEmpty_iff.mp hnone
    exact ⟨[], List.prefix_rfl, fun pk => by simp [announcement], fun _ => rfl⟩
  obtain ⟨messages, hprefix, hcount, hall⟩ := hpublishes.reached fun m hm =>
    (EventData.mem_messages hm).2.2.2.1
  have hcons : announcement eventName pks correlationId' published =
      ⟨.endpointIds eventName, pks⟩ :: ⟨.uuid4, correlationId'⟩ :: published := by
    rw [announcement, if_neg hnone]
  have hstarted : ∀ pk, (announcement eventName pks correlationId' published).countP
      (started pk correlationId') = messages.countP (Message.isFor pk correlationId') := fun pk => by
    rw [hcons, List.countP_cons_of_neg (by simp), List.countP_cons_of_neg (by simp), hcount]
  simp only [hstarted]
  cases hraw : event.rawPayload with
  | none =>
    rw [EventData.messages, hraw] at hprefix
    obtain rfl := List.prefix_nil.mp hprefix
    exact ⟨pks, List.prefix_rfl, fun _ => rfl, fun _ => rfl⟩
  | some rawPayload =>
    rw [EventData.messages, hraw] at hprefix hall
    obtain ⟨reached, hreached, rfl⟩ := List.prefix_map_iff.mp hprefix
    refine ⟨reached, hreached, fun pk => ?_, fun hconfirmed => ?_⟩
    · have hfor : (Message.isFor pk correlationId') ∘ (fun endpointId : Nat =>
          ({ endpointId, event := eventName, rawPayload, correlationId := correlationId' } :
            Message)) = fun endpointId => endpointId == pk := by
        funext endpointId
        simp [Message.isFor, Bool.beq_eq_decide_eq]
      rw [List.countP_map, hfor]
      change reached.count pk = _
      rw [(hnodup.sublist hreached.sublist).count]
      by_cases h : pk ∈ reached <;> simp [h]
    · have hmessages := hall fun m p hmem => hconfirmed m p (hcons ▸
        List.mem_cons_of_mem _ (List.mem_cons_of_mem _ hmem))
      exact (List.map_injective_iff.mpr fun pk pk' heq => congrArg Message.endpointId heq) hmessages

end Announcement

/-- The first attempts that other processes than receivers have published. -/
def restarted (duties : ι → Duty) (pk : Nat) (correlationId : String)
    (log : List (ι × Event deployment)) : Nat :=
  log.countP fun entry => !(duties entry.1).announces && started pk correlationId entry.2

theorem countP_part (i : ι) (p : Event deployment → Bool) (log : List (ι × Event deployment)) :
    (part i log).countP p = log.countP fun entry => entry.1 = i && p entry.2 := by
  rw [part, List.countP_map, List.countP_filter]
  exact List.countP_congr fun entry _ => by simp [and_comm]

/-- A receiver has drawn the identifier that it starts a delivery under. -/
theorem drawn_by_receiver (h : (deployed site duties).Reaches G (boot site duties s) c) {i : ι}
    (hannounces : (duties i).announces) {pk : Nat} {correlationId : String}
    {ev : Event deployment} (hmem : (i, ev) ∈ c.log) (hstarted : started pk correlationId ev) :
    (i, ⟨.uuid4, correlationId⟩) ∈ c.log := by
  obtain ⟨eventName, event, hreceiver⟩ : ∃ eventName event,
      duties i = .receiver eventName event := by
    cases hduty : duties i with
    | receiver eventName event => exact ⟨eventName, event, rfl⟩
    | _ =>
      rw [hduty] at hannounces
      cases hannounces
  obtain ⟨pks, correlationId', published, hpublishes, hpart, -⟩ := part_receiver h hreceiver
  exact mem_part.mp (drawn_of_started hpublishes hpart (mem_part.mpr hmem) hstarted)

/-- Under an identifier that one receiver alone has drawn, it alone has started deliveries,
unless an operator has started them again. -/
theorem total_started (h : (deployed site duties).Reaches G (boot site duties s) c) {i : ι}
    (hduty : (duties i).announces) {correlationId : String}
    (hunique : ∀ j, (j, ⟨.uuid4, correlationId⟩) ∈ c.log → j = i) (pk : Nat) :
    total (started pk correlationId) c.log =
      (part i c.log).countP (started pk correlationId) +
        restarted duties pk correlationId c.log := by
  rw [total, List.countP_eq_countP_filter_add c.log _ fun entry => entry.1 = i, List.countP_filter,
    List.countP_filter, countP_part, restarted]
  congr 1
  · exact List.countP_congr fun entry _ => by simp [and_comm]
  · refine List.countP_congr fun entry hentry => ?_
    simp only [Bool.and_eq_true, Bool.not_eq_true', decide_eq_false_iff_not]
    constructor
    · rintro ⟨hstarted, hother⟩
      refine ⟨?_, hstarted⟩
      by_contra hannounces
      exact hother (hunique _ (drawn_by_receiver h (Bool.not_eq_false _ ▸ hannounces) hentry
        hstarted))
    · rintro ⟨hannounces, hstarted⟩
      refine ⟨hstarted, ?_⟩
      rintro rfl
      rw [hduty] at hannounces
      cases hannounces

/-- Every subscriber of an event is served once: when the receiver is done and no worker is in
the middle of a turn, the settled, lost and waiting deliveries under its identifier to an endpoint
are one if the endpoint was found and the receiver has come as far, and besides only those that
operators have started again or whose message the broker has taken back. It comes to the end of
what it has found unless one of its publications fails. -/
theorem subscribers_settled (site : Site) (duties : ι → Duty) (s : Deployment)
    (hs : s.broker = .empty)
    (h : (deployed site duties).Reaches (fun _ _ => True) (boot site duties s) c)
    (hquiet : Quiescent site duties c) (i : ι) (eventName : String) (event : EventData)
    (hduty : duties i = .receiver eventName event) (hdone : c.program i = .ret ())
    (correlationId : String) (hunique : ∀ j, (j, ⟨.uuid4, correlationId⟩) ∈ c.log ↔ j = i) :
    ∃ pks reached : List Nat, (i, ⟨.endpointIds eventName, pks⟩) ∈ c.log ∧ reached <+: pks ∧
      ((∀ message publication, (i, ⟨.publish message, publication⟩) ∈ c.log →
        publication = .confirmed) → reached = pks) ∧
      ∀ pk, total (settled pk correlationId) c.log + total (lost pk correlationId) c.log +
          c.store.broker.ready.countP (Message.isFor pk correlationId) =
        (event.rawPayload.isSome && pk ∈ reached).toNat + restarted duties pk correlationId c.log +
          total (takenBack (Message.isFor pk correlationId)) c.log := by
  obtain ⟨pks, correlationId', published, hpublishes, -, hpart⟩ := part_receiver h hduty
  replace hpart := hpart hdone
  have hfound : (i, ⟨.endpointIds eventName, pks⟩) ∈ c.log := by
    rw [← mem_part, hpart]
    exact List.mem_cons_self
  have hdrawn : ⟨.uuid4, correlationId⟩ ∈ part i c.log := mem_part.mpr ((hunique i).mpr rfl)
  obtain rfl := eq_of_drawn hpublishes (hpart ▸ hdrawn)
  obtain ⟨reached, hreached, hcount, hall⟩ :=
    countP_announcement hpublishes (nodup_of_found h hfound)
  refine ⟨pks, reached, hfound, hreached, fun hconfirmed => hall fun m p hmem => ?_, fun pk => ?_⟩
  · exact hconfirmed m p (mem_part.mp (hpart ▸ hmem))
  · rw [settled_eq pk correlationId hs h hquiet,
      total_started h (by rw [hduty]; rfl) (fun j => (hunique j).mp), hpart, hcount]

end Deployed

/-- Two endpoints that are subscribed to the event. -/
def twoSubscribers : Deployment :=
  { oneSubscriber with
    endpoints := oneSubscriber.endpoints.save 2
      { event := "COURSE_PASSING_STATUS_UPDATED"
        endpoint := { newEndpoint with onlyOnPassing := false } } }

/-- The message for the first of them is published and that for the second refused, and the first
has been served. -/
theorem subscribers_settled_refused : ∃ c pks reached,
    (deployed emptySite receiverAndWorker).schedule
      (boot emptySite receiverAndWorker twoSubscribers)
      (List.replicate 3 (onward 200 0) ++ refusing 0 :: List.replicate 9 (onward 200 1)) = some c ∧
    (0, ⟨.endpointIds "COURSE_PASSING_STATUS_UPDATED", pks⟩) ∈ c.log ∧ reached <+: pks ∧
    total (settled 1 exampleId) c.log = (decide (1 ∈ reached)).toNat ∧
    total (settled 2 exampleId) c.log = (decide (2 ∈ reached)).toNat := by
  have hrun : ((deployed emptySite receiverAndWorker).schedule
      (boot emptySite receiverAndWorker twoSubscribers)
      (List.replicate 3 (onward 200 0) ++ refusing 0 :: List.replicate 9 (onward 200 1))).map
        (fun c => ([(c.program 0).returned?, (c.program 1).returned?],
          [(part 0 c.log).any (drawn exampleId), (part 1 c.log).any (drawn exampleId)],
          [c.store.broker.ready.length, total (lost 1 exampleId) c.log,
            total (lost 2 exampleId) c.log],
          [restarted receiverAndWorker 1 exampleId c.log,
            restarted receiverAndWorker 2 exampleId c.log,
            total (takenBack (Message.isFor 1 exampleId)) c.log,
            total (takenBack (Message.isFor 2 exampleId)) c.log])) =
      some ([some (), some ()], [true, false], [0, 0, 0], [0, 0, 0, 0]) := by
    decide +kernel
  obtain ⟨c, hc, hresult⟩ := Option.map_eq_some_iff.mp hrun
  simp only [Prod.mk.injEq, List.cons.injEq, returned?_eq_some, and_true] at hresult
  obtain ⟨⟨hreceiver, hworker⟩, ⟨hdrawn, hother⟩, ⟨hready, hlost, hlost'⟩, hrestarted, hrestarted',
    htaken, htaken'⟩ := hresult
  have hquiet : Quiescent emptySite receiverAndWorker c :=
    Fin.forall_fin_two.mpr ⟨fun _ => .inl hreceiver, fun _ => .inl hworker⟩
  have hunique : ∀ j, (j, ⟨.uuid4, exampleId⟩) ∈ c.log ↔ j = 0 := by
    simp only [← mem_part, ← any_drawn]
    exact Fin.forall_fin_two.mpr ⟨by simp [hdrawn], by simp [hother]⟩
  obtain ⟨pks, reached, hfound, hreached, -, hsettled⟩ := subscribers_settled emptySite
    receiverAndWorker twoSubscribers rfl (System.reaches_of_schedule hc .refl) hquiet 0 _ emptyEvent
    rfl hreceiver exampleId hunique
  have hone := hsettled 1
  have htwo := hsettled 2
  rw [List.eq_nil_of_length_eq_zero hready, hrestarted, htaken, hlost] at hone
  rw [List.eq_nil_of_length_eq_zero hready, hrestarted', htaken', hlost'] at htwo
  exact ⟨c, pks, reached, hc, hfound, hreached, hone, htwo⟩

end WebhookRelay
