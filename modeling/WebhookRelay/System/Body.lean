import WebhookRelay.Payload.Reshaping
import WebhookRelay.System.FanOut
import WebhookRelay.System.Repetition

/-!
# What the requests of a delivery have in common

A retry is published with the raw payload as the attempt before has left it, which may be another
one than it was handed. Shaping it again gives the same value, though, so whichever attempt sends
a request, and whichever message the broker hands out twice, the body is the same, and the audit
trail says so by its fingerprint.

## Main results

* `same_body_sent` — the requests of a delivery have the same body and its rows the same
  fingerprint, as long as the lists of the endpoint are not edited.
-/

namespace WebhookRelay

open Interleaving Program Messaging Books Dictionary Json

/-! ## Shaping what attempts have left -/

/-- What shaping a payload reads of an endpoint apart from the filter. -/
structure SameLists (endpoint endpoint' : WebhookEndpoint) : Prop where
  piiAllowlist : endpoint'.piiAllowlist = endpoint.piiAllowlist
  piiDenylist : endpoint'.piiDenylist = endpoint.piiDenylist

theorem WebhookEndpoint.CopyOf.sameLists {copy row : WebhookEndpoint} (h : copy.CopyOf row) :
    SameLists row copy := by
  rw [CopyOf] at h
  rw [h]
  exact ⟨rfl, rfl⟩

section Lists

variable {endpoint : WebhookEndpoint} {allowlist denylist : List String}
  (hallow : endpoint.piiAllowlist = pathList allowlist)
  (hdeny : endpoint.piiDenylist = pathList denylist)

include hallow hdeny

/-- What an attempt leaves is what its endpoint's lists leave. -/
theorem leftBy_eq (raw : Payload) : raw.leftBy endpoint = raw.left allowlist denylist := by
  obtain ⟨shaped, hshaped, -⟩ := shapeAndCheck_members raw endpoint hallow hdeny
  rw [Payload.leftBy, shapeObjects_eq raw endpoint hallow hdeny, hshaped]
  have hobject : (obj (leftRaw raw.members allowlist denylist)).toPayload? =
      some (raw.left allowlist denylist) := dif_pos (raw.left allowlist denylist).wellFormed
  exact congrArg (Option.getD · raw) hobject

/-- The raw payload has one data key, and the lists shape it to the given payload. -/
structure ShapedTo (endpoint : WebhookEndpoint) (dataKey : String) (shaped raw : Payload) :
    Prop where
  oneKey : ∀ key ∈ keys raw.members, key = dataKey ∨ key = "event_metadata"
  shapes : ∀ endpoint', SameLists endpoint endpoint' → ∀ again shouldSend,
    shapeAndCheck raw endpoint' = .ok (again, shouldSend) →
      (obj again.members).Same (obj shaped.members)

theorem ShapedTo.start {dataKey : String} {raw shaped : Payload} {shouldSend : Bool}
    (hkeys : ∀ key ∈ keys raw.members, key = dataKey ∨ key = "event_metadata")
    (hshaped : shapeAndCheck raw endpoint = .ok (shaped, shouldSend)) :
    ShapedTo endpoint dataKey shaped raw := by
  refine ⟨hkeys, fun endpoint' hsame again shouldSend' hagain => ?_⟩
  obtain ⟨first, hfirst, hmembers⟩ := shapeAndCheck_members raw endpoint hallow hdeny
  obtain ⟨second, hsecond, hmembers'⟩ := shapeAndCheck_members raw endpoint'
    (hsame.piiAllowlist.trans hallow) (hsame.piiDenylist.trans hdeny)
  obtain rfl : first = shaped := (Prod.mk.inj (Except.ok.inj (hfirst.symm.trans hshaped))).1
  obtain rfl : second = again := (Prod.mk.inj (Except.ok.inj (hsecond.symm.trans hagain))).1
  rw [hmembers', hmembers]

/-- The next attempt shapes what this one leaves to the same payload. -/
theorem ShapedTo.leftBy {dataKey : String} (hne : dataKey ≠ "event_metadata")
    {raw shaped : Payload} (h : ShapedTo endpoint dataKey shaped raw)
    {endpoint' : WebhookEndpoint} (hsame : SameLists endpoint endpoint') :
    ShapedTo endpoint dataKey shaped (raw.leftBy endpoint') := by
  rw [leftBy_eq (hsame.piiAllowlist.trans hallow) (hsame.piiDenylist.trans hdeny)]
  refine ⟨keys_left_of_one h.oneKey allowlist denylist, ?_⟩
  intro next hnext again shouldSend hagain
  obtain ⟨first, hfirst, -⟩ := shapeAndCheck_members raw endpoint hallow hdeny
  obtain ⟨second, shouldSend', hsecond, hreshaped⟩ := reshaped_same hne h.oneKey allowlist denylist
    hallow hdeny (hnext.piiAllowlist.trans hallow) (hnext.piiDenylist.trans hdeny) hfirst
  obtain rfl : second = again := (Prod.mk.inj (Except.ok.inj (hsecond.symm.trans hagain))).1
  exact hreshaped.trans (h.shapes endpoint ⟨rfl, rfl⟩ first _ hfirst)

end Lists

/-! ## Every request and every row -/

section Deployed

variable {ι : Type} [DecidableEq ι] {site : Site} {duties : ι → Duty} {s : Deployment}
  {c : Config deployment ι Deployment Unit} {pk : Nat} {correlationId dataKey : String}
  {endpoint : WebhookEndpoint} {raw shaped : Payload}

/-- An edit of the endpoint keeps its lists. -/
def KeepsLists (pk : Nat) (endpoint : WebhookEndpoint)
    (label : Label Circumstances Intervention ι) : Prop :=
  ∀ row, label = .environment (.saveEndpoint pk row) → SameLists endpoint row.endpoint

/-- Whatever row of the endpoint an attempt has loaded, its lists are the same. -/
theorem sameLists_of_found (hstart : s.endpoints.get? pk = some endpoint)
    (h : (deployed site duties).Reaches (fun _ => KeepsLists pk endpoint) (boot site duties s) c)
    {i : ι} {message : Message} {row : WebhookEndpoint} (hpk : message.endpointId = pk)
    (hfound : (i, ⟨.statement message .getEnabled, .ok (some row)⟩) ∈ c.log) :
    SameLists endpoint row := by
  refine (found_of_kept (P := SameLists endpoint) (fun copy row hcopy hsame => ?_)
    (fun row hrow => ?_) (fun c row hlabel => ?_) h).2 i message row hpk hfound
  · exact ⟨hcopy.sameLists.piiAllowlist.trans hsame.piiAllowlist,
      hcopy.sameLists.piiDenylist.trans hsame.piiDenylist⟩
  · obtain rfl := Option.some.inj (hstart.symm.trans hrow)
    exact ⟨rfl, rfl⟩
  · have hsame := hlabel row rfl
    exact ⟨hsame.piiAllowlist, hsame.piiDenylist⟩

/-- All messages of the delivery that are published first have this raw payload. -/
def StartedWith (pk : Nat) (correlationId : String) (raw : Payload)
    (log : List (ι × Event deployment)) : Prop :=
  ∀ message, Published log message → message.isFor pk correlationId → message.retries = 0 →
    message.rawPayload = raw

/-- Every message of the delivery is shaped to the same payload. -/
theorem shapedTo_of_published {allowlist denylist : List String}
    (hallow : endpoint.piiAllowlist = pathList allowlist)
    (hdeny : endpoint.piiDenylist = pathList denylist) (hne : dataKey ≠ "event_metadata")
    (hraw : ShapedTo endpoint dataKey shaped raw) (hs : s.broker = .empty)
    (hstart : s.endpoints.get? pk = some endpoint)
    (h : (deployed site duties).Reaches (fun _ => KeepsLists pk endpoint) (boot site duties s) c)
    (hstarted : StartedWith pk correlationId raw c.log) :
    ∀ message, Published c.log message → message.isFor pk correlationId →
      ShapedTo endpoint dataKey shaped message.rawPayload := by
  revert hstarted
  refine h.account (I := fun _ log => StartedWith pk correlationId raw log →
    ∀ message, Published log message → message.isFor pk correlationId →
      ShapedTo endpoint dataKey shaped message.rawPayload) ?_ ?_ fun _ _ _ h => h
  · rintro - message ⟨i, publication, -, hmem⟩
    cases hmem
  · intro c i e op rest hr hp ih hstarted message hpublished hfor
    have hbefore := ih fun message hpublished => hstarted message (hpublished.snoc _)
    have hnew := hstarted message hpublished hfor
    obtain ⟨j, publication, harrives, hmem⟩ := hpublished
    rcases List.mem_append.mp hmem with hmem | hmem
    · exact hbefore message ⟨j, publication, harrives, hmem⟩ hfor
    · obtain ⟨rfl, hev⟩ := Prod.mk.inj (List.mem_singleton.mp hmem)
      obtain ⟨rfl, -⟩ := Event.mk.inj hev
      have hpermits := conduct_permitted hr hp
      cases hduty : duties j with
      | worker =>
        rw [hduty] at hpermits
        obtain ⟨tag, previous, hholding, hsucceeds, -, -, -, row, hloaded, hleft⟩ := hpermits
        rw [hsucceeds.isFor] at hfor
        have hpk : previous.endpointId = pk := of_decide_eq_true ((Bool.and_eq_true _ _).mp hfor).1
        have hfound := mem_part.mp ((grounded hr j).loaded tag previous hholding row hloaded)
        have hpublished := (published_of_holds hs hr).2 j tag previous hholding
        have hprevious := hbefore previous hpublished hfor
        rw [hleft]
        exact hprevious.leftBy hallow hdeny hne (sameLists_of_found hstart hr hpk hfound)
      | _ =>
        rw [hduty] at hpermits
        exact hnew hpermits ▸ hraw

/-- What a receiver alone has started under an identifier that it alone has drawn, it has started
with the payload of its event. -/
theorem startedWith_of_receiver {G : Config deployment ι Deployment Unit →
      Label Circumstances Intervention ι → Prop}
    (h : (deployed site duties).Reaches G (boot site duties s) c) {i : ι} {eventName : String}
    {event : EventData} (hduty : duties i = .receiver eventName event)
    (hunique : ∀ j, (j, ⟨.uuid4, correlationId⟩) ∈ c.log → j = i)
    (halone : restarted duties pk correlationId c.log = 0)
    (hraw : event.rawPayload = some raw) : StartedWith pk correlationId raw c.log := by
  rintro message ⟨j, publication, harrives, hmem⟩ hfor hfirst
  have hstarted : started pk correlationId ⟨.publish message, publication⟩ := by
    simp [hfor, hfirst, harrives]
  have hannounces : (duties j).announces := by
    have hnot := List.countP_eq_zero.mp halone _ hmem
    rwa [hstarted, Bool.and_true, Bool.not_eq_true, Bool.not_eq_false'] at hnot
  obtain rfl := hunique j (drawn_by_receiver h hannounces hmem hstarted)
  obtain ⟨pks, correlationId', published, hpublishes, hpart, -⟩ := part_receiver h hduty
  have hmessage := mem_messages_of_announced hpublishes (hpart.subset (mem_part.mpr hmem))
  exact Option.some.inj ((EventData.mem_messages hmessage).2.2.2.2.symm.trans hraw)

/-- All requests of a delivery have the same body, whichever attempts send them and however often
the broker hands out their messages, and all its rows have the fingerprint of this body; provided
that the lists of the endpoint are lists of paths that nobody edits, and that one receiver alone
has started the delivery. -/
theorem same_body_sent (site : Site) (duties : ι → Duty) (s : Deployment) (hs : s.broker = .empty)
    (pk : Nat) (correlationId : String) (endpoint : WebhookEndpoint)
    (hstart : s.endpoints.get? pk = some endpoint) {allowlist denylist : List String}
    (hallow : endpoint.piiAllowlist = pathList allowlist)
    (hdeny : endpoint.piiDenylist = pathList denylist)
    (h : (deployed site duties).Reaches (fun _ => KeepsLists pk endpoint) (boot site duties s) c)
    {i : ι} {eventName : String} {event : EventData} (hduty : duties i = .receiver eventName event)
    (hdata : event.dataType ≠ "event_metadata") (raw : Payload)
    (hraw : event.rawPayload = some raw)
    (hunique : ∀ j, (j, ⟨.uuid4, correlationId⟩) ∈ c.log → j = i)
    (halone : restarted duties pk correlationId c.log = 0) :
    ∃ shaped shouldSend, shapeAndCheck raw endpoint = .ok (shaped, shouldSend) ∧
      (∀ j message request outcome,
        (j, ⟨.statement message (.post request), outcome⟩) ∈ c.log →
        message.isFor pk correlationId → request.data = serializePayload site.lib shaped) ∧
      ∀ row ∈ rowsWritten c.log, row.endpointId = pk → row.correlationId = correlationId →
        row.payloadFingerprint = payloadFingerprint site.lib shaped := by
  obtain ⟨shaped, hshaped, -⟩ := shapeAndCheck_members raw endpoint hallow hdeny
  have hcaused := caused hs h
  have hstarted := startedWith_of_receiver h hduty hunique halone hraw
  -- whatever an attempt for the delivery makes of its payload, it is the same
  have hsame : ∀ {j : ι} {message : Message} {row : WebhookEndpoint} {again : Payload}
      {shouldSend : Bool}, Published c.log message → message.isFor pk correlationId →
      (j, ⟨.statement message .getEnabled, .ok (some row)⟩) ∈ c.log →
      shapeAndCheck message.rawPayload row = .ok (again, shouldSend) →
      serializePayload site.lib again = serializePayload site.lib shaped := by
    intro j message row again shouldSend hpublished hfor hfound hagain
    have hpk : message.endpointId = pk := of_decide_eq_true ((Bool.and_eq_true _ _).mp hfor).1
    have hshapedTo := shapedTo_of_published hallow hdeny hdata
      (.start hallow hdeny (EventData.keys_rawPayload hraw) hshaped) hs hstart h hstarted message
      hpublished hfor
    exact (hshapedTo.shapes row (sameLists_of_found hstart h hpk hfound) again shouldSend
      hagain).dumps_eq site.lib.floatRepr
  refine ⟨shaped, _, hshaped, fun j message request outcome hmem hfor => ?_,
    fun row hrow hpk hid => ?_⟩
  · obtain ⟨before, later, hlog, -, hpublished, endpoint', hfound, -, again, hagain, hdata⟩ :=
      hcaused.of_mem hmem
    have hsub : before ⊆ c.log := hlog ▸ List.subset_append_left ..
    exact hdata.trans (hsame (hpublished.mono hsub) hfor (hsub hfound) hagain)
  · obtain ⟨⟨j, ev⟩, hmem, hwritten⟩ := List.mem_filterMap.mp hrow
    obtain ⟨message, rfl⟩ := eq_of_rowWritten hwritten
    obtain ⟨before, later, hlog, -, hpublished, hwrites, hpk', endpoint', _, hfound, hrecords⟩ :=
      hcaused.of_mem hmem
    obtain ⟨again, shouldSend, hagain, hfingerprint⟩ := hrecords.fingerprint
    have hsub : before ⊆ c.log := hlog ▸ List.subset_append_left ..
    have hfor : message.isFor pk correlationId := by
      simp [Message.isFor, ← hpk', hpk, ← hwrites.correlationId, hid]
    have hbytes := hsame (hpublished.mono hsub) hfor (hsub hfound) hagain
    rw [hfingerprint, payloadFingerprint, payloadFingerprint, hbytes]

end Deployed

/-- The endpoint is unavailable once. -/
theorem same_body_sent_unavailableOnce : ∃ c shaped,
    (deployed emptySite receiverAndWorker).schedule (boot emptySite receiverAndWorker oneSubscriber)
      (servedOnce 500 9 ++ .relaunch 1 :: List.replicate 9 (onward 200 1)) = some c ∧
    (rowsWritten c.log).length = 2 ∧
    ∀ row ∈ rowsWritten c.log, row.endpointId = 1 → row.correlationId = exampleId →
      row.payloadFingerprint = payloadFingerprint emptyLib shaped := by
  have hrun : ((deployed emptySite receiverAndWorker).schedule
      (boot emptySite receiverAndWorker oneSubscriber)
        (servedOnce 500 9 ++ .relaunch 1 :: List.replicate 9 (onward 200 1))).map
        (fun c => ([(rowsWritten c.log).length, restarted receiverAndWorker 1 exampleId c.log],
          (part 1 c.log).any (drawn exampleId))) = some ([2, 0], false) := by
    decide +kernel
  obtain ⟨c, hc, hresult⟩ := Option.map_eq_some_iff.mp hrun
  simp only [Prod.mk.injEq, List.cons.injEq, and_true] at hresult
  obtain ⟨⟨hrows, halone⟩, hother⟩ := hresult
  have hlabels : ∀ label ∈ servedOnce 500 9 ++ .relaunch 1 :: List.replicate 9 (onward 200 1),
      KeepsLists 1 { newEndpoint with onlyOnPassing := false, pk := 1 } label := by
    intro label hlabel row hsave
    subst hsave
    simp [servedOnce, onward] at hlabel
  have hunique : ∀ j : Fin 2, (j, ⟨.uuid4, exampleId⟩) ∈ c.log → j = 0 := by
    simp only [← mem_part, ← any_drawn]
    exact Fin.forall_fin_two.mpr ⟨by simp, by simp [hother]⟩
  obtain ⟨raw, hraw⟩ := Option.isSome_iff_exists.mp
    (show emptyEvent.rawPayload.isSome = true from rfl)
  obtain ⟨shaped, shouldSend, -, -, hfingerprints⟩ := same_body_sent emptySite receiverAndWorker
    oneSubscriber rfl 1 exampleId _ rfl (show _ = pathList [] from rfl)
    (show _ = pathList [] from rfl) (System.reaches_of_labels hlabels hc .refl)
    (show receiverAndWorker 0 = _ from rfl) (by decide) raw hraw hunique halone
  exact ⟨c, shaped, hc, hrows, hfingerprints⟩

end WebhookRelay
