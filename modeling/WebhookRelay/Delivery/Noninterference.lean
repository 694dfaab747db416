import WebhookRelay.Delivery.Chain
import WebhookRelay.Delivery.Lockstep
import WebhookRelay.Payload.Agreement
import WebhookRelay.Payload.Paths

/-!
# What a delivery tells about its raw payload

A non-empty allowlist is a promise: of the raw payload nothing gets out but its top-level keys
and the values at the locations of the allowlist. Two chains of deliveries whose raw payloads
agree on those perform the same operations in the same order. They send the same requests, as
long as the receiver has only the requests to go by, and leave the same rows, metrics and
breaker.

## Main results

* `allowlist_noninterference` — chains for payloads that agree leave the same.
-/

namespace WebhookRelay

open Interleaving Program Dictionary Json

/-! ## A receiver that goes by the request -/

/-- What surrounds an attempt, the outside going by the operation. -/
structure Situation where
  edit : WebhookEndpoint → WebhookEndpoint := id
  wait : Nat := 0
  behaviour : Behaviour

/-- The store that the attempt finds. -/
def Situation.before (env : Situation) (s : Store) : Store :=
  { s with endpoint := env.edit s.endpoint, clock := s.clock + env.wait }

/-- Run the attempts of a chain, as `runChain` does. -/
def runAgainst (attempt : Nat → Delivery TaskEnd) (env : Nat → Situation) :
    (fuel : Nat) → (retries : Nat) → Store → Option ChainResult
  | 0, _, _ => none
  | fuel + 1, retries, s =>
    let r := (attempt retries).exec behaving (env retries).behaviour ((env retries).before s)
    match r.value with
    | .retry next countdown => (runAgainst attempt env fuel next r.store).map fun rest =>
      { rest with events := r.events :: rest.events, countdowns := countdown :: rest.countdowns }
    | finish => some { store := r.store, events := [r.events], countdowns := [], finish }

/-! ## What two chains have in common -/

section Same

variable (alike : Json → Json → Prop)

/-- The same row, with an alike snapshot. -/
structure SameRow (row row' : WebhookDeliveryAttempt) : Prop where
  columns : { row' with payloadSnapshot := none } = { row with payloadSnapshot := none }
  snapshot : Option.Rel (fun payload payload' : Payload =>
    alike (obj payload.members) (obj payload'.members)) row.payloadSnapshot row'.payloadSnapshot

/-- The same endpoint, requests, metrics and time, and the same rows up to their snapshots. -/
structure SameStore (s s' : Store) : Prop where
  endpoint : s'.endpoint = s.endpoint
  attempts : List.Forall₂ (SameRow alike) s.attempts s'.attempts
  signals : s'.signals = s.signals
  counters : s'.counters = s.counters
  sent : s'.sent = s.sent
  clock : s'.clock = s.clock

/-- The same operation with the same answer, or the creation of the same row. -/
inductive SameEvent : Event relay → Event relay → Prop where
  | same (ev : Event relay) : SameEvent ev ev
  | row {row row' : WebhookDeliveryAttempt} : SameRow alike row row' →
      SameEvent ⟨.createAttempt row, ()⟩ ⟨.createAttempt row', ()⟩

/-- The same operations in every attempt, the same countdowns and the same end. -/
structure SameResult (r r' : ChainResult) : Prop where
  store : SameStore alike r.store r'.store
  events : List.Forall₂ (List.Forall₂ (SameEvent alike)) r.events r'.events
  countdowns : r'.countdowns = r.countdowns
  finish : r'.finish = r.finish

end Same

section Chains

variable {alike : Json → Json → Prop}

theorem sameRow_refl (hrefl : ∀ v, alike v v) (row : WebhookDeliveryAttempt) :
    SameRow alike row row := by
  refine ⟨rfl, ?_⟩
  cases row.payloadSnapshot with
  | none => exact .none
  | some payload => exact .some (hrefl _)

theorem forall₂_refl (hrefl : ∀ v, alike v v) (rows : List WebhookDeliveryAttempt) :
    List.Forall₂ (SameRow alike) rows rows :=
  List.forall₂_same.mpr fun row _ => sameRow_refl hrefl row

/-- The endpoint has the two lists. -/
def HasLists (allowlist denylist : Json) (endpoint : WebhookEndpoint) : Prop :=
  endpoint.piiAllowlist = allowlist ∧ endpoint.piiDenylist = denylist

/-! ## One attempt -/

variable {allowlist denylist : Json}

/-- Stores that are the same answer alike and remain the same. -/
theorem respects_sameStore (behaviour : Behaviour) :
    Lockstep.Respects (Coupled (HasLists allowlist denylist) (SameRow alike) fun _ => True)
      (fun s s' => SameStore alike s s' ∧ HasLists allowlist denylist s.endpoint)
      behaving behaving behaviour behaviour := by
  rintro op op' answers s s' hop ⟨h, hlists⟩
  obtain ⟨endpoint, attempts, signals, counters, sent, clock⟩ := s
  obtain ⟨endpoint', attempts', signals', counters', sent', clock'⟩ := s'
  obtain ⟨hendpoint, hattempts, hsignals, hcounters, hsent, hclock⟩ := h
  dsimp only at hendpoint hattempts hsignals hcounters hsent hclock hlists
  subst hendpoint hsignals hcounters hsent hclock
  cases hop with
  | load =>
    refine ⟨⟨rfl, fun found hfound => ?_⟩, ⟨rfl, hattempts, rfl, rfl, rfl, rfl⟩, hlists⟩
    simp only [behaving, respond] at hfound
    split at hfound
    · obtain rfl := Option.some.inj (Outside.load_ok hfound).symm
      exact hlists
    · cases hfound
  | row hrow =>
    exact ⟨trivial, ⟨rfl, List.rel_append hattempts (.cons hrow .nil), rfl, rfl, rfl, rfl⟩, hlists⟩
  | request _ => exact ⟨rfl, ⟨rfl, hattempts, rfl, rfl, rfl, rfl⟩, hlists⟩
  | quiet hquiet =>
    cases op with
    | setHalfOpen =>
      by_cases hopen : endpoint'.circuitState = .open <;>
        simp only [behaving, respond, hopen, if_true, if_false, true_and] <;>
        exact ⟨⟨rfl, hattempts, rfl, rfl, rfl, rfl⟩, hlists⟩
    | getEnabled | createAttempt _ | post _ => cases hquiet
    | _ => exact ⟨rfl, ⟨rfl, hattempts, rfl, rfl, rfl, rfl⟩, hlists⟩

theorem sameEvent_of_together {fits : WebhookEndpoint → Prop} {requests : Request → Prop}
    {ev ev' : Event relay}
    (h : Lockstep.Together (Coupled fits (SameRow alike) requests) ev ev') :
    SameEvent alike ev ev' := by
  obtain ⟨op, answer⟩ := ev
  obtain ⟨op', answer'⟩ := ev'
  obtain ⟨answers, hop, hanswer⟩ := h
  cases hop with
  | load =>
    obtain rfl := hanswer.1
    exact .same _
  | row hrow => exact .row hrow
  | request _ | quiet _ =>
    obtain rfl := hanswer
    exact .same _

/-- Celery hands every attempt the raw payload as the attempt before left it. -/
def Handed (endpoint : WebhookEndpoint) (job : Job) : Prop :=
  ∀ k shaped left, shapeObjects (job.rawPayload k).members endpoint = .ok (shaped, left) →
    left = obj (job.rawPayload (k + 1)).members

/-- What the next attempt is handed, if the lists run through. -/
theorem rawPayload_succ {endpoint : WebhookEndpoint} {job : Job} (h : Handed endpoint job)
    {allow deny : List String} (hallow : paths endpoint.piiAllowlist = some allow)
    (hdeny : paths endpoint.piiDenylist = some deny) (k : Nat) :
    (job.rawPayload (k + 1)).members = ((job.rawPayload k).left allow deny).members := by
  obtain ⟨shaped, hshaped, -⟩ :=
    shapeAndCheck_shaped (job.rawPayload k) (endpoint.withLists allow deny) rfl rfl
  have hobjects := shapeObjects_eq (job.rawPayload k) (endpoint.withLists allow deny) rfl rfl
  rw [← shapeObjects_paths _ hallow hdeny, hshaped] at hobjects
  exact (Json.obj.inj (h k _ _ hobjects)).symm

/-- The same payload fails alike to be written. -/
theorem writeError?_same {payload payload' : Payload}
    (h : (obj payload.members).Same (obj payload'.members)) :
    payload'.writeError? = payload.writeError? := by
  rw [Payload.writeError?, Payload.writeError?, h.hasLeaf_eq, h.hasLeaf_eq]

section Attempts

variable (hlike : Likeness alike) {endpoint : WebhookEndpoint} {allow : List String}
  (hallow : endpoint.piiAllowlist = pathList allow) (hne : allow ≠ [])
include hlike hallow hne

/-- The raw payloads agree before every attempt. -/
theorem agree_rawPayload {job job' : Job} (hhanded : Handed endpoint job)
    (hhanded' : Handed endpoint job') {deny : List String}
    (hdeny : paths endpoint.piiDenylist = some deny)
    (hagree : Agree alike allow (job.rawPayload 0).members (job'.rawPayload 0).members) (k : Nat) :
    Agree alike allow (job.rawPayload k).members (job'.rawPayload k).members := by
  have hpaths : paths endpoint.piiAllowlist = some allow := by rw [hallow, paths_pathList]
  induction k with
  | zero => exact hagree
  | succ k ih =>
    rw [rawPayload_succ hhanded hpaths hdeny, rawPayload_succ hhanded' hpaths hdeny]
    have hallow' : (endpoint.withLists allow deny).piiAllowlist = pathList allow := rfl
    exact (shapeAndCheck_agree hlike hne ih hallow' rfl).2

/-- Payloads that agree are shaped alike for every endpoint with the two lists. -/
theorem shapedAlike (lib : Primitives) {payload payload' : Payload}
    (hagree : ∀ deny, paths endpoint.piiDenylist = some deny →
      Agree alike allow payload.members payload'.members) {row : WebhookEndpoint}
    (hrow : HasLists endpoint.piiAllowlist endpoint.piiDenylist row) :
    ShapedAlike lib (SameRow alike) (fun _ => True) row payload payload' := by
  have hpaths : paths row.piiAllowlist = some allow := by
    rw [hrow.1, hallow, paths_pathList]
  cases hdeny : paths row.piiDenylist with
  | none =>
    obtain ⟨e, hraises⟩ := shapeAndCheck_raises (.inr hdeny)
    exact .raised (hraises payload) (hraises payload')
  | some deny =>
    have hallow' : (row.withLists allow deny).piiAllowlist = pathList allow := rfl
    obtain ⟨shaped, shaped', shouldSend, hshape, hshape', halike⟩ :=
      (shapeAndCheck_agree hlike hne (hagree deny (hrow.2 ▸ hdeny)) hallow' rfl).1
    rw [← shapeAndCheck_paths _ hpaths hdeny] at hshape hshape'
    refine .shaped hshape hshape' ((hlike.same halike).dumps_eq lib.floatRepr).symm
      ⟨fun ctx status details _ _ _ => sameRow_refl hlike.refl _,
        fun ctx details _ _ _ => ⟨rfl, ?_⟩, writeError?_same (hlike.same halike)⟩
      fun _ _ => trivial
    simp only [attemptRow]
    split
    · exact .some halike
    · exact .none

end Attempts

/-! ## Whole chains -/

/-- Stores that are the same before an attempt are the same after it, and after the chain. -/
theorem runAgainst_same (lib : Primitives) (settings : Settings) {job job' : Job}
    (hevent : job'.event = job.event) (hcorrelation : job'.correlationId = job.correlationId)
    (hshaped : ∀ k endpoint, HasLists allowlist denylist endpoint →
      ShapedAlike lib (SameRow alike) (fun _ => True) endpoint (job.rawPayload k)
        (job'.rawPayload k))
    {env : Nat → Situation} (hedit : ∀ k row, HasLists row.piiAllowlist row.piiDenylist
      ((env k).edit row)) (fuel k : Nat) {s s' : Store} (hsame : SameStore alike s s')
    (hlists : HasLists allowlist denylist s.endpoint) :
    Option.Rel (SameResult alike) (runAgainst (deliverWebhook lib settings job) env fuel k s)
      (runAgainst (deliverWebhook lib settings job') env fuel k s') := by
  induction fuel generalizing k s s' with
  | zero => exact .none
  | succ fuel ih =>
    have hbefore : SameStore alike ((env k).before s) ((env k).before s') ∧
        HasLists allowlist denylist ((env k).before s).endpoint := by
      refine ⟨⟨?_, hsame.attempts, hsame.signals, hsame.counters, hsame.sent, ?_⟩, ?_⟩
      · exact congrArg (env k).edit hsame.endpoint
      · exact congrArg (fun time => time + ((env k).wait : Time)) hsame.clock
      · exact ⟨(hedit k _).1.trans hlists.1, (hedit k _).2.trans hlists.2⟩
    obtain ⟨hvalue, ⟨hstore, hlists'⟩, hevents⟩ :=
      (lockstep_deliverWebhook lib settings hevent hcorrelation k (hshaped k)).exec
        (respects_sameStore (env k).behaviour) hbefore
    have hevents := hevents.imp fun _ _ => sameEvent_of_together
    rw [runAgainst, runAgainst, ← hvalue]
    split
    · next next countdown _ =>
      have hrest := ih next hstore hlists'
      generalize runAgainst (deliverWebhook lib settings job) env fuel next _ = r,
        runAgainst (deliverWebhook lib settings job') env fuel next _ = r' at hrest
      cases hrest with
      | none => exact .none
      | some hresult =>
        exact .some ⟨hresult.store, .cons hevents hresult.events,
          congrArg (countdown :: ·) hresult.countdowns, hresult.finish⟩
    · exact .some ⟨hstore, .cons hevents .nil, rfl, rfl⟩

end Chains

/-- An endpoint that may see the name of the learner. -/
def cautiousEndpoint : WebhookEndpoint :=
  { newEndpoint with piiAllowlist := pathList ["data.user.name"], onlyOnPassing := false }

/-- A delivery whose attempts all are handed the enrolment. -/
def enrolledJob (email : String) : Job := { emptyJob with rawPayload _ := enrolled email }

/-- They are if no attempt deletes anything from it. -/
theorem handed_enrolledJob {endpoint : WebhookEndpoint} {allowlist denylist : List String}
    (hallow : endpoint.piiAllowlist = pathList allowlist)
    (hdeny : endpoint.piiDenylist = pathList denylist) {email : String}
    (hleft : leftRaw (enrolled email).members allowlist denylist = (enrolled email).members) :
    Handed endpoint (enrolledJob email) := by
  intro k shaped left h
  have hobjects := shapeObjects_eq (enrolled email) endpoint hallow hdeny
  cases hshape : shapeAndCheck (enrolled email) endpoint with
  | error e =>
    rw [hshape] at hobjects
    cases hobjects.symm.trans h
  | ok result =>
    rw [hshape, hleft] at hobjects
    cases hobjects.symm.trans h
    rfl

/-- Chains whose raw payloads agree where the allowlist looks leave the same, whatever else is in
the raw payloads and whatever the denylist is. -/
theorem allowlist_noninterference (lib : Primitives) (settings : Settings)
    {alike : Json → Json → Prop} (halike : alike = Eq ∨ alike = Same) (s : Store)
    {allowlist : List String} (hallow : s.endpoint.piiAllowlist = pathList allowlist)
    (hne : allowlist ≠ []) {job job' : Job} (hevent : job'.event = job.event)
    (hcorrelation : job'.correlationId = job.correlationId) (hhanded : Handed s.endpoint job)
    (hhanded' : Handed s.endpoint job')
    (hagree : Agree alike allowlist (job.rawPayload 0).members (job'.rawPayload 0).members)
    (env : Nat → Situation) (hedit : ∀ k row, HasLists row.piiAllowlist row.piiDenylist
      ((env k).edit row)) (fuel : Nat) :
    Option.Rel (SameResult alike) (runAgainst (deliverWebhook lib settings job) env fuel 0 s)
        (runAgainst (deliverWebhook lib settings job') env fuel 0 s) ∧
      ∀ k endpoint, HasLists s.endpoint.piiAllowlist s.endpoint.piiDenylist endpoint →
        (shapeAndCheck (job'.rawPayload k) endpoint).map Prod.snd =
          (shapeAndCheck (job.rawPayload k) endpoint).map Prod.snd := by
  have hlike : Likeness alike := by
    rcases halike with rfl | rfl
    · exact likeness_eq
    · exact likeness_same
  have hshaped : ∀ k endpoint, HasLists s.endpoint.piiAllowlist s.endpoint.piiDenylist endpoint →
      ShapedAlike lib (SameRow alike) (fun _ => True) endpoint (job.rawPayload k)
        (job'.rawPayload k) := fun k endpoint =>
    shapedAlike hlike hallow hne lib fun deny hdeny =>
      agree_rawPayload hlike hallow hne hhanded hhanded' hdeny hagree k
  constructor
  · exact runAgainst_same lib settings hevent hcorrelation hshaped hedit fuel 0
      ⟨rfl, forall₂_refl hlike.refl s.attempts, rfl, rfl, rfl, rfl⟩ ⟨rfl, rfl⟩
  · intro k endpoint hlists
    cases hshaped k endpoint hlists with
    | raised hraised hraised' => rw [hraised, hraised']
    | shaped hshape hshape' => rw [hshape, hshape']; rfl

/-- Chains that differ in the address of the learner, sent to an endpoint that may only see the
name and whose receiver is down as long as it is sent anything. -/
theorem allowlist_noninterference_enrolled :
    let s : Store := { endpoint := cautiousEndpoint }
    let env : Nat → Situation := fun _ => { behaviour := fun _ => { outcome := .response 503 "" } }
    Option.Rel (SameResult Eq)
        (runAgainst (deliverWebhook emptyLib {} (enrolledJob "ada@example.com")) env 9 0 s)
        (runAgainst (deliverWebhook emptyLib {} (enrolledJob "lovelace@example.com")) env 9 0 s) ∧
      ∀ k endpoint, HasLists cautiousEndpoint.piiAllowlist cautiousEndpoint.piiDenylist endpoint →
        (shapeAndCheck ((enrolledJob "lovelace@example.com").rawPayload k) endpoint).map Prod.snd =
          (shapeAndCheck ((enrolledJob "ada@example.com").rawPayload k) endpoint).map Prod.snd := by
  intro s env
  have hagree : Agree Eq ["data.user.name"] ((enrolledJob "ada@example.com").rawPayload 0).members
      ((enrolledJob "lovelace@example.com").rawPayload 0).members := by
    refine ⟨rfl, fun t ht => ?_⟩
    obtain rfl := List.mem_singleton.mp ht
    rfl
  have hevent :
      (enrolledJob "lovelace@example.com").event = (enrolledJob "ada@example.com").event :=
    rfl
  have hallow : cautiousEndpoint.piiAllowlist = pathList ["data.user.name"] := rfl
  have hdeny : cautiousEndpoint.piiDenylist = pathList [] := rfl
  exact allowlist_noninterference emptyLib {} (.inl rfl) s hallow (by simp) hevent rfl
    (handed_enrolledJob hallow hdeny rfl) (handed_enrolledJob hallow hdeny rfl) hagree env
    (fun _ _ => ⟨rfl, rfl⟩) 9

end WebhookRelay
