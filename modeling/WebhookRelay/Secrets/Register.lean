import WebhookRelay.Secrets.Outcomes

/-!
# An external secret as a register

Setting a secret to a text and setting it to nothing should be the two writes of a register:
every call returns, and the secret that is read is the one that was written last. Clearing a
secret deletes it softly, though, and the state it is left in for the recovery window has no
way back: reading it raises, and so does the next write.

## Main results

* `register_iff` — a sequence of writes behaves like a register exactly if it clears nothing
  that it has set.
-/

namespace WebhookRelay

open Interleaving

/-! ## Reading -/

section Reading

variable {settings : Settings} {endpoint : WebhookEndpoint} {name : String}

/-- What `get_secret` returns, by the state of the secret. -/
def SecretState.reading : SecretState → Except PyError String
  | .absent => .ok ""
  | .active value => .ok value
  | .scheduled => .error .secretsManagerError

theorem exec_awsGetSecret (hname : secretName settings endpoint = .ok name) (vault : Vault)
    (outside : Outside) (store : Store) :
    ((awsGetSecret settings endpoint).exec behaving (vault.behaviour outside) store).value =
      (vault name).reading := by
  cases hreference : endpoint.secretBackendReference with
  | none =>
    rw [secretName, hreference] at hname
    cases hname
  | some reference =>
    cases hstate : vault name <;>
      simp [awsGetSecret, hreference, hname, behaving, respond, Vault.behaviour, hstate,
        SecretState.read, SecretState.reading]

theorem exec_awsGetSecret_unnamed (hreference : endpoint.secretBackendReference = none)
    (vault : Vault) (outside : Outside) (store : Store) :
    ((awsGetSecret settings endpoint).exec behaving (vault.behaviour outside) store).value =
      .ok "" := by
  simp [awsGetSecret, hreference]

end Reading

/-! ## A sequence of calls -/

section Sequence

variable (settings : Settings) (endpoint : WebhookEndpoint)

/-- The store after calls of `set_secret` one after the other, each with what the outside
decides about it; none if one of them has raised. -/
def setInTurn : List (EditOutside × String) → SecretStore → Option SecretStore
  | [], s => some s
  | (outside, value) :: calls, s =>
    match (awsSetSecret settings endpoint value).outcome outside s with
    | (.ok _, s') => setInTurn calls s'
    | (.error _, _) => none

/-- What was written last, `initial` if nothing was. -/
def lastWritten (initial : String) (calls : List (EditOutside × String)) : String :=
  ((calls.map Prod.snd).getLast?).getD initial

/-- Every call returns, and a following `get_secret` returns the given secret. -/
def Settles (calls : List (EditOutside × String)) (s : SecretStore) (secret : String) : Prop :=
  ∃ s', setInTurn settings endpoint calls s = some s' ∧ ∀ outside store,
    ((awsGetSecret settings endpoint).exec behaving (s'.vault.behaviour outside) store).value =
      .ok secret

end Sequence

section Register

variable {settings : Settings} {endpoint : WebhookEndpoint} {name : String}
  {calls : List (EditOutside × String)} {s : SecretStore}

theorem lastWritten_cons (initial : String) (call : EditOutside × String)
    (calls : List (EditOutside × String)) :
    lastWritten initial (call :: calls) = lastWritten call.2 calls := by
  simp [lastWritten, List.getLast?_cons]

theorem settles_nil (hname : secretName settings endpoint = .ok name) (secret : String) :
    Settles settings endpoint [] s secret ↔ (s.vault name).reading = .ok secret := by
  constructor
  · rintro ⟨_, ⟨⟩, hget⟩
    have outside : Outside := { outcome := .connectionError "", secret := .failed }
    rw [← hget outside { endpoint }, exec_awsGetSecret hname]
  · intro hreading
    refine ⟨s, rfl, fun outside store => ?_⟩
    rw [exec_awsGetSecret hname, hreading]

/-- A call that returns hands its store to the calls after it. -/
theorem settles_cons {call : EditOutside × String} {s' : SecretStore} {secret : String}
    {result : WebhookEndpoint}
    (hcall : (awsSetSecret settings endpoint call.2).outcome call.1 s = (.ok result, s')) :
    Settles settings endpoint (call :: calls) s secret ↔
      Settles settings endpoint calls s' secret := by
  rw [Settles, setInTurn, hcall, Settles]

/-- However a call ends, if the sequence settles then the rest does. -/
theorem settles_rest {call : EditOutside × String} {secret : String}
    (h : Settles settings endpoint (call :: calls) s secret) :
    Settles settings endpoint calls
      ((awsSetSecret settings endpoint call.2).outcome call.1 s).2 secret := by
  obtain ⟨s', hturn, hget⟩ := h
  rw [setInTurn] at hturn
  split at hturn
  · next hcall =>
    rw [hcall]
    exact ⟨s', hturn, hget⟩
  · cases hturn

/-- A secret that is scheduled for deletion stays so, and is never read again. -/
theorem not_settles_scheduled (hname : secretName settings endpoint = .ok name)
    (hstate : s.vault name = .scheduled) (secret : String) :
    ¬ Settles settings endpoint calls s secret := by
  induction calls generalizing s with
  | nil =>
    rw [settles_nil hname, hstate]
    intro hreading
    cases hreading
  | cons call calls ih =>
    rintro ⟨s', hturn, hget⟩
    have hafter : ((awsSetSecret settings endpoint call.2).outcome call.1 s).2.vault name =
        .scheduled := by
      by_cases hclear : call.2 = ""
      · rw [hclear, outcome_awsSetSecret_clear _ hname (by simp [hstate]), SecretStore.keep_vault]
      · rw [outcome_awsSetSecret _ hname hclear, if_pos hstate, hstate]
    exact ih hafter (settles_rest ⟨s', hturn, hget⟩)

/-- A secret that is set can be set again, but not cleared. -/
theorem settles_active_iff (hname : secretName settings endpoint = .ok name) {value : String}
    (hstate : s.vault name = .active value) :
    Settles settings endpoint calls s (lastWritten value calls) ↔ ∀ call ∈ calls, call.2 ≠ "" := by
  induction calls generalizing s value with
  | nil => simp [settles_nil hname, hstate, SecretState.reading, lastWritten]
  | cons call calls ih =>
    rw [lastWritten_cons, List.forall_mem_cons]
    have hpresent : s.vault name ≠ .scheduled := by simp [hstate]
    by_cases hclear : call.2 = ""
    · refine iff_of_false ?_ fun h => h.1 hclear
      intro hsettles
      have hrest := settles_rest hsettles
      rw [hclear, outcome_awsSetSecret_clear call.1 hname (by simp [hstate])] at hrest
      exact not_settles_scheduled hname (SecretStore.keep_vault ..) _ hrest
    · have hcall := outcome_awsSetSecret (s := s) call.1 hname hclear
      rw [if_neg hpresent] at hcall
      rw [settles_cons hcall, ih (SecretStore.keep_vault ..)]
      exact (and_iff_right hclear).symm

/-- As long as nothing is stored, clearing has no effect. -/
theorem settles_absent_iff (hname : secretName settings endpoint = .ok name)
    (hstate : s.vault name = .absent) :
    Settles settings endpoint calls s (lastWritten "" calls) ↔
      (calls.map Prod.snd).Pairwise fun before after => after = "" → before = "" := by
  induction calls with
  | nil => simp [settles_nil hname, hstate, SecretState.reading, lastWritten]
  | cons call calls ih =>
    rw [lastWritten_cons, List.map_cons, List.pairwise_cons, List.forall_mem_map]
    by_cases hclear : call.2 = ""
    · have hcall := outcome_awsSetSecret_absent call.1 hname hstate
      rw [← hclear] at hcall
      rw [settles_cons hcall, hclear, ih]
      exact (and_iff_right fun _ _ _ => rfl).symm
    · have hpresent : s.vault name ≠ .scheduled := by simp [hstate]
      have hcall := outcome_awsSetSecret (s := s) call.1 hname hclear
      rw [if_neg hpresent] at hcall
      rw [settles_cons hcall, settles_active_iff hname (SecretStore.keep_vault ..)]
      constructor
      · intro hset
        refine ⟨fun later hlater hempty => absurd hempty (hset later hlater), ?_⟩
        exact List.pairwise_map.mpr (List.pairwise_of_forall_mem_list
          fun _ _ later hlater hempty => absurd hempty (hset later hlater))
      · intro hset later hlater hempty
        exact hclear (hset.1 later hlater hempty)

/-- An endpoint without a reference refuses every write; all it can do is read nothing. -/
theorem settles_unnamed_iff (hreference : endpoint.secretBackendReference = none) :
    Settles settings endpoint calls s (lastWritten "" calls) ↔ calls = [] := by
  cases calls with
  | nil =>
    simp only [iff_true]
    exact ⟨s, rfl, fun outside store => exec_awsGetSecret_unnamed hreference ..⟩
  | cons call calls =>
    simp only [reduceCtorEq, iff_false]
    rintro ⟨s', hturn, -⟩
    rw [setInTurn, outcome_awsSetSecret_unnamed call.1 (by rw [secretName, hreference])] at hturn
    cases hturn

/-- From no stored secret on, every call returns and a following read gives what was written
last, exactly if the endpoint has a reference and no secret is cleared that has been set. -/
theorem register_iff (settings : Settings) (endpoint : WebhookEndpoint)
    (calls : List (EditOutside × String)) (s : SecretStore)
    (hstart : ∀ name, secretName settings endpoint = .ok name → s.vault name = .absent) :
    Settles settings endpoint calls s (lastWritten "" calls) ↔
      (calls = [] ∨ endpoint.secretBackendReference.isSome) ∧
        (calls.map Prod.snd).Pairwise fun before after => after = "" → before = "" := by
  cases hreference : endpoint.secretBackendReference with
  | none =>
    rw [settles_unnamed_iff hreference]
    constructor
    · rintro rfl
      exact ⟨.inl rfl, .nil⟩
    · rintro ⟨hempty | hsome, -⟩
      · exact hempty
      · cases hsome
  | some reference =>
    have hname : secretName settings endpoint =
        .ok (settings.awsSecretNamePrefix ++ "/" ++ reference) := by rw [secretName, hreference]
    rw [settles_absent_iff hname (hstart _ hname)]
    exact (and_iff_right (.inr rfl)).symm

theorem register_iff_rotated :
    Settles {} newEndpoint [({}, "first"), ({}, "second")] noSecrets "second" :=
  (register_iff {} newEndpoint [({}, "first"), ({}, "second")] noSecrets fun _ _ => rfl).mpr
    ⟨.inr rfl, by decide⟩

/-- A secret is set and cleared again: reading it raises. -/
theorem cleared_secret_not_blank :
    ¬ Settles {} newEndpoint [({}, "first"), ({}, "")] noSecrets
      (lastWritten "" [({}, "first"), ({}, "")]) := by
  have hname : secretName {} newEndpoint = .ok "openedx-webhook-relay/6f1c" := rfl
  rw [settles_absent_iff hname rfl]
  decide

end Register

end WebhookRelay
