import WebhookRelay.Model.KeySetting

/-!
# The key that a conversion finds

A conversion looks up the key when it needs one, so what a program does depends on the setting at
that moment. Computing the setting away leaves the conversions with the key given, and the rotation
of the key in the terms in which everything about it is proved.

## Main results

* `rotation_scopes_key` — `rotate_encryption_key` loads under the old key, saves under the new one,
  and leaves the setting as it was, on every path.
* `check_silent_iff` — the check that runs at deploy time is silent exactly if every row can be
  loaded and every instance be saved.
-/

namespace WebhookRelay

open Interleaving Program

variable (F : Fernet) (setting : KeySetting)

/-! ## Conversions -/

namespace Configured

theorem under_getPrepValue (nonce : F.Nonce) (value : String) :
    (getPrepValue F nonce value).under setting =
      .ret (WebhookRelay.getPrepValue F setting.join nonce value, setting) := by
  rw [getPrepValue, WebhookRelay.getPrepValue]
  split
  · rfl
  · cases tokenOf value <;> rfl

theorem under_fromDbValue (value : String) : (fromDbValue F value).under setting =
    .ret (WebhookRelay.fromDbValue F setting.join value, setting) := by
  rw [fromDbValue, WebhookRelay.fromDbValue]
  split
  · rfl
  · cases tokenOf value <;> rfl

theorem under_loadRow (row : EndpointRow) : (loadRow F row).under setting =
    .ret (WebhookRelay.loadRow F setting.join row, setting) := by
  rw [loadRow, under_bind, under_fromDbValue, ret_bind, WebhookRelay.loadRow]
  cases WebhookRelay.fromDbValue F setting.join row.signingSecret with
  | error e => rfl
  | ok signingSecret =>
    simp only
    rw [under_bind, under_fromDbValue, ret_bind]
    cases WebhookRelay.fromDbValue F setting.join row.signingSecretPrevious <;> rfl

theorem under_loadRows (rows : List EndpointRow) : (loadRows F rows).under setting =
    .ret (rows.mapM (WebhookRelay.loadRow F setting.join), setting) := by
  induction rows with
  | nil => rfl
  | cons row rows ih =>
    rw [loadRows, under_bind, under_loadRow, ret_bind, List.mapM_cons]
    cases WebhookRelay.loadRow F setting.join row with
    | error e => rfl
    | ok endpoint =>
      simp only
      rw [under_bind, ih, ret_bind]
      cases rows.mapM (WebhookRelay.loadRow F setting.join) <;> rfl

theorem under_prepareRow (saving : Saving F) (endpoint : WebhookEndpoint) :
    (prepareRow F saving endpoint).under setting =
      .ret (WebhookRelay.prepareRow F setting.join saving endpoint, setting) := by
  rw [prepareRow, under_bind, under_getPrepValue, ret_bind, WebhookRelay.prepareRow]
  cases WebhookRelay.getPrepValue F setting.join saving.signingSecret endpoint.signingSecret with
  | error e => rfl
  | ok signingSecret =>
    simp only
    rw [under_bind, under_getPrepValue, ret_bind]
    cases WebhookRelay.getPrepValue F setting.join saving.signingSecretPrevious
      endpoint.signingSecretPrevious <;> rfl

theorem under_saveAll (newKey : String) (saving : Nat → Saving F)
    (endpoints : List WebhookEndpoint) :
    (saveAll F saving endpoints).under (some (some newKey)) =
      (WebhookRelay.saveAll F newKey saving endpoints).bind fun result =>
        .ret (result, some (some newKey)) := by
  induction endpoints with
  | nil => rfl
  | cons endpoint rest ih =>
    rw [saveAll, under_bind, under_prepareRow, ret_bind, WebhookRelay.saveAll]
    simp only [Option.join_some]
    cases WebhookRelay.prepareRow F (some newKey) (saving endpoint.pk) endpoint with
    | error e => rfl
    | ok row =>
      dsimp only
      split
      · rfl
      · refine congrArg (Program.call (S := editing) (.saveSecrets row)) (funext fun affected => ?_)
        cases affected with
        | true => exact ih
        | false => rfl

/-- The command uses the old key for what it loads and the new key for what it saves, and nothing
else of it depends on the setting; it leaves the setting as it was. -/
theorem under_rotateEncryptionKey (saving : Nat → Saving F) (old new : LabelledKey)
    (dryRun : Bool) : (rotateEncryptionKey F saving old new dryRun).under setting =
      (WebhookRelay.rotateEncryptionKey F saving old new dryRun).bind fun result =>
        .ret (result, setting) := by
  rw [rotateEncryptionKey, WebhookRelay.rotateEncryptionKey]
  split
  · rfl
  split
  · rfl
  rw [under_bind, usingEncryptionKey, under_during, under_call]
  refine congrArg (Program.call (S := editing) .allRows) (funext fun rows => ?_)
  change ((((loadRows F rows).under (some (some old.key))) >>= fun r =>
    .ret (r.1, setting)) >>= _) = _
  rw [under_loadRows, ret_bind, ret_bind]
  simp only [Option.join_some]
  cases rows.mapM (WebhookRelay.loadRow F (some old.key)) with
  | error e => rfl
  | ok instances =>
    simp only
    cases dryRun with
    | true => rfl
    | false =>
      rw [if_neg Bool.false_ne_true, if_neg Bool.false_ne_true, usingEncryptionKey, under_during,
        under_saveAll]
      exact Program.bind_assoc _ _ _

end Configured

/-! ## The command -/

/-- Whatever the setting is and whatever the database answers, `rotate_encryption_key` loads under
the old key, saves under the new one and depends on the setting in nothing else; when it has ended,
well or not, the setting is what it was before, also if it was missing. If it is killed, it leaves
what the rotation with the two keys may leave when it is killed. -/
theorem rotation_scopes_key {E σ : Type} (H : Handler editing E σ) (e : E) (s : σ)
    (saving : Nat → Saving F) (old new : LabelledKey) (dryRun : Bool) :
    (Configured.rotateEncryptionKey F saving old new dryRun).outcome H.withRegister e (setting, s) =
        (((rotateEncryptionKey F saving old new dryRun).outcome H e s).1,
          (setting, ((rotateEncryptionKey F saving old new dryRun).outcome H e s).2)) ∧
      ∀ n, ∃ m, ((Configured.rotateEncryptionKey F saving old new dryRun).halt H.withRegister e n
        (setting, s)).2 = (rotateEncryptionKey F saving old new dryRun).halt H e m s := by
  constructor
  · rw [outcome_under, Configured.under_rotateEncryptionKey, outcome_map]
  · intro n
    obtain ⟨m, hm⟩ := halt_under H e n setting
      (Configured.rotateEncryptionKey F saving old new dryRun) s
    rw [Configured.under_rotateEncryptionKey, halt_map] at hm
    exact ⟨m, hm⟩

/-! ## The check -/

/-- A key can be used exactly if every row can be loaded with it. -/
theorem usable_iff_loads (key : Option String) :
    (∃ k, getFernet F key = .ok k) ↔ ∀ row, ∃ endpoint, loadRow F key row = .ok endpoint := by
  constructor
  · rintro ⟨k, hk⟩ row
    exact ⟨_, loadRow_ok hk row⟩
  · intro h
    obtain ⟨endpoint, hload⟩ := h { newEndpoint with signingSecret := encryptedPrefix ++ "" }
    obtain ⟨k, hk, -⟩ := fromDbValue_inv (loadRow_inv hload).1
    exact ⟨k, hk⟩

/-- The same with saving. -/
theorem usable_iff_prepares (key : Option String) (saving : Saving F) :
    (∃ k, getFernet F key = .ok k) ↔
      ∀ endpoint, ∃ row, prepareRow F key saving endpoint = .ok row := by
  constructor
  · rintro ⟨k, hk⟩ endpoint
    exact ⟨_, prepareRow_ok hk saving endpoint⟩
  · intro h
    cases hkey : getFernet F key with
    | ok k => exact ⟨k, rfl⟩
    | error e =>
      obtain ⟨row, hrow⟩ := h { newEndpoint with signingSecret := "hunter2" }
      have hfails : getPrepValue F key saving.signingSecret "hunter2" = .error e := by
        rw [getPrepValue, if_neg (by decide), show tokenOf "hunter2" = none by decide, hkey]
        rfl
      unfold prepareRow at hrow
      rw [hfails] at hrow
      cases hrow

/-- The check has nothing to say exactly if every row can be loaded and every instance be saved,
whatever the backend is: it looks at the key as the conversions do. -/
theorem check_silent_iff (pyRepr : String → String) (settings : Settings)
    (saving : Saving F) :
    checkEncryptionKey F pyRepr setting settings = [] ↔
      (∀ row, ∃ endpoint, loadRow F setting.join row = .ok endpoint) ∧
        ∀ endpoint, ∃ row, prepareRow F setting.join saving endpoint = .ok row := by
  have husable : checkEncryptionKey F pyRepr setting settings = [] ↔
      ∃ k, getFernet F setting.join = .ok k := by
    unfold checkEncryptionKey getFernet
    cases setting.join.filter fun key => decide (key ≠ "") with
    | none => simp only; split <;> simp
    | some key => cases hkey : F.parse key <;> simp [hkey]
  rw [← usable_iff_loads, ← usable_iff_prepares, and_self]
  exact husable

end WebhookRelay
