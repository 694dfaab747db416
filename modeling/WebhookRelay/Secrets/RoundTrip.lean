import WebhookRelay.Model.Fields

/-!
# The round trip of an encrypted column

`get_prep_value` takes a secret that starts with `enc::` for one that is encrypted already:
it is stored as it is, and cannot be decrypted when it is loaded. Every other secret comes
back and is stored as a token.
-/

namespace WebhookRelay

variable {F : Fernet}

/-- The secret comes back from its column, which holds the prefix and a token of the secret. -/
def RoundTrips (key : Option String) (k : F.Key) (nonce : F.Nonce) (secret : String) : Prop :=
  ∃ column, getPrepValue F key nonce secret = .ok column ∧
    fromDbValue F key column = .ok secret ∧
      (secret ≠ "" → ∃ n, column = encryptedPrefix ++ F.encrypt k n secret)

/-- The round trip holds exactly for the secrets that do not look encrypted. -/
theorem roundTrips_iff (hF : F.Lawful) (key : Option String) (k : F.Key)
    (hkey : getFernet F key = .ok k) (nonce : F.Nonce) (secret : String) :
    RoundTrips key k nonce secret ↔ ¬ Prefixed secret := by
  constructor
  · rintro ⟨column, hprep, hload, -⟩ hprefixed
    rw [getPrepValue_ok hkey, stored_of_prefixed hprefixed, Except.ok.injEq] at hprep
    subst hprep
    rw [fromDbValue_ok hkey, Except.ok.injEq] at hload
    exact loaded_ne_of_prefixed hF hprefixed k hload
  · intro hplain
    refine ⟨stored k nonce secret, getPrepValue_ok hkey nonce secret, ?_, fun hne => ?_⟩
    · rw [fromDbValue_ok hkey, loaded_stored hF hplain]
    · exact ⟨nonce, stored_of_plain hne hplain k nonce⟩

theorem roundTrips_hunter2 :
    RoundTrips (F := Fernet.padded) exampleKey 'k' () "hunter2" ↔ ¬ Prefixed "hunter2" :=
  roundTrips_iff Fernet.padded_lawful exampleKey 'k' getFernet_exampleKey () "hunter2"

/-- A secret with the prefix is stored in clear and loaded as an empty one. -/
theorem prefixed_secret_lost :
    getPrepValue Fernet.padded exampleKey () "enc::hunter2" = .ok "enc::hunter2" ∧
      fromDbValue Fernet.padded exampleKey "enc::hunter2" = .ok "" ∧
        ¬ RoundTrips (F := Fernet.padded) exampleKey 'k' () "enc::hunter2" := by
  have hprep : getPrepValue Fernet.padded exampleKey () "enc::hunter2" = .ok "enc::hunter2" := by
    rfl
  have hload : fromDbValue Fernet.padded exampleKey "enc::hunter2" = .ok "" := by
    decide +kernel
  refine ⟨hprep, hload, ?_⟩
  rintro ⟨column, hcolumn, hback, -⟩
  obtain rfl := Except.ok.inj (hprep.symm.trans hcolumn)
  exact absurd (Except.ok.inj (hload.symm.trans hback)) (by decide)

end WebhookRelay
