import WebhookRelay.Secrets.KeyRotation

/-!
# Loading a column and saving it again

Every save of a whole row writes back the two secrets it has loaded. A token that the
configured key cannot read is loaded as an empty secret, and so the save that follows erases
it: between a run of `rotate_encryption_key` and the change of the setting, or after a key has
been mixed up, any unrelated edit does.
-/

namespace WebhookRelay

variable {F : Fernet}

/-- What is loaded from the column and saved again holds the secret, under the key that the
column could be read under or under the configured one. -/
def KeepsSecret (key : Option String) (k₀ k : F.Key) (nonce : F.Nonce)
    (column secret : String) : Prop :=
  ∃ value column', fromDbValue F key column = .ok value ∧
    getPrepValue F key nonce value = .ok column' ∧
      (Reads k₀ column' secret ∨ Reads k column' secret)

section Keeps

variable {key : Option String} {k₀ k : F.Key} {nonce : F.Nonce} {column secret : String}

theorem keepsSecret_iff_stored (hkey : getFernet F key = .ok k) :
    KeepsSecret key k₀ k nonce column secret ↔
      Reads k₀ (stored k nonce (loaded k column)) secret ∨
        Reads k (stored k nonce (loaded k column)) secret := by
  constructor
  · rintro ⟨value, column', hload, hsave, hreads⟩
    obtain rfl := Except.ok.inj ((fromDbValue_ok hkey column).symm.trans hload)
    obtain rfl := Except.ok.inj ((getPrepValue_ok hkey nonce _).symm.trans hsave)
    exact hreads
  · intro hreads
    exact ⟨_, _, fromDbValue_ok hkey column, getPrepValue_ok hkey nonce _, hreads⟩

/-- A text that looks encrypted is not what any key reads in it. -/
theorem not_reads_self (hF : F.Lawful) (hprefixed : Prefixed secret) (k : F.Key) :
    ¬ Reads k secret secret := by
  intro hreads
  exact loaded_ne_of_prefixed hF hprefixed k hreads.loaded

/-- A token under the configured key keeps its secret unless that looks encrypted. -/
theorem keeps_same_key_iff (hF : F.Lawful) (hreads : Reads k column secret) :
    Reads k (stored k nonce (loaded k column)) secret ↔ ¬ Prefixed secret := by
  rw [hreads.loaded]
  constructor
  · intro hkept hprefixed
    rw [stored_of_prefixed hprefixed] at hkept
    exact not_reads_self hF hprefixed k hkept
  · intro hplain
    exact reads_stored hF hplain k nonce

/-- A token under another key is loaded as an empty secret, which is then all there is. -/
theorem loaded_other_key (hF : F.Lawful) {token : String}
    (hreads : Reads k₀ (encryptedPrefix ++ token) secret) (hne : k ≠ k₀) :
    loaded k (encryptedPrefix ++ token) = "" := by
  apply loaded_of_unread
  intro other hother
  rw [reads_append] at hreads hother
  exact hne (hF.eq_of_decrypt hother hreads).1

/-- So the save erases a token that was made under another key. -/
theorem not_keepsSecret_other_key (hF : F.Lawful) (hkey : getFernet F key = .ok k)
    (hne : k ≠ k₀) (hsecret : secret ≠ "") (n : F.Nonce) :
    ¬ KeepsSecret key k₀ k nonce (encryptedPrefix ++ F.encrypt k₀ n secret) secret := by
  have hreads : Reads k₀ (encryptedPrefix ++ F.encrypt k₀ n secret) secret :=
    (reads_append ..).mpr (hF.decrypt_encrypt k₀ n secret)
  rw [keepsSecret_iff_stored hkey, loaded_other_key hF hreads hne, stored_empty,
    reads_plain (by simp), reads_plain (by simp), or_self]
  exact hsecret.symm

end Keeps

/-- Loading and saving keeps a secret exactly if it is stored in the clear, is empty, or can be
read under the configured key and does not look encrypted itself. -/
theorem keepsSecret_iff (hF : F.Lawful) (key : Option String) (k₀ k : F.Key)
    (hkey : getFernet F key = .ok k) (nonce : F.Nonce) (column secret : String)
    (hreads : Reads k₀ column secret) :
    KeepsSecret key k₀ k nonce column secret ↔
      ¬ Prefixed column ∨ secret = "" ∨ k = k₀ ∧ ¬ Prefixed secret := by
  rw [keepsSecret_iff_stored hkey]
  rcases plain_or_prefix column with hplain | ⟨token, rfl⟩
  · obtain rfl := (reads_plain hplain k₀ secret).mp hreads
    refine iff_of_true (.inr ?_) (.inl hplain)
    rw [loaded_of_plain hplain]
    exact reads_stored hF hplain k nonce
  · rw [or_iff_right (not_not_intro (prefixed_append token))]
    by_cases hk : k = k₀
    · subst hk
      rw [or_self, keeps_same_key_iff hF hreads]
      constructor
      · intro hplain
        exact .inr ⟨rfl, hplain⟩
      · rintro (rfl | ⟨-, hplain⟩)
        · simp
        · exact hplain
    · rw [loaded_other_key hF hreads hk, stored_empty, reads_plain (by simp),
        reads_plain (by simp), or_self]
      constructor
      · rintro rfl
        exact .inl rfl
      · rintro (rfl | ⟨heq, -⟩)
        · rfl
        · exact absurd heq hk

theorem keepsSecret_iff_legacy :
    KeepsSecret (F := Fernet.padded) exampleKey 'k' 'k' () "hunter2" "hunter2" :=
  have hplain : ¬ Prefixed "hunter2" := by decide
  (keepsSecret_iff Fernet.padded_lawful exampleKey 'k' 'k' getFernet_exampleKey () "hunter2"
    "hunter2" ((reads_plain hplain _ _).mpr rfl)).mpr (.inl hplain)

/-- A token under the key `o` is loaded and saved as an empty secret when the key is `k`. -/
theorem other_key_erases_secret :
    ¬ KeepsSecret (F := Fernet.padded) exampleKey 'o' 'k' ()
      (encryptedPrefix ++ Fernet.padded.encrypt 'o' () "hunter2") "hunter2" :=
  have hother : 'k' ≠ 'o' := by decide
  not_keepsSecret_other_key Fernet.padded_lawful getFernet_exampleKey hother (by decide) ()

end WebhookRelay
