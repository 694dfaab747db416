import WebhookRelay.Model.Celery
import WebhookRelay.Model.Editing

/-!
# The secrets manager

What AWS Secrets Manager keeps under a name and how its four calls answer. A secret that is
deleted is scheduled for deletion first; until it is gone, it can be neither read nor written,
and its name is taken. `secretStore` is the handler of edits for a deployment: the table of the
endpoints next to the secrets.
-/

namespace WebhookRelay

open Interleaving

/-- What is kept under a name. -/
inductive SecretState where
  | absent
  | active (value : String)
  /-- scheduled for deletion, in the recovery window -/
  | scheduled
  deriving DecidableEq, Repr

namespace SecretState

/-- `get_secret_value`. -/
def read : SecretState → SecretsAnswer
  | absent => .resourceNotFound
  | active value => .found (some value)
  | scheduled => .failed -- InvalidRequestException

/-- `put_secret_value`. -/
def put (value : String) : SecretState → WriteAnswer × SecretState
  | absent => (.resourceNotFound, absent)
  | active _ => (.done, active value)
  | scheduled => (.failed, scheduled) -- InvalidRequestException

/-- `create_secret`, which needs a free name. -/
def create (value : String) : SecretState → WriteAnswer × SecretState
  | absent => (.done, active value)
  | state => (.failed, state)

/-- `delete_secret` without force; `again` is the answer for a secret that is scheduled for
deletion already. -/
def delete (again : WriteAnswer) : SecretState → WriteAnswer × SecretState
  | absent => (.resourceNotFound, absent)
  | active _ => (.done, scheduled)
  | scheduled => (again, scheduled)

end SecretState

/-- The secrets by their names. -/
abbrev Vault := String → SecretState

/-- The table of the endpoints and the secrets outside of it. -/
structure SecretStore where
  table : List EndpointRow
  vault : Vault

namespace SecretStore

/-- The store with another state under a name. -/
def keep (s : SecretStore) (name : String) (state : SecretState) : SecretStore :=
  { s with vault := Function.update s.vault name state }

@[simp] theorem keep_vault (s : SecretStore) (name : String) (state : SecretState) :
    (s.keep name state).vault name = state := Function.update_self ..

@[simp] theorem keep_table (s : SecretStore) (name : String) (state : SecretState) :
    (s.keep name state).table = s.table := rfl

theorem keep_self {s : SecretStore} {name : String} {state : SecretState}
    (h : s.vault name = state) : s.keep name state = s := by
  subst h
  exact congrArg (SecretStore.mk s.table) (Function.update_eq_self name s.vault)

@[simp] theorem keep_keep (s : SecretStore) (name : String) (state state' : SecretState) :
    (s.keep name state).keep name state' = s.keep name state' := by
  simp [keep]

end SecretStore

/-- One call to the secret under a name. -/
def atSecret (name : String) (f : SecretState → WriteAnswer × SecretState) (s : SecretStore) :
    WriteAnswer × SecretStore :=
  ((f (s.vault name)).1, s.keep name (f (s.vault name)).2)

/-- One statement on the table. -/
def atTable (outside : EditOutside) (op : EditOp) (s : SecretStore) : op.Answer × SecretStore :=
  ((editTable outside op s.table).1, { s with table := (editTable outside op s.table).2 })

/-- How a deployment answers; of the secrets manager only a repeated deletion is left to the
outside. -/
def respondStore (outside : EditOutside) : (op : EditOp) → SecretStore → op.Answer × SecretStore
  | .deleteSecret name, s => atSecret name (SecretState.delete outside.write) s
  | .putSecretValue name value, s => atSecret name (SecretState.put value) s
  | .createSecret name value, s => atSecret name (SecretState.create value) s
  | .getRow pk, s => atTable outside (.getRow pk) s
  | .allRows, s => atTable outside .allRows s
  | .saveRow row, s => atTable outside (.saveRow row) s
  | .saveSecrets row, s => atTable outside (.saveSecrets row) s

def secretStore : Program.Handler editing EditOutside SecretStore := respondStore

/-- What deliveries get to read: the secrets as they are, and the rest as the outside has it. -/
def Vault.behaviour (vault : Vault) (outside : Outside) : Behaviour
  | .getSecretValue name => { outside with secret := (vault name).read }
  | _ => outside

end WebhookRelay
