import WebhookRelay.Library.Translation

/-!
# Programs with a register

A process may keep a value that its program reads and overwrites between its calls, such as a
setting of the interpreter that runs it. Nobody else sees the register, so it can be computed
away: `Program.under` leaves the program that performs the remaining calls, next to the value
that the register has at the end.

## Main results

* `under_during` — a value that is set for a part of a program is gone after it.
* `outcome_under`, `halt_under` — running a program with its register, to the end or until it is
  killed, is running what is left without.
-/

namespace Interleaving

variable {S : Signature} {V E σ α β : Type}

/-- The operations on the register. -/
inductive RegisterOp (V : Type) where
  | read
  | write (value : V)

@[reducible] def RegisterOp.Answer : RegisterOp V → Type
  | .read => V
  | .write _ => Unit

abbrev register (V : Type) : Signature := ⟨RegisterOp V, RegisterOp.Answer⟩

namespace Program

/-- The register stands next to the store. -/
def Handler.withRegister (H : Handler S E σ) : Handler ((register V).sum S) E (V × σ)
  | _, .inl .read, (value, s) => (value, (value, s))
  | _, .inl (.write value), (_, s) => ((), (value, s))
  | e, .inr op, (value, s) => ((H e op s).1, (value, (H e op s).2))

def readRegister : Program ((register V).sum S) V := .call (.inl .read) .ret

def writeRegister (value : V) : Program ((register V).sum S) Unit :=
  .call (.inl (.write value)) .ret

/-- The calls of a program that starts with a value in the register, and the value that it leaves
there. -/
def under : V → Program ((register V).sum S) α → Program S (α × V)
  | value, .ret result => .ret (result, value)
  | value, .call (.inl .read) rest => (rest value).under value
  | _, .call (.inl (.write value)) rest => (rest ()).under value
  | value, .call (.inr op) rest => .call op fun answer => (rest answer).under value

@[simp] theorem under_ret (value : V) (result : α) :
    (.ret result : Program ((register V).sum S) α).under value = .ret (result, value) := rfl

@[simp] theorem under_call (value : V) (op : S.Op)
    (rest : S.Answer op → Program ((register V).sum S) α) :
    (Program.call (.inr op) rest : Program ((register V).sum S) α).under value =
      .call op fun answer => (rest answer).under value := rfl

theorem under_bind (value : V) (p : Program ((register V).sum S) α)
    (f : α → Program ((register V).sum S) β) :
    (p >>= f).under value = p.under value >>= fun r => (f r.1).under r.2 := by
  induction p generalizing value with
  | ret result => rfl
  | call op rest ih =>
    match op with
    | .inl .read => exact ih value value
    | .inl (.write other) => exact ih () other
    | .inr op => exact congrArg (Program.call op) (funext fun answer => ih answer value)

@[simp] theorem under_read (value : V) (f : V → Program ((register V).sum S) α) :
    (readRegister >>= f).under value = (f value).under value := rfl

@[simp] theorem under_write (value other : V) (f : Unit → Program ((register V).sum S) α) :
    (writeRegister other >>= f).under value = (f ()).under other := rfl

/-! ## Setting the register for a while -/

/-- Set the register for the time that a program runs. -/
def during (value : V) (p : Program ((register V).sum S) α) : Program ((register V).sum S) α := do
  let previous ← readRegister
  writeRegister value
  let result ← p
  writeRegister previous
  return result

/-- Whatever the program does and however it ends, the register is as it was before. -/
theorem under_during (before value : V) (p : Program ((register V).sum S) α) :
    (during value p).under before = p.under value >>= fun r => .ret (r.1, before) := by
  rw [during, under_read, under_write, under_bind]
  rfl

/-! ## Running -/

/-- A program with its register is run by running what is left without it. -/
theorem outcome_under (H : Handler S E σ) (e : E) (value : V) (p : Program ((register V).sum S) α)
    (s : σ) : p.outcome H.withRegister e (value, s) =
      (((p.under value).outcome H e s).1.1,
        (((p.under value).outcome H e s).1.2, ((p.under value).outcome H e s).2)) := by
  induction p generalizing value s with
  | ret result => rfl
  | call op rest ih =>
    match op with
    | .inl .read => exact ih value value s
    | .inl (.write other) => exact ih () other s
    | .inr op => exact ih (H e op s).1 value (H e op s).2

/-- A program that is killed leaves a store that what is left may leave when it is killed. -/
theorem halt_under (H : Handler S E σ) (e : E) (n : Nat) (value : V)
    (p : Program ((register V).sum S) α) (s : σ) :
    ∃ m, (p.halt H.withRegister e n (value, s)).2 = (p.under value).halt H e m s := by
  induction p generalizing n value s with
  | ret result => exact ⟨0, by simp⟩
  | call op rest ih =>
    cases n with
    | zero => exact ⟨0, rfl⟩
    | succ n =>
      match op with
      | .inl .read => exact ih value n value s
      | .inl (.write other) => exact ih () n other s
      | .inr op =>
        obtain ⟨m, hm⟩ := ih (H e op s).1 n value (H e op s).2
        exact ⟨m + 1, hm⟩

end Program

end Interleaving
