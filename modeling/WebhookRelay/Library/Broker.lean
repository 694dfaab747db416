import Mathlib.Data.List.Basic
import Mathlib.Data.List.Nodup

/-!
# A message broker whose consumers acknowledge late

A message that is handed to a consumer stays with the broker until its delivery is
acknowledged. Every delivery has a tag of its own. A delivery that is not acknowledged in time
is taken back, and its message is handed out again.

## Main results

* `Broker.countP_reserve`, `Broker.countP_redeliver`: no operation loses or makes a message
  that waits to be handed out.
* `Broker.Issued.held_acknowledge`: only the acknowledgement of a delivery takes its message away.
-/

namespace Messaging

variable {M : Type}

/-- The messages that wait, and those that were handed out under a tag. -/
structure Broker (M : Type) where
  ready : List M
  unacked : List (Nat × M)
  nextTag : Nat
  tags_lt : ∀ delivery ∈ unacked, delivery.1 < nextTag
  tags_nodup : (unacked.map Prod.fst).Nodup

namespace Broker

def empty : Broker M where
  ready := []
  unacked := []
  nextTag := 0
  tags_lt := by simp
  tags_nodup := by simp

def publish (b : Broker M) (message : M) : Broker M := { b with ready := b.ready ++ [message] }

/-- Hand out the message at a place in the queue under a new tag. -/
def reserve (b : Broker M) (place : Nat) : Option (Nat × M) × Broker M :=
  match b.ready[place]? with
  | none => (none, b)
  | some message => (some (b.nextTag, message), {
      ready := b.ready.eraseIdx place
      unacked := b.unacked ++ [(b.nextTag, message)]
      nextTag := b.nextTag + 1
      tags_lt := by
        intro delivery h
        rcases List.mem_append.mp h with h | h
        · exact Nat.lt_succ_of_lt (b.tags_lt delivery h)
        · obtain rfl := List.mem_singleton.mp h
          exact Nat.lt_succ_self _
      tags_nodup := by
        rw [List.map_append, List.nodup_append]
        refine ⟨b.tags_nodup, by simp, fun tag h tag' h' => ?_⟩
        obtain ⟨delivery, hdelivery, rfl⟩ := List.mem_map.mp h
        have hlt := b.tags_lt delivery hdelivery
        simp only [List.map_cons, List.map_nil, List.mem_singleton] at h'
        omega })

/-- The delivery with this tag is done with. -/
def acknowledge (b : Broker M) (tag : Nat) : Broker M where
  ready := b.ready
  unacked := b.unacked.filter fun delivery => delivery.1 ≠ tag
  nextTag := b.nextTag
  tags_lt _ h := b.tags_lt _ (List.mem_of_mem_filter h)
  tags_nodup := b.tags_nodup.sublist (List.filter_sublist.map _)

/-- Take back a delivery; its message is handed out again. -/
def redeliver (b : Broker M) (place : Nat) : Option M × Broker M :=
  match b.unacked[place]? with
  | none => (none, b)
  | some (_, message) => (some message, {
      ready := b.ready ++ [message]
      unacked := b.unacked.eraseIdx place
      nextTag := b.nextTag
      tags_lt := fun _ h => b.tags_lt _ (List.mem_of_mem_eraseIdx h)
      tags_nodup := b.tags_nodup.sublist ((List.eraseIdx_sublist ..).map _) })

variable {b : Broker M} {message : M} {tag place : Nat}

/-! ## The messages that wait -/

theorem countP_publish (b : Broker M) (message : M) (p : M → Bool) :
    (b.publish message).ready.countP p = b.ready.countP p + (p message).toNat := by
  cases h : p message <;> simp [publish, h]

theorem countP_eraseIdx {l : List M} (p : M → Bool) (h : l[place]? = some message) :
    (l.eraseIdx place).countP p + (p message).toNat = l.countP p := by
  obtain ⟨hlt, rfl⟩ := List.getElem?_eq_some_iff.mp h
  have hsplit := congrArg (List.countP p) (List.take_append_drop place l)
  rw [List.countP_append, List.drop_eq_getElem_cons hlt, List.countP_cons] at hsplit
  rw [List.eraseIdx_eq_take_drop_succ, List.countP_append]
  have hone : (if p l[place] then 1 else 0) = (p l[place]).toNat := by cases p l[place] <;> rfl
  omega

/-- What is handed out no longer waits. -/
theorem countP_reserve (b : Broker M) (place : Nat) (p : M → Bool) :
    (b.reserve place).2.ready.countP p +
      ((b.reserve place).1.any fun delivery => p delivery.2).toNat = b.ready.countP p := by
  unfold reserve
  split
  · simp
  · next message h => simpa using countP_eraseIdx p h

/-- What is taken back waits again. -/
theorem countP_redeliver (b : Broker M) (place : Nat) (p : M → Bool) :
    (b.redeliver place).2.ready.countP p =
      b.ready.countP p + ((b.redeliver place).1.any p).toNat := by
  unfold redeliver
  split
  · simp
  · next message _ => cases h : p message <;> simp [h]

/-! ## The messages that the broker has -/

/-- How many such messages wait or were handed out. -/
def held (b : Broker M) (p : M → Bool) : Nat :=
  b.ready.countP p + b.unacked.countP fun delivery => p delivery.2

theorem held_publish (b : Broker M) (message : M) (p : M → Bool) :
    (b.publish message).held p = b.held p + (p message).toNat := by
  have hready := b.countP_publish message p
  have hunacked : (b.publish message).unacked = b.unacked := rfl
  rw [held, held, hready, hunacked]
  omega

theorem held_reserve (b : Broker M) (place : Nat) (p : M → Bool) :
    (b.reserve place).2.held p = b.held p := by
  unfold reserve
  split
  · rfl
  · next message h =>
    have hready := countP_eraseIdx p h
    have hone : (if p message = true then 1 else 0) = (p message).toNat := by
      cases p message <;> rfl
    simp only [held, List.countP_append, List.countP_singleton, hone]
    omega

theorem held_redeliver (b : Broker M) (place : Nat) (p : M → Bool) :
    (b.redeliver place).2.held p = b.held p := by
  unfold redeliver
  split
  · rfl
  · next tag message h =>
    have hunacked := countP_eraseIdx (fun delivery => p delivery.2) h
    dsimp only at hunacked
    have hone : (if p message = true then 1 else 0) = (p message).toNat := by
      cases p message <;> rfl
    simp only [held, List.countP_append, List.countP_singleton, hone]
    omega

/-- The message waits or was handed out. -/
def Holds (b : Broker M) (message : M) : Prop :=
  message ∈ b.ready ∨ ∃ tag, (tag, message) ∈ b.unacked

theorem Holds.of_publish {other : M} (h : (b.publish other).Holds message) :
    b.Holds message ∨ message = other := by
  rcases h with h | h
  · rcases List.mem_append.mp h with h | h
    · exact .inl (.inl h)
    · exact .inr (List.mem_singleton.mp h)
  · exact .inl (.inr h)

theorem Holds.of_reserve (h : (b.reserve place).2.Holds message) : b.Holds message := by
  unfold Broker.reserve at h
  split at h
  · exact h
  · next message' hplace =>
    rcases h with h | ⟨tag, h⟩
    · exact .inl (List.mem_of_mem_eraseIdx h)
    · rcases List.mem_append.mp h with h | h
      · exact .inr ⟨tag, h⟩
      · obtain ⟨-, rfl⟩ := Prod.mk.inj (List.mem_singleton.mp h)
        exact .inl (List.mem_of_getElem? hplace)

theorem Holds.of_redeliver (h : (b.redeliver place).2.Holds message) : b.Holds message := by
  unfold Broker.redeliver at h
  split at h
  · exact h
  · next tag' message' hplace =>
    rcases h with h | ⟨tag, h⟩
    · rcases List.mem_append.mp h with h | h
      · exact .inl h
      · obtain rfl := List.mem_singleton.mp h
        exact .inr ⟨tag', List.mem_of_getElem? hplace⟩
    · exact .inr ⟨tag, List.mem_of_mem_eraseIdx h⟩

theorem Holds.of_acknowledge (h : (b.acknowledge tag).Holds message) : b.Holds message :=
  h.imp_right fun ⟨tag', h⟩ => ⟨tag', List.mem_of_mem_filter h⟩

/-! ## Tags -/

/-- The tag was given to the delivery of this message and to no other. -/
def Issued (b : Broker M) (tag : Nat) (message : M) : Prop :=
  tag < b.nextTag ∧ ∀ other, (tag, other) ∈ b.unacked → other = message

theorem issued_reserve (h : (b.reserve place).1 = some (tag, message)) :
    (b.reserve place).2.Issued tag message := by
  unfold reserve at h ⊢
  split at h
  · cases h
  · next hplace =>
    cases h
    refine ⟨Nat.lt_succ_self _, fun other hother => ?_⟩
    rcases List.mem_append.mp hother with hother | hother
    · exact absurd (b.tags_lt _ hother) (Nat.lt_irrefl _)
    · exact (Prod.mk.inj (List.mem_singleton.mp hother)).2

theorem Issued.reserve (h : b.Issued tag message) : (b.reserve place).2.Issued tag message := by
  unfold Broker.reserve
  split
  · exact h
  · refine ⟨Nat.lt_succ_of_lt h.1, fun other hother => ?_⟩
    rcases List.mem_append.mp hother with hother | hother
    · exact h.2 other hother
    · have htag := (Prod.mk.inj (List.mem_singleton.mp hother)).1
      exact absurd h.1 (by omega)

theorem Issued.acknowledge (h : b.Issued tag message) (tag' : Nat) :
    (b.acknowledge tag').Issued tag message :=
  ⟨h.1, fun other hother => h.2 other (List.mem_of_mem_filter hother)⟩

theorem Issued.redeliver (h : b.Issued tag message) :
    (b.redeliver place).2.Issued tag message := by
  unfold Broker.redeliver
  split
  · exact h
  · exact ⟨h.1, fun other hother => h.2 other (List.mem_of_mem_eraseIdx hother)⟩

/-- At most the message of the delivery leaves the broker when it is acknowledged. -/
theorem Issued.held_acknowledge (h : b.Issued tag message) (p : M → Bool) :
    b.held p ≤ (b.acknowledge tag).held p + (p message).toNat := by
  have hsplit := List.countP_eq_countP_filter_add b.unacked (fun delivery => p delivery.2)
    fun delivery => delivery.1 ≠ tag
  have hgone : (b.unacked.filter fun delivery => !decide (delivery.1 ≠ tag)).countP
      (fun delivery => p delivery.2) ≤ (p message).toNat := by
    cases hp : p message with
    | false =>
      refine Nat.le_of_eq (List.countP_eq_zero.mpr ?_)
      rintro ⟨tag', other⟩ hfiltered
      obtain ⟨hmem, htag⟩ := List.mem_filter.mp hfiltered
      have htag : tag' = tag := by simpa using htag
      rw [h.2 other (htag ▸ hmem), hp]
      exact Bool.false_ne_true
    | true =>
      -- no tag is given twice
      have hcount := List.nodup_iff_count_le_one.mp b.tags_nodup tag
      rw [List.count, List.countP_map] at hcount
      refine Nat.le_trans List.countP_le_length (Nat.le_trans (Nat.le_of_eq ?_) hcount)
      rw [← List.countP_eq_length_filter]
      exact List.countP_congr fun delivery _ => by simp
  have hready : (b.acknowledge tag).ready = b.ready := rfl
  have hunacked : (b.acknowledge tag).unacked =
      b.unacked.filter fun delivery => delivery.1 ≠ tag := rfl
  rw [held, held, hready, hunacked]
  omega

/-- What is handed out was waiting. -/
theorem mem_ready_of_reserve (h : (b.reserve place).1 = some (tag, message)) :
    message ∈ b.ready := by
  unfold reserve at h
  split at h
  · cases h
  · next hplace =>
    cases h
    exact List.mem_of_getElem? hplace

end Broker

end Messaging
