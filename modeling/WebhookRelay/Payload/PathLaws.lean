import WebhookRelay.Payload.Pruning
import WebhookRelay.Payload.Resolution

/-!
# The laws of dotted paths

`_get_nested_value`, `_set_nested_value` and `_delete_nested_path` are three loops of their own
over the segments of a path. On dictionaries they agree like the operations of a lens: what is
set is read, what is deleted is gone, and a path that is neither above nor below another one is
out of its reach.

## Main results

* `nestedPath_laws` — the laws together.
-/

namespace WebhookRelay

open Json

/-- There is nothing at the path. -/
def AbsentAt (root : Json) (dottedPath : String) : Prop := root.has (segments dottedPath) = false

/-- On the way along the path there is something that is no dictionary. -/
def BlockedAt (root : Json) (dottedPath : String) : Prop :=
  ∃ way k rest v, segments dottedPath = way ++ k :: rest ∧ root.at? way = some v ∧
    v.isDict = false

/-- Neither path is above the other. -/
def Apart (p q : String) : Prop := ¬ segments p <+: segments q ∧ ¬ segments q <+: segments p

/-- Reading a path is looking at its location. -/
theorem getNestedValue_at? {p : String} (hp : p ≠ "") (root : Json) :
    getNestedValue root p = (root.at? (segments p)).getD .null := by
  rw [getNestedValue, if_neg hp, descend_eq]

theorem deleteNestedPath_prune {p : String} (hp : p ≠ "") (root : Json) :
    deleteNestedPath root p = root.prune (segments p) := if_neg hp

theorem absentAt_of_blockedAt {root : Json} {p : String} (h : BlockedAt root p) :
    AbsentAt root p := by
  obtain ⟨way, k, rest, v, hsegments, hv, hdict⟩ := h
  unfold AbsentAt
  rw [hsegments, has, at?_append, hv, Option.bind_some]
  cases v with
  | obj ms => cases hdict
  | _ => rfl

section Laws

variable (ms : Members) {p q : String}

theorem get_set (hp : p ≠ "") (v : Json) :
    getNestedValue (setNestedValue (.obj ms) p v) p = v := by
  have hwritten := at?_assign_below ms (segments_ne_nil p) v []
  rw [List.append_nil, at?_nil] at hwritten
  rw [setNestedValue_eq rfl hp, getNestedValue_at? hp, members, hwritten, Option.getD_some]

theorem get_set_apart (hp : p ≠ "") (hq : q ≠ "") (h : Apart p q) (v : Json) :
    getNestedValue (setNestedValue (.obj ms) p v) q = getNestedValue (.obj ms) q := by
  rw [setNestedValue_eq rfl hp, getNestedValue_at? hq, getNestedValue_at? hq, members,
    at?_assign_aside ms v h.1 h.2]

theorem get_delete (hp : p ≠ "") (root : Json) :
    getNestedValue (deleteNestedPath root p) p = .null := by
  have hgone := at?_prune_below root (segments_ne_nil p) []
  rw [List.append_nil] at hgone
  rw [deleteNestedPath_prune hp, getNestedValue_at? hp, hgone, Option.getD_none]

theorem get_delete_apart (hp : p ≠ "") (hq : q ≠ "") (h : Apart p q) (root : Json) :
    getNestedValue (deleteNestedPath root p) q = getNestedValue root q := by
  rw [deleteNestedPath_prune hp, getNestedValue_at? hq, getNestedValue_at? hq,
    at?_prune_elsewhere root h.1 h.2]

theorem delete_absent {root : Json} (hroot : root.WellFormed) (h : AbsentAt root p) :
    deleteNestedPath root p = root := by
  by_cases hp : p = ""
  · exact if_pos hp
  · rw [deleteNestedPath_prune hp]
    exact prune_absent hroot h

theorem delete_comm (p q : String) (root : Json) :
    deleteNestedPath (deleteNestedPath root p) q =
      deleteNestedPath (deleteNestedPath root q) p := by
  by_cases hp : p = ""
  · simp only [deleteNestedPath, if_pos hp]
  by_cases hq : q = ""
  · simp only [deleteNestedPath, if_pos hq]
  simp only [deleteNestedPath_prune hp, deleteNestedPath_prune hq]
  exact prune_comm root (segments p) (segments q)

end Laws

/-- On every dictionary the three helpers obey the laws of a lens along any two paths. -/
theorem nestedPath_laws (tree : Payload) {p q : String} (hp : p ≠ "") (hq : q ≠ "") (v : Json) :
    let root := Json.obj tree.members
    getNestedValue (setNestedValue root p v) p = v ∧
      getNestedValue (deleteNestedPath root p) p = .null ∧
      (Apart p q → getNestedValue (setNestedValue root p v) q = getNestedValue root q ∧
        getNestedValue (deleteNestedPath root p) q = getNestedValue root q) ∧
      (AbsentAt root p → deleteNestedPath root p = root) ∧
      (BlockedAt root p → deleteNestedPath root p = root) ∧
      deleteNestedPath (deleteNestedPath root p) q =
        deleteNestedPath (deleteNestedPath root q) p := by
  intro root
  have hroot : root.WellFormed := tree.wellFormed
  refine ⟨get_set _ hp v, get_delete hp root, fun hapart => ?_, fun habsent => ?_,
    fun hblocked => ?_, delete_comm p q root⟩
  · exact ⟨get_set_apart _ hp hq hapart v, get_delete_apart hp hq hapart root⟩
  · exact delete_absent hroot habsent
  · exact delete_absent hroot (absentAt_of_blockedAt hblocked)

/-- A user with an address, and a course key. -/
def userTree : Payload where
  members := [("user", .obj [("email", .str "ada@example.com")]), ("course", .str "demo")]
  wellFormed := by
    refine .obj (by simp [Dictionary.keys]) ?_
    simpa using ⟨.obj (by simp [Dictionary.keys]) (by simpa using .str _), .str _⟩

/-- A path below the course key replaces it and is out of reach of the address; deleting it
changes nothing. -/
theorem nestedPath_laws_userTree :
    let root := Json.obj userTree.members
    getNestedValue (setNestedValue root "course.run" (.int 1)) "course.run" = .int 1 ∧
      getNestedValue (setNestedValue root "course.run" (.int 1)) "user.email" =
        getNestedValue root "user.email" ∧
      deleteNestedPath root "course.run" = root := by
  intro root
  obtain ⟨hset, -, hapart, -, hblocked, -⟩ :=
    nestedPath_laws userTree (p := "course.run") (q := "user.email") (by decide) (by decide)
      (.int 1)
  refine ⟨hset, (hapart ?_).1, hblocked ⟨["course"], "run", [], .str "demo", ?_, rfl, rfl⟩⟩
  · unfold Apart
    decide
  · decide

end WebhookRelay
