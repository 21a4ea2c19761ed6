import TwinVoice.Lib.Dict
import TwinVoice.Lib.Json

/-! # Merge patches

What a store makes of a document and an `application/merge-patch+json`: the
members that the patch names are merged, those that it sets to null are
removed, and all others stay. A patch says what it says about a path whatever
the document is, as far as the path does not leave it. -/

namespace TwinVoice.Lib.Json.Document

def members : Document → Dict String Document
  | .obj members => members
  | _ => []

mutual

/-- The first document with the patch, which comes second, merged into it. -/
def merge (d : Document) : Document → Document
  | .obj patch => .obj (mergeMembers d.members patch)
  | v => v

def mergeMembers (ms : Dict String Document) : List (String × Document) → Dict String Document
  | [] => ms
  | (k, .null) :: patch => mergeMembers (ms.pop k) patch
  | (k, v) :: patch => mergeMembers (ms.set k (merge ((ms.get? k).getD .null) v)) patch

end

/-- What stands at a path. -/
def at? : Document → List String → Option Document
  | d, [] => some d
  | .obj members, k :: path => (Dict.get? members k).bind fun d => d.at? path
  | _, _ :: _ => none

/-- What stands at a path, null if nothing does. -/
def value (d : Document) (path : List String) : Document := (d.at? path).getD .null

theorem at?_cons (d : Document) (k : String) (path : List String) :
    d.at? (k :: path) = (d.members.get? k).bind fun d => d.at? path := by
  cases d <;> rfl

theorem get?_mergeMembers (patch : List (String × Document)) (hnodup : (patch.map Prod.fst).Nodup)
    (ms : Dict String Document) (k : String) :
    (mergeMembers ms patch).get? k =
      match Dict.get? patch k with
      | none => ms.get? k
      | some .null => none
      | some v => some (merge ((ms.get? k).getD .null) v) := by
  induction patch generalizing ms with
  | nil => rw [mergeMembers, Dict.get?_nil]
  | cons e patch ih =>
    obtain ⟨k', v⟩ := e
    obtain ⟨hfresh, hrest⟩ := List.nodup_cons.mp hnodup
    rw [Dict.get?_cons]
    by_cases hk : k' = k
    · subst hk
      have hnone : Dict.get? patch k' = none := Dict.get?_eq_none hfresh
      rw [if_pos rfl]
      cases v with
      | null =>
        rw [mergeMembers, ih hrest, hnone]
        exact (Dict.get?_pop ..).trans (if_pos rfl)
      | _ =>
        rw [mergeMembers, ih hrest, hnone]
        · exact (Dict.get?_set ..).trans (if_pos rfl)
        · exact nofun
    · rw [if_neg hk]
      cases v with
      | null => rw [mergeMembers, ih hrest, Dict.get?_pop, if_neg hk]
      | _ =>
        rw [mergeMembers, ih hrest, Dict.get?_set, if_neg hk]
        exact nofun

/-- What a patch makes of the value at a path; none if it leaves it alone. -/
def patched : Document → List String → Option Document
  | p, [] => some p
  | .obj patch, k :: path => (Dict.get? patch k).bind fun v => v.patched path
  | _, _ :: _ => some .null

/-- On the way along the path no object names a member twice. -/
def Distinct : Document → List String → Prop
  | .obj patch, k :: path => (patch.map Prod.fst).Nodup ∧ ∀ v, Dict.get? patch k = some v → v.Distinct path
  | _, _ => True

theorem distinct_nil (d : Document) : d.Distinct [] := by
  cases d <;> trivial

theorem Distinct.cons {patch : List (String × Document)} {k : String} {path : List String} {v : Document}
    (hnodup : (patch.map Prod.fst).Nodup) (hv : Dict.get? patch k = some v) (h : v.Distinct path) :
    (obj patch).Distinct (k :: path) := by
  refine ⟨hnodup, fun v' hv' => ?_⟩
  cases hv.symm.trans hv'
  exact h

theorem Distinct.stop {patch : List (String × Document)} {k : String} {path : List String}
    (hnodup : (patch.map Prod.fst).Nodup) (hnone : Dict.get? patch k = none) : (obj patch).Distinct (k :: path) :=
  ⟨hnodup, fun _ hv => nomatch hnone.symm.trans hv⟩

theorem merge_of_not_obj {p : Document} (h : ∀ patch, p ≠ .obj patch) (d : Document) : merge d p = p := by
  cases p with
  | obj patch => exact absurd rfl (h patch)
  | _ => rw [merge]; exact nofun

theorem patched_of_not_obj {p : Document} (h : ∀ patch, p ≠ .obj patch) (k : String) (path : List String) :
    p.patched (k :: path) = some .null := by
  cases p with
  | obj patch => exact absurd rfl (h patch)
  | _ => rfl

theorem value_cons (d : Document) (k : String) (path : List String) :
    d.value (k :: path) = ((d.members.get? k).getD .null).value path := by
  rw [value, at?_cons]
  cases d.members.get? k with
  | none => cases path <;> rfl
  | some v => rfl

/-- What stands at a path after a patch is what the patch makes of it, or what was there. -/
theorem value_merge {p : Document} {path : List String} (h : p.Distinct path) (d : Document) :
    (merge d p).value path = ((p.patched path).map (d.value path).merge).getD (d.value path) := by
  induction path generalizing p d with
  | nil =>
    rw [patched]
    rfl
  | cons k path ih =>
    cases p with
    | obj patch =>
      obtain ⟨hnodup, hdistinct⟩ := h
      rw [merge, value_cons, members, get?_mergeMembers patch hnodup, patched, value_cons]
      cases hv : Dict.get? patch k with
      | none => rfl
      | some v =>
        have hnext := ih (hdistinct v hv) ((d.members.get? k).getD .null)
        cases v with
        | null =>
          cases path with
          | nil =>
            rw [Option.bind_some, patched, Option.map_some, merge_of_not_obj (by simp)]
            rfl
          | cons k path =>
            rw [Option.bind_some, patched_of_not_obj (by simp), Option.map_some, merge_of_not_obj (by simp)]
            rfl
        | _ => exact hnext
    | _ =>
      rw [merge_of_not_obj (by simp), patched_of_not_obj (by simp), Option.map_some, merge_of_not_obj (by simp)]
      rfl

/-- A patch that does not reach a path leaves what stands there. -/
theorem value_merge_of_none {p : Document} {path : List String} (h : p.Distinct path) (hnone : p.patched path = none)
    (d : Document) : (merge d p).value path = d.value path := by
  rw [value_merge h, hnone]
  rfl

end TwinVoice.Lib.Json.Document
