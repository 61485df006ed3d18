import Mathlib
import Attestation.Device.Backend

/-!
# Finding a device among backends

* `findFirst_of_ok`, `findFirst_of_deviceNotFound`, `findFirst_of_error` : one turn of the search;
* `owner?` : the backend at which the search ends; `findFirst_eq` says that its answer is the answer of the list;
* `findFirst_append` : how the search goes on in a longer list;
* `exists_find_of_findFirst` : what is found was found by one of the backends.
-/

namespace Attestation.Backend

variable {tree : FileTree} {backend owner : Backend} {rest backends : List Backend} {device : Device} {fault : Fault}

/-! ## One turn -/

theorem findFirst_of_ok (h : backend.find tree = .ok device) : findFirst tree (backend :: rest) = .ok device := by
  rw [findFirst, h]

theorem findFirst_of_deviceNotFound (h : backend.find tree = .error .deviceNotFound) :
    findFirst tree (backend :: rest) = findFirst tree rest := by
  rw [findFirst, h]

theorem findFirst_of_error (h : backend.find tree = .error fault) (hfault : fault ≠ .deviceNotFound) :
    findFirst tree (backend :: rest) = .error fault := by
  unfold findFirst
  rw [h]
  split
  · next hc =>
    cases hc
    exact absurd rfl hfault
  · rfl

/-! ## Where discovery ends -/

/-- The backend at which discovery ends. -/
def owner? (tree : FileTree) (backends : List Backend) : Option Backend :=
  backends.find? fun backend => backend.find tree ≠ .error .deviceNotFound

/-- The answer of the list is that of the backend at which discovery ends. -/
theorem findFirst_eq (tree : FileTree) (backends : List Backend) :
    findFirst tree backends = ((owner? tree backends).map (find tree)).getD (.error .deviceNotFound) := by
  induction backends with
  | nil => rfl
  | cons backend rest ih =>
    by_cases h : backend.find tree = .error .deviceNotFound
    · rw [findFirst_of_deviceNotFound h, ih, owner?, owner?, List.find?_cons_of_neg (by simpa using h)]
    · rw [owner?, List.find?_cons_of_pos (by simpa using h), Option.map_some, Option.getD_some]
      cases hfind : backend.find tree with
      | ok device => exact findFirst_of_ok hfind
      | error fault => exact findFirst_of_error hfind fun hc => h (by rw [hfind, hc])

theorem owner?_eq_some_iff : owner? tree backends = some owner ↔ owner.find tree ≠ .error .deviceNotFound ∧
    ∃ before after, backends = before ++ owner :: after ∧
      ∀ backend ∈ before, backend.find tree = .error .deviceNotFound := by
  rw [owner?, List.find?_eq_some_iff_append]
  simp

theorem findFirst_of_owner? (h : owner? tree backends = some owner) : findFirst tree backends = owner.find tree := by
  rw [findFirst_eq, h]
  rfl

theorem findFirst_eq_deviceNotFound_iff :
    findFirst tree backends = .error .deviceNotFound ↔
      ∀ backend ∈ backends, backend.find tree = .error .deviceNotFound := by
  cases h : owner? tree backends with
  | none =>
    rw [findFirst_eq, h]
    rw [owner?, List.find?_eq_none] at h
    simpa using h
  | some owner =>
    rw [findFirst_of_owner? h]
    obtain ⟨hfound, before, after, rfl, -⟩ := owner?_eq_some_iff.1 h
    exact ⟨fun hc => absurd hc hfound, fun hall => hall owner (by simp)⟩

theorem exists_owner (h : findFirst tree backends ≠ .error .deviceNotFound) :
    ∃ owner, owner? tree backends = some owner ∧ owner.find tree = findFirst tree backends := by
  cases howner : owner? tree backends with
  | none =>
    rw [findFirst_eq, howner] at h
    exact absurd rfl h
  | some owner => exact ⟨owner, rfl, (findFirst_of_owner? howner).symm⟩

theorem findFirst_append (tree : FileTree) (xs ys : List Backend) :
    findFirst tree (xs ++ ys) =
      if findFirst tree xs = .error .deviceNotFound then findFirst tree ys else findFirst tree xs := by
  split
  · next h =>
    have hnone : owner? tree xs = none := by
      rw [owner?, List.find?_eq_none]
      simpa using findFirst_eq_deviceNotFound_iff.1 h
    rw [findFirst_eq, owner?, List.find?_append, ← owner?, hnone, Option.none_or, findFirst_eq]
    rfl
  · next h =>
    obtain ⟨owner, howner, hfind⟩ := exists_owner h
    rw [findFirst_eq, owner?, List.find?_append, ← owner?, howner, Option.some_or, ← hfind]
    rfl

/-- What is found among backends was found by one of them. -/
theorem exists_find_of_findFirst (h : findFirst tree backends = .ok device) :
    ∃ backend ∈ backends, backend.find tree = .ok device := by
  have hends : findFirst tree backends ≠ .error .deviceNotFound := by simp [h]
  obtain ⟨owner, howner, hfind⟩ := exists_owner hends
  obtain ⟨-, before, after, hsplit, -⟩ := owner?_eq_some_iff.1 howner
  exact ⟨owner, by simp [hsplit], hfind.trans h⟩

/-! ## Nodes -/

theorem firstNode_eq_ok {kind : DeviceKind} {paths : List String} (h : firstNode tree kind paths = .ok device) :
    device.path ∈ paths ∧ tree.exists? device.path = true ∧ device.kind = kind := by
  unfold firstNode at h
  split at h
  · next path hpath =>
    cases h
    exact ⟨List.mem_of_find?_eq_some hpath, List.find?_some hpath, rfl⟩
  · cases h

end Attestation.Backend
