import Mathlib.Data.List.Nodup
import SignalBridge.Keyed

namespace SignalBridge.Keyed

variable {α κ : Type} [DecidableEq κ] {key : α → κ} {xs ys : List α} {x : α} {k : κ}

theorem find?_put (x : α) (xs : List α) (k : κ) :
    (put key x xs).find? (fun y => key y = k) =
      if key x = k then some x else xs.find? fun y => key y = k := by
  induction xs with
  | nil => by_cases hx : key x = k <;> simp [put, hx]
  | cons y ys ih =>
    unfold put
    by_cases hy : key y = key x
    · rw [if_pos hy]
      by_cases hx : key x = k <;> simp [hy, hx]
    · rw [if_neg hy, List.find?_cons, List.find?_cons, ih]
      by_cases hx : key x = k
      · have hyk : key y ≠ k := hx ▸ hy
        simp [hx, hyk]
      · simp [hx]

theorem find?_eq_some_iff (h : (xs.map key).Nodup) :
    xs.find? (fun y => key y = k) = some x ↔ x ∈ xs ∧ key x = k := by
  constructor
  · intro hf
    exact ⟨List.mem_of_find?_eq_some hf, by simpa using List.find?_some hf⟩
  · rintro ⟨hx, rfl⟩
    cases hf : xs.find? (fun y => key y = key x) with
    | none => simpa using List.find?_eq_none.mp hf x hx
    | some y =>
      have hy : key y = key x := by simpa using List.find?_some hf
      rw [List.inj_on_of_nodup_map h (List.mem_of_find?_eq_some hf) hx hy]

theorem find?_eq_none_iff : xs.find? (fun y => key y = k) = none ↔ k ∉ xs.map key := by
  simp

theorem find?_perm (hp : xs.Perm ys) (h : (xs.map key).Nodup) (k : κ) :
    xs.find? (fun y => key y = k) = ys.find? fun y => key y = k := by
  apply Option.ext
  intro x
  rw [find?_eq_some_iff h, find?_eq_some_iff ((hp.map key).nodup_iff.mp h), hp.mem_iff]

/-- At most one item has the key. -/
theorem filter_eq_toList (h : (xs.map key).Nodup) (k : κ) :
    xs.filter (fun y => key y = k) = (xs.find? fun y => key y = k).toList := by
  induction xs with
  | nil => rfl
  | cons x xs ih =>
    rw [List.map_cons, List.nodup_cons] at h
    by_cases he : key x = k
    · have hnone := find?_eq_none_iff.mpr (he ▸ h.1)
      rw [List.filter_cons_of_pos (by simpa using he), ih h.2, hnone, List.find?_cons]
      simp [he]
    · rw [List.filter_cons_of_neg (by simpa using he), ih h.2, List.find?_cons]
      simp [he]

end SignalBridge.Keyed
