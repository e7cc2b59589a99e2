namespace SignalBridge.Keyed

variable {α κ : Type} [DecidableEq κ]

/-- The list with `x` in place of the item that has its key, or at the end. -/
def put (key : α → κ) (x : α) : List α → List α
  | [] => [x]
  | y :: ys => if key y = key x then x :: ys else y :: put key x ys

theorem map_key_put (key : α → κ) (x : α) (xs : List α) :
    (put key x xs).map key =
      if key x ∈ xs.map key then xs.map key else xs.map key ++ [key x] := by
  induction xs with
  | nil => simp [put]
  | cons y ys ih =>
    by_cases h : key y = key x
    · simp [put, h]
    · simp only [put, if_neg h, List.map_cons, ih, List.mem_cons, Ne.symm h, false_or]
      split <;> rfl

theorem nodup_map_key_put {key : α → κ} {x : α} {xs : List α} (h : (xs.map key).Nodup) :
    ((put key x xs).map key).Nodup := by
  rw [map_key_put]
  split
  · exact h
  · rename_i hx
    rw [List.nodup_append]
    refine ⟨h, List.nodup_cons.mpr ⟨List.not_mem_nil, List.nodup_nil⟩, ?_⟩
    rintro a ha b hb rfl
    exact hx (List.mem_singleton.mp hb ▸ ha)

end SignalBridge.Keyed
