import Mathlib.Data.List.TakeWhile
import SignalBridge.Text.Pieces

namespace SignalBridge.Text

variable {w t r text after : List Char} {sep : Char}

theorem eq_append_of_dropWord? (h : dropWord? w t = some r) : t = w ++ r := by
  induction w generalizing t with
  | nil => simpa [dropWord?] using h
  | cons c w ih =>
    cases t with
    | nil => simp [dropWord?] at h
    | cons d t =>
      rw [dropWord?] at h
      split at h
      · rename_i hc
        rw [ih h, hc, List.cons_append]
      · cases h

theorem dropWord?_append (w r : List Char) : dropWord? w (w ++ r) = some r := by
  induction w with
  | nil => rfl
  | cons c w ih => simpa [dropWord?] using ih

theorem dropWord?_eq_none (h : ¬ w <+: t) : dropWord? w t = none := by
  cases hd : dropWord? w t with
  | none => rfl
  | some r => exact absurd ⟨r, (eq_append_of_dropWord? hd).symm⟩ h

theorem dropWord?_isSome : (dropWord? w t).isSome ↔ w <+: t := by
  constructor
  · intro h
    obtain ⟨r, hr⟩ := Option.isSome_iff_exists.mp h
    exact ⟨r, (eq_append_of_dropWord? hr).symm⟩
  · rintro ⟨r, rfl⟩
    rw [dropWord?_append]
    rfl

theorem occurs_iff : occurs w t ↔ w <:+: t := by
  induction t with
  | nil => simp [occurs]
  | cons d t ih => rw [occurs, Bool.or_eq_true, dropWord?_isSome, ih, List.infix_cons_iff]

theorem occurs_eq_false {c : Char} (hw : c ∈ w) (ht : c ∉ t) : occurs w t = false := by
  induction t with
  | nil =>
    cases w with
    | nil => cases hw
    | cons => rfl
  | cons d t ih =>
    rw [occurs, ih fun h => ht (List.mem_cons_of_mem _ h), Bool.or_false]
    cases hd : dropWord? w (d :: t) with
    | none => rfl
    | some r =>
      rw [eq_append_of_dropWord? hd] at ht
      exact absurd (List.mem_append_left r hw) ht

theorem afterLast_of_not_mem (h : sep ∉ text) : afterLast sep text = text := by
  have : text.reverse.takeWhile (· ≠ sep) = text.reverse := by
    rw [List.takeWhile_eq_self_iff]
    intro c hc
    have : c ≠ sep := fun he => h (he ▸ List.mem_reverse.mp hc)
    simpa using this
  rw [afterLast, this, List.reverse_reverse]

theorem afterLast_append (before : List Char) (h : sep ∉ after) :
    afterLast sep (before ++ sep :: after) = after := by
  have hr : (before ++ sep :: after).reverse = after.reverse ++ sep :: before.reverse := by simp
  have hw : ∀ c ∈ after.reverse, decide (c ≠ sep) := by
    intro c hc
    have : c ≠ sep := fun he => h (he ▸ List.mem_reverse.mp hc)
    simpa using this
  rw [afterLast, hr, List.takeWhile_append_of_pos hw]
  simp

/-- What is found behind the last separator is found there whatever the text follows. -/
theorem mem_afterLast_append {c : Char} (before : List Char) (h : c ∈ afterLast sep text) :
    c ∈ afterLast sep (before ++ text) := by
  rw [afterLast, List.mem_reverse] at h ⊢
  rw [List.reverse_append, List.takeWhile_append]
  split
  · exact List.mem_append_left _ ((List.takeWhile_sublist _).subset h)
  · exact h

theorem afterLast_suffix (sep : Char) (text : List Char) : afterLast sep text <:+ text := by
  rw [afterLast, ← List.reverse_prefix, List.reverse_reverse]
  exact List.takeWhile_prefix _

theorem splitAt_of_not_mem (h : sep ∉ text) : splitAt sep text = [text] := by
  induction text with
  | nil => rfl
  | cons c cs ih =>
    rw [List.mem_cons, not_or] at h
    rw [splitAt, if_neg (Ne.symm h.1), ih h.2]

theorem splitAt_ne_nil (sep : Char) (text : List Char) : splitAt sep text ≠ [] := by
  cases text with
  | nil => exact List.cons_ne_nil _ _
  | cons c cs =>
    rw [splitAt]
    split
    · exact List.cons_ne_nil _ _
    · split <;> exact List.cons_ne_nil _ _

theorem splitAt_append (before : List Char) (h : sep ∉ after) :
    splitAt sep (before ++ sep :: after) = splitAt sep before ++ [after] := by
  induction before with
  | nil => simp [splitAt, splitAt_of_not_mem h]
  | cons c cs ih =>
    rw [List.cons_append, splitAt, splitAt, ih]
    split
    · rfl
    · obtain ⟨piece, rest, hs⟩ := List.exists_cons_of_ne_nil (splitAt_ne_nil sep cs)
      rw [hs]
      rfl

end SignalBridge.Text
