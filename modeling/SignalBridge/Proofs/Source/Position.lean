import SignalBridge.Source.Position

namespace SignalBridge.Source

@[simp] theorem byteLength_nil : byteLength [] = 0 := rfl

@[simp] theorem byteLength_cons (c : Char) (cs : List Char) :
    byteLength (c :: cs) = c.utf8Size + byteLength cs := rfl

@[simp] theorem byteLength_append (a b : List Char) :
    byteLength (a ++ b) = byteLength a + byteLength b := by
  induction a with
  | nil => simp
  | cons c cs ih => rw [List.cons_append, byteLength_cons, byteLength_cons, ih, Nat.add_assoc]

theorem byteLength_pos {text : List Char} (h : text ≠ []) : 0 < byteLength text := by
  cases text with
  | nil => exact absurd rfl h
  | cons c cs =>
    have := c.utf8Size_pos
    rw [byteLength_cons]
    omega

/-- The offset after a text leads back to that text. -/
theorem takeBytes_byteLength (a b : List Char) : takeBytes (byteLength a) (a ++ b) = a := by
  induction a with
  | nil =>
    cases b with
    | nil => rfl
    | cons c cs =>
      have := c.utf8Size_pos
      simp [takeBytes]
      omega
  | cons c cs ih => simp [takeBytes, ih]

namespace Position

theorem after_append_singleton (text : List Char) (c : Char) :
    after (text ++ [c]) = (after text).step c := by
  simp [after, List.foldl_append]

/-- A position counts the line breaks before it, and the characters after the last of them. -/
theorem after_eq (text : List Char) :
    after text = ⟨text.count '\n' + 1, (text.reverse.takeWhile (· ≠ '\n')).length + 1⟩ := by
  induction h : text.reverse generalizing text with
  | nil => simp_all [after, start]
  | cons c cs ih =>
    obtain rfl : text = cs.reverse ++ [c] := by
      rw [← List.reverse_reverse text, h, List.reverse_cons]
    rw [after_append_singleton, ih _ (List.reverse_reverse cs)]
    by_cases hc : c = '\n'
    · subst hc
      simp [step, List.count_append]
    · simp [step, hc, List.count_append]

end Position

end SignalBridge.Source
