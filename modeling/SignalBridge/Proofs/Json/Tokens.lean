import SignalBridge.Json.Reader

namespace SignalBridge.Json

theorem induction {P : Json → Prop} (null : P .null) (bool : ∀ b, P (.bool b))
    (number : ∀ literal, P (.number literal)) (string : ∀ content, P (.string content))
    (array : ∀ items, (∀ v ∈ items, P v) → P (.array items))
    (object : ∀ entries, (∀ e ∈ entries, P e.2) → P (.object entries)) (v : Json) : P v := by
  refine @Json.rec P (fun vs => ∀ v ∈ vs, P v) (fun es => ∀ e ∈ es, P e.2) (fun e => P e.2)
    null bool number string array object ?_ ?_ ?_ ?_ (fun _ _ h => h) v
  · intro v hv
    cases hv
  · intro v vs hv hvs w hw
    rcases List.mem_cons.mp hw with rfl | hw
    · exact hv
    · exact hvs w hw
  · intro e he
    cases he
  · intro e es he hes f hf
    rcases List.mem_cons.mp hf with rfl | hf
    · exact he
    · exact hes f hf

mutual

/-- The tokens of a value. -/
def tokens : Json → List Token
  | .null => [.null]
  | .bool b => [.bool b]
  | .number literal => [.number literal]
  | .string content => [.string content]
  | .array [] => [.beginArray, .endArray]
  | .array (v :: vs) => .beginArray :: (tokens v ++ (itemTokens vs ++ [.endArray]))
  | .object [] => [.beginObject, .endObject]
  | .object ((k, v) :: es) =>
    .beginObject :: .string k :: .colon :: (tokens v ++ (entryTokens es ++ [.endObject]))

/-- The tokens of further items. -/
def itemTokens : List Json → List Token
  | [] => []
  | v :: vs => .comma :: (tokens v ++ itemTokens vs)

/-- The tokens of further entries. -/
def entryTokens : List (Option String × Json) → List Token
  | [] => []
  | (k, v) :: es => .comma :: .string k :: .colon :: (tokens v ++ entryTokens es)

end

namespace State

variable {vs : List Json} {es : List (Option String × Json)} {ts : List Token}

/-- Where the machine waits for a value, it reads this one and goes on behind it. -/
def Reads (v : Json) : Prop :=
  ∀ frames ts, (tokens v ++ ts).foldlM step (value frames) = ts.foldlM step (after v frames)

/-- No value starts with the end of an array, so a first item is read like any value. -/
theorem foldlM_itemOrEnd (v : Json) (frames : List Frame) (ts : List Token) :
    (tokens v ++ ts).foldlM step (itemOrEnd frames) =
      (tokens v ++ ts).foldlM step (value (.array [] :: frames)) := by
  cases v with
  | array items => cases items <;> rfl
  | object entries => cases entries <;> rfl
  | _ => rfl

theorem foldlM_itemTokens (h : ∀ v ∈ vs, Reads v) (v : Json) (done : List Json)
    (frames : List Frame) :
    (itemTokens vs ++ .endArray :: ts).foldlM step (after v (.array done :: frames)) =
      ts.foldlM step (after (.array (done.reverse ++ v :: vs)) frames) := by
  induction vs generalizing v done with
  | nil =>
    rw [← List.reverse_cons]
    rfl
  | cons w vs ih =>
    obtain ⟨hw, hvs⟩ := List.forall_mem_cons.mp h
    have hcomma := hw (.array (v :: done) :: frames) (itemTokens vs ++ .endArray :: ts)
    rw [ih hvs, List.reverse_cons, List.append_assoc, List.singleton_append] at hcomma
    rw [itemTokens, List.cons_append, List.append_assoc]
    exact hcomma

theorem foldlM_entryTokens (h : ∀ e ∈ es, Reads e.2) (k : Option String) (v : Json)
    (done : List (Option String × Json)) (frames : List Frame) :
    (entryTokens es ++ .endObject :: ts).foldlM step (after v (.object done k :: frames)) =
      ts.foldlM step (after (.object (done.reverse ++ (k, v) :: es)) frames) := by
  induction es generalizing k v done with
  | nil =>
    rw [← List.reverse_cons]
    rfl
  | cons e es ih =>
    obtain ⟨k', w⟩ := e
    obtain ⟨hw, hes⟩ := List.forall_mem_cons.mp h
    have hcomma := hw (.object ((k, v) :: done) k' :: frames) (entryTokens es ++ .endObject :: ts)
    rw [ih hes, List.reverse_cons, List.append_assoc, List.singleton_append] at hcomma
    rw [entryTokens, List.cons_append, List.cons_append, List.cons_append, List.append_assoc]
    exact hcomma

theorem reads (v : Json) : Reads v := by
  intro frames ts
  induction v using Json.induction generalizing frames ts with
  | null | bool | number | string => rfl
  | array items ih =>
    cases items with
    | nil => rfl
    | cons v vs =>
      obtain ⟨hv, hvs⟩ := List.forall_mem_cons.mp ih
      have hitems := hv (.array [] :: frames) (itemTokens vs ++ .endArray :: ts)
      rw [← foldlM_itemOrEnd, foldlM_itemTokens hvs] at hitems
      rw [tokens, List.cons_append, List.append_assoc, List.append_assoc]
      exact hitems
  | object entries ih =>
    cases entries with
    | nil => rfl
    | cons e es =>
      obtain ⟨k, v⟩ := e
      obtain ⟨hv, hes⟩ := List.forall_mem_cons.mp ih
      have hentries := hv (.object [] k :: frames) (entryTokens es ++ .endObject :: ts)
      rw [foldlM_entryTokens hes] at hentries
      rw [tokens, List.cons_append, List.cons_append, List.cons_append, List.append_assoc,
        List.append_assoc]
      exact hentries

end State

/-- A value is read back from its tokens. -/
theorem ofTokens?_tokens (v : Json) : ofTokens? v.tokens = some v := by
  have h := State.reads v [] []
  rw [List.append_nil] at h
  rw [ofTokens?, h]
  rfl

end SignalBridge.Json
