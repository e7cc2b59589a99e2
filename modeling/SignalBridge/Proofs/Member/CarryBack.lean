import SignalBridge.Proofs.Member.ParameterList

namespace SignalBridge.Signature

variable {es : List Entry} {i : Nat} {type : String}

/-- The nearest named entry behind position `i` has this type: between the two stand words only. -/
def TypeBehind (es : List Entry) (i : Nat) (type : String) : Prop :=
  ∃ j name, i < j ∧ es[j]? = some (.named name type) ∧
    ∀ k, i < k → k < j → ∃ word, es[k]? = some (.single word)

section Nearest

/-- The same, of the first named entry from position `i` on. -/
theorem sharedType_eq_some_iff : sharedType es = some type ↔
    ∃ (j : Nat) (name : String), es[j]? = some (.named name type) ∧
      ∀ k < j, ∃ word, es[k]? = some (.single word) := by
  induction es with
  | nil => simp [sharedType]
  | cons e es ih =>
    cases e with
    | named name' type' =>
      constructor
      · intro h
        obtain rfl : type' = type := Option.some.inj h
        exact ⟨0, name', rfl, fun k hk => absurd hk (Nat.not_lt_zero k)⟩
      · rintro ⟨j, name, hj, hbefore⟩
        cases j with
        | zero => cases hj; rfl
        | succ j =>
          obtain ⟨word, hword⟩ := hbefore 0 (Nat.succ_pos j)
          cases hword
    | single word =>
      have hskip : sharedType (.single word :: es) = sharedType es := rfl
      rw [hskip, ih]
      constructor
      · rintro ⟨j, name, hj, hbefore⟩
        refine ⟨j + 1, name, hj, fun k hk => ?_⟩
        cases k with
        | zero => exact ⟨word, rfl⟩
        | succ k => exact hbefore k (Nat.lt_of_succ_lt_succ hk)
      · rintro ⟨j, name, hj, hbefore⟩
        cases j with
        | zero => cases hj
        | succ j => exact ⟨j, name, hj, fun k hk => hbefore (k + 1) (Nat.succ_lt_succ hk)⟩

theorem typeBehind_iff : TypeBehind es i type ↔ sharedType (es.drop (i + 1)) = some type := by
  rw [sharedType_eq_some_iff]
  simp only [List.getElem?_drop]
  constructor
  · rintro ⟨j, name, hij, hj, hbetween⟩
    refine ⟨j - (i + 1), name, ?_, fun k hk => hbetween (i + 1 + k) (by omega) (by omega)⟩
    rwa [Nat.add_sub_cancel' hij]
  · rintro ⟨j, name, hj, hbefore⟩
    refine ⟨i + 1 + j, name, by omega, hj, fun k hik hkj => ?_⟩
    have hk := hbefore (k - (i + 1)) (by omega)
    rwa [Nat.add_sub_cancel' hik] at hk

instance : Decidable (TypeBehind es i type) :=
  decidable_of_iff _ typeBehind_iff.symm

theorem forall_not_typeBehind_iff :
    (∀ type, ¬ TypeBehind es i type) ↔ sharedType (es.drop (i + 1)) = none := by
  simp only [typeBehind_iff, Option.eq_none_iff_forall_ne_some, ne_eq]

end Nearest

section Pass

variable (r : Registry)

/-- One entry more on the left: its parameter is put in front, and its type, if it has one, is
carried on. -/
def carryStep (e : Entry × Nat) (carried : Option String × List Parameter) :
    Option String × List Parameter :=
  (e.1.type?.or carried.1, e.1.parameter r e.2 carried.1 :: carried.2)

theorem resolve_eq_foldr (es : List Entry) :
    resolve r es = (es.zipIdx.foldr (carryStep r) (none, [])).2 := by
  have hfrom : ∀ i, resolveFrom r i es = ((es.zipIdx i).foldr (carryStep r) (none, [])).swap := by
    induction es with
    | nil => intro i; rfl
    | cons e es ih =>
      intro i
      rw [resolveFrom_cons, ih, List.zipIdx_cons, List.foldr_cons]
      rfl
  rw [resolve, hfrom]
  rfl

end Pass

/-- Every entry becomes one parameter. A named one becomes its name and type; a word that is no
type takes the type of the nearest named entry behind it, if there is one; any other word is the
type of a parameter named by its position. -/
theorem resolve_carryBack (r : Registry) (es : List Entry) :
    (resolve r es).length = es.length ∧
      (∀ (i : Nat) name type, es[i]? = some (.named name type) →
        (resolve r es)[i]? = some ⟨name, type, ""⟩) ∧
      (∀ (i : Nat) word type, es[i]? = some (.single word) → TypeBehind es i type →
        (r.nativeType word).isKnown = false → (resolve r es)[i]? = some ⟨word, type, ""⟩) ∧
      ∀ (i : Nat) word, es[i]? = some (.single word) →
        (∀ type, ¬ TypeBehind es i type) ∨ (r.nativeType word).isKnown →
          (resolve r es)[i]? = some ⟨s!"v{i}", word, ""⟩ := by
  refine ⟨length_resolve r es, ?_, ?_, ?_⟩
  · intro i name type he
    rw [getElem?_resolve, he]
    rfl
  · intro i word type he hbehind hword
    rw [getElem?_resolve, he, typeBehind_iff.mp hbehind, Option.map_some,
      parameter_shares hword]
  · intro i word he hword
    rw [getElem?_resolve, he, Option.map_some]
    rcases hword with hnone | hknown
    · rw [forall_not_typeBehind_iff.mp hnone]
      rfl
    · rw [parameter_known hknown]

/-- A type stands between a name and the entry whose type it shares, and words follow the last
named entry. -/
def mixedEntries : List Entry :=
  [.single "first", .single "int", .named "second" "*Item", .single "bool", .single "rest"]

theorem resolve_carryBack_mixed :
    TypeBehind mixedEntries 0 "*Item" ∧ (∀ type, ¬ TypeBehind mixedEntries 4 type) ∧
      (Registry.empty.nativeType "first").isKnown = false ∧
      (Registry.empty.nativeType "int").isKnown ∧
      (resolve Registry.empty mixedEntries)[0]? = some ⟨"first", "*Item", ""⟩ ∧
      (resolve Registry.empty mixedEntries)[1]? = some ⟨"v1", "int", ""⟩ ∧
      (resolve Registry.empty mixedEntries)[2]? = some ⟨"second", "*Item", ""⟩ ∧
      (resolve Registry.empty mixedEntries)[4]? = some ⟨"v4", "rest", ""⟩ := by
  have hbehind : TypeBehind mixedEntries 0 "*Item" := by decide
  have hnone : ∀ type, ¬ TypeBehind mixedEntries 4 type := forall_not_typeBehind_iff.mpr rfl
  have hfirst : (Registry.empty.nativeType "first").isKnown = false := by decide
  have hint : (Registry.empty.nativeType "int").isKnown := by decide
  obtain ⟨-, hnamed, hshares, hown⟩ := resolve_carryBack Registry.empty mixedEntries
  exact ⟨hbehind, hnone, hfirst, hint, hshares 0 "first" "*Item" rfl hbehind hfirst,
    hown 1 "int" rfl (.inr hint), hnamed 2 "second" "*Item" rfl, hown 4 "rest" rfl (.inl hnone)⟩

end SignalBridge.Signature
