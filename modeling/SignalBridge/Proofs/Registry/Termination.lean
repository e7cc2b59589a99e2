import Mathlib.Data.List.Dedup
import SignalBridge.Proofs.Registry.RoundLimit

namespace SignalBridge.Registry

variable {r : Registry} {stock names : List String} {name : String} {p q : Propagation}

/-- Rounds that nothing limits: after one that adds a member comes another, one that adds none is
the last. -/
inductive Settles (names : List String) : Registry → Propagation → Prop where
  | quiet {r after : Registry} (h : inheritRound names r = (after, 0)) :
      Settles names r ⟨after, 0, 1⟩
  | busy {r after : Registry} {added : Nat} {p : Propagation}
      (h : inheritRound names r = (after, added)) (hne : added ≠ 0) (rest : Settles names after p) :
      Settles names r ⟨p.registry, added + p.added, p.rounds + 1⟩

theorem Settles.unique (h : Settles names r p) (h' : Settles names r q) : p = q := by
  induction h generalizing q with
  | quiet h =>
    cases h' with
    | quiet h' =>
      cases h.symm.trans h'
      rfl
    | busy h' hne =>
      cases h.symm.trans h'
      exact absurd rfl hne
  | busy h hne _ ih =>
    cases h' with
    | quiet h' =>
      cases h.symm.trans h'
      exact absurd rfl hne
    | busy h' _ rest' =>
      cases h.symm.trans h'
      rw [ih rest']

/-- Every round but the last adds a member. -/
theorem Settles.rounds_le (h : Settles names r p) : p.rounds ≤ p.added + 1 := by
  induction h with
  | quiet => exact Nat.le_refl _
  | busy _ hne _ ih =>
    simp only
    omega

section Stocked

variable (hn : ∀ name ∈ names, name ∈ stock) (ht : ∀ name ∈ names, "~" ++ name ∈ stock)
include hn ht

/-- No more is added than there is room for. -/
theorem Settles.added_le (hs : r.Stocked stock) (h : Settles names r p) :
    p.added ≤ r.totalRoom stock names := by
  induction h with
  | quiet => exact Nat.zero_le _
  | busy h _ _ ih =>
    obtain ⟨hstock, hroom⟩ := totalRoom_inheritRound hn ht (fun _ hm => hm) hs
    rw [h] at hstock hroom
    have := ih hstock
    simp only at hroom ⊢
    omega

/-- A limit above the room there is cuts nothing off. -/
theorem settles_inheritRounds {limit : Nat} (hs : r.Stocked stock)
    (hl : r.totalRoom stock names < limit) : Settles names r (inheritRounds names limit r) := by
  induction limit generalizing r with
  | zero => omega
  | succ limit ih =>
    obtain ⟨hstock, hroom⟩ := totalRoom_inheritRound hn ht (fun _ hm => hm) hs
    rw [inheritRounds]
    simp only
    split
    · rename_i hz
      exact .quiet (Prod.ext rfl hz)
    · rename_i hz
      exact .busy rfl hz (ih hstock (by omega))

end Stocked

/-- The names of the constructors and destructors, each once. -/
def heritableNames (r : Registry) : List String :=
  (((r.classes.flatMap MetaClass.members).filter (·.category.isInherited)).map Member.name).dedup

/-- The heritable names, and those that a declared class makes of them. -/
def distinctStock (r : Registry) : List String :=
  r.heritableNames ++ r.declaredNames ++ r.declaredNames.map ("~" ++ ·)

theorem stocked_distinctStock (r : Registry) : r.Stocked r.distinctStock := by
  intro c hc m hm hi
  refine List.mem_append_left _ (List.mem_append_left _ (List.mem_dedup.mpr ?_))
  exact List.mem_map_of_mem (List.mem_filter.mpr ⟨List.mem_flatMap.mpr ⟨c, hc, hm⟩, hi⟩)

theorem mem_distinctStock (h : name ∈ r.declaredNames) : name ∈ r.distinctStock :=
  List.mem_append_left _ (List.mem_append_right _ h)

theorem tilde_mem_distinctStock (h : name ∈ r.declaredNames) : "~" ++ name ∈ r.distinctStock :=
  List.mem_append_right _ (List.mem_map_of_mem h)

theorem totalRoom_distinctStock_le (r : Registry) :
    r.totalRoom r.distinctStock r.declaredNames ≤
      r.declared.length * (r.heritableNames.length + 2 * r.declared.length) := by
  have h : r.totalRoom r.distinctStock r.declaredNames ≤
      r.declaredNames.length * r.distinctStock.length := totalRoom_le
  have hlength : r.declaredNames.length = r.declared.length := List.length_map ..
  have hstock : r.distinctStock.length = r.heritableNames.length + 2 * r.declared.length := by
    rw [distinctStock, List.length_append, List.length_append, List.length_map, hlength]
    omega
  rwa [hlength, hstock] at h

theorem settles_propagate (r : Registry) : Settles r.declaredNames r r.propagate :=
  settles_inheritRounds (fun _ => mem_nameStock) (fun _ => tilde_mem_nameStock)
    r.stocked_nameStock r.totalRoom_lt_roundLimit

/-- Without a limit the rounds end in what propagation gives and in nothing else. There is at most
one round for each member added and one more, and a declared class gains at most the names that can
be inherited at the start and the two that each declared class makes of its own name. -/
theorem propagate_terminates (r : Registry) :
    (∀ p, Settles r.declaredNames r p ↔ p = r.propagate) ∧
      r.propagate.rounds ≤ r.propagate.added + 1 ∧
      r.propagate.added ≤
        r.declared.length * (r.heritableNames.length + 2 * r.declared.length) := by
  have hends := r.settles_propagate
  have hadded : r.propagate.added ≤ r.totalRoom r.distinctStock r.declaredNames :=
    hends.added_le (fun _ => mem_distinctStock) (fun _ => tilde_mem_distinctStock)
      r.stocked_distinctStock
  refine ⟨?_, hends.rounds_le, Nat.le_trans hadded r.totalRoom_distinctStock_le⟩
  intro p
  constructor
  · intro h
    exact h.unique hends
  · rintro rfl
    exact hends

end SignalBridge.Registry
