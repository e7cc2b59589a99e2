import SignalBridge.Proofs.Registry.Rounds

/-!
The limit on rounds is never met. The names that constructors and destructors can come to have are
fixed from the start, a class gains none of them twice, and every round but the last uses one up.
-/

namespace SignalBridge.Registry

variable {r : Registry} {stock names known : List String} {ms : List Member} {name : String}

theorem countP_lt_countP {α : Type} {p q : α → Bool} {x : α} {xs : List α}
    (h : ∀ y ∈ xs, p y → q y) (hx : x ∈ xs) (hp : p x = false) (hq : q x) :
    xs.countP p < xs.countP q := by
  induction xs with
  | nil => simp at hx
  | cons y ys ih =>
    have hle := List.countP_mono_left fun z hz => h z (List.mem_cons_of_mem _ hz)
    rw [List.countP_cons, List.countP_cons]
    rcases List.mem_cons.mp hx with rfl | hx
    · simp only [hp, hq, Bool.false_eq_true, ↓reduceIte]
      omega
    · have hlt := ih (fun z hz => h z (List.mem_cons_of_mem _ hz)) hx
      have := h y List.mem_cons_self
      split <;> split <;> first | omega | simp_all

/-- How many names of the stock a class still lacks. -/
def room (stock : List String) (r : Registry) (name : String) : Nat :=
  match r.find? name with
  | some c => stock.countP fun n => qualify name n ∉ c.members.map Member.fullName
  | none => 0

def totalRoom (stock names : List String) (r : Registry) : Nat :=
  (names.map (r.room stock)).sum

theorem room_le_length : r.room stock name ≤ stock.length := by
  unfold room
  split
  · exact List.countP_le_length
  · exact Nat.zero_le _

theorem totalRoom_le : r.totalRoom stock names ≤ names.length * stock.length := by
  induction names with
  | nil => simp [totalRoom]
  | cons n ns ih =>
    have : r.room stock n ≤ stock.length := room_le_length
    simp only [totalRoom, List.map_cons, List.sum_cons, List.length_cons, Nat.succ_mul] at ih ⊢
    omega

/-- Every member gained takes one name of the stock. -/
theorem countP_fresh (hs : ∀ m ∈ ms, ∃ n ∈ stock, m.fullName = qualify name n) :
    stock.countP (fun n => qualify name n ∉ known ++ (fresh known ms).map Member.fullName) +
        (fresh known ms).length ≤
      stock.countP fun n => qualify name n ∉ known := by
  induction ms generalizing known with
  | nil => simp [fresh]
  | cons m ms ih =>
    have hs' : ∀ m ∈ ms, ∃ n ∈ stock, m.fullName = qualify name n :=
      fun m hm => hs m (List.mem_cons_of_mem _ hm)
    by_cases hm : m.fullName ∈ known
    · rw [fresh, if_pos hm]
      exact ih hs'
    · rw [fresh, if_neg hm, List.length_cons]
      obtain ⟨n, hn, he⟩ := hs m List.mem_cons_self
      have hlt : stock.countP (fun n => qualify name n ∉ m.fullName :: known) <
          stock.countP fun n => qualify name n ∉ known :=
        countP_lt_countP (x := n) (by simp) hn (by simp [he]) (by simpa [← he] using hm)
      have hrest := @ih (m.fullName :: known) hs'
      have hperm : ∀ n, n ∉ known ++ (m :: fresh (m.fullName :: known) ms).map Member.fullName ↔
          n ∉ m.fullName :: known ++ (fresh (m.fullName :: known) ms).map Member.fullName := by
        intro n
        simp only [List.map_cons, List.mem_append, List.mem_cons]
        tauto
      simp only [hperm]
      omega

/-- The names of constructors and destructors all come from the stock. -/
def Stocked (stock : List String) (r : Registry) : Prop :=
  ∀ c ∈ r.classes, ∀ m ∈ c.members, m.category.isInherited → m.name ∈ stock

section Visit

variable (hn : name ∈ stock) (ht : "~" ++ name ∈ stock) (hs : r.Stocked stock)
include hn ht hs

theorem name_mem_of_inherited {c : MetaClass} {m : Member} (hc : c.name = name)
    (hm : m ∈ r.inherited c) : m.name ∈ stock ∧ m.fullName = qualify name m.name := by
  obtain ⟨base, hb, -, n, hnb, hi, rfl⟩ := mem_inherited_iff.mp hm
  refine ⟨?_, by rw [← hc]; rfl⟩
  change n.nameFor c.name ∈ stock
  unfold Member.nameFor
  rw [hc]
  split
  · exact hn
  · split
    · exact ht
    · exact hs base hb n hnb hi

theorem stocked_visit : (r.visit name).Stocked stock := by
  cases hf : r.find? name with
  | none => rwa [visit_of_gains_nil (by simp [gains, hf])]
  | some c =>
    have hc := (find?_eq_some_iff.mp hf).2
    rw [visit_of_find? hf]
    intro d hd m hm hi
    obtain ⟨e, he, rfl⟩ := List.mem_map.mp hd
    simp only at hm
    split at hm
    · rcases List.mem_append.mp hm with hm | hm
      · exact hs e he m hm hi
      · exact (name_mem_of_inherited hn ht hs hc (mem_fresh hm).1).1
    · exact hs e he m hm hi

theorem room_visit :
    (r.visit name).room stock name + (r.gains name).length ≤ r.room stock name := by
  cases hf : r.find? name with
  | none => rw [visit_of_gains_nil (by simp [gains, hf])]; simp [gains, hf]
  | some c =>
    have hc := (find?_eq_some_iff.mp hf).2
    have hfind : (r.visit name).find? name = some { c with
        members := c.members ++ fresh (c.members.map Member.fullName) (r.inherited c) } := by
      rw [visit_of_find? hf, find?_mapMembers, hf]
      simp [hc]
    simp only [room, hfind, hf, gains, List.map_append]
    exact countP_fresh fun m hm =>
      ⟨m.name, name_mem_of_inherited hn ht hs hc hm⟩

end Visit

theorem room_visit_le (other : String) : (r.visit name).room stock other ≤ r.room stock other := by
  cases hf : r.find? name with
  | none => exact Nat.le_of_eq (by rw [visit_of_gains_nil (by simp [gains, hf])])
  | some c =>
    rw [visit_of_find? hf]
    simp only [room, find?_mapMembers]
    cases ho : r.find? other with
    | none => simp
    | some d =>
      simp only [Option.map_some]
      apply List.countP_mono_left
      intro n _ hx
      simp only [decide_eq_true_eq] at hx ⊢
      intro hk
      apply hx
      split
      · rw [List.map_append]
        exact List.mem_append_left _ hk
      · exact hk

theorem totalRoom_visit (hmem : name ∈ names) (hn : name ∈ stock) (ht : "~" ++ name ∈ stock)
    (hs : r.Stocked stock) :
    (r.visit name).totalRoom stock names + (r.gains name).length ≤ r.totalRoom stock names := by
  have hle : ∀ ns : List String,
      (r.visit name).totalRoom stock ns ≤ r.totalRoom stock ns := by
    intro ns
    induction ns with
    | nil => exact Nat.le_refl _
    | cons n ns ih => exact Nat.add_le_add (room_visit_le n) ih
  induction names with
  | nil => simp at hmem
  | cons n ns ih =>
    simp only [totalRoom, List.map_cons, List.sum_cons] at ih hle ⊢
    rcases List.mem_cons.mp hmem with rfl | hmem
    · have := room_visit hn ht hs
      have := hle ns
      omega
    · have : (r.visit name).room stock n ≤ r.room stock n := room_visit_le n
      have := ih hmem
      omega

section Rounds

variable (hn : ∀ name ∈ names, name ∈ stock) (ht : ∀ name ∈ names, "~" ++ name ∈ stock)
include hn ht

theorem totalRoom_inheritRound {ns : List String} (hsub : ∀ name ∈ ns, name ∈ names)
    (hs : r.Stocked stock) :
    (inheritRound ns r).1.Stocked stock ∧
      (inheritRound ns r).1.totalRoom stock names + (inheritRound ns r).2 ≤
        r.totalRoom stock names := by
  induction ns generalizing r with
  | nil => exact ⟨hs, Nat.le_refl _⟩
  | cons n ns ih =>
    have hm := hsub n List.mem_cons_self
    have hv := totalRoom_visit hm (hn n hm) (ht n hm) hs
    obtain ⟨hstock, hroom⟩ := ih (fun name h => hsub name (List.mem_cons_of_mem _ h))
      (stocked_visit (hn n hm) (ht n hm) hs)
    refine ⟨hstock, ?_⟩
    simp only [inheritRound]
    change (inheritRound ns (r.visit n)).1.totalRoom stock names +
      ((r.gains n).length + (inheritRound ns (r.visit n)).2) ≤ _
    omega

/-- With rounds enough for the room there is, the last one adds nothing. -/
theorem gains_inheritRounds {limit : Nat} (hs : r.Stocked stock)
    (hl : r.totalRoom stock names < limit) :
    ∀ name ∈ names, (inheritRounds names limit r).registry.gains name = [] := by
  induction limit generalizing r with
  | zero => omega
  | succ limit ih =>
    obtain ⟨hstock, hroom⟩ := totalRoom_inheritRound hn ht (fun _ h => h) hs
    rw [inheritRounds]
    simp only
    split
    · rename_i hz
      obtain ⟨hg, he⟩ := gains_of_quiet_round hz
      simpa only [he] using hg
    · exact ih hstock (by omega)

end Rounds

/-- The names that constructors and destructors can come to have. -/
def nameStock (r : Registry) : List String :=
  ((r.classes.flatMap MetaClass.members).filter (·.category.isInherited)).map Member.name ++
    r.declared.map MetaClass.name ++ r.declared.map ("~" ++ ·.name)

theorem stocked_nameStock (r : Registry) : r.Stocked r.nameStock := by
  intro c hc m hm hi
  refine List.mem_append_left _ (List.mem_append_left _ (List.mem_map_of_mem ?_))
  exact List.mem_filter.mpr ⟨List.mem_flatMap.mpr ⟨c, hc, hm⟩, hi⟩

theorem mem_nameStock (h : name ∈ r.declaredNames) : name ∈ r.nameStock :=
  List.mem_append_left _ (List.mem_append_right _ h)

theorem tilde_mem_nameStock (h : name ∈ r.declaredNames) : "~" ++ name ∈ r.nameStock := by
  obtain ⟨c, hc, rfl⟩ := List.mem_map.mp h
  exact List.mem_append_right _ (List.mem_map_of_mem hc)

theorem totalRoom_lt_roundLimit (r : Registry) :
    r.totalRoom r.nameStock (r.declared.map MetaClass.name) < r.roundLimit := by
  have h : r.totalRoom r.nameStock (r.declared.map MetaClass.name) ≤
      (r.declared.map MetaClass.name).length * r.nameStock.length := totalRoom_le
  have hl : r.nameStock.length =
      (r.classes.flatMap MetaClass.members).countP (·.category.isInherited) +
        2 * r.declared.length := by
    simp only [nameStock, List.length_append, List.length_map, List.countP_eq_length_filter]
    omega
  rw [List.length_map, hl] at h
  exact Nat.lt_succ_of_le h

/-- After propagation no declared class lacks anything its base hands down. -/
theorem gains_propagate (r : Registry) :
    ∀ c ∈ r.declared, r.propagate.registry.gains c.name = [] := by
  intro c hc
  exact gains_inheritRounds (fun _ => mem_nameStock) (fun _ => tilde_mem_nameStock)
    r.stocked_nameStock r.totalRoom_lt_roundLimit c.name (List.mem_map_of_mem hc)

end SignalBridge.Registry
